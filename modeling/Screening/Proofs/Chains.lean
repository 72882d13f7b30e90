import Screening.Proofs.Phrases

/-!
# Chains of members

A rule can be written as a chain: members one after the other with a connective between any two, and
no brackets round the whole.  A member is a comparison, a comparison in brackets, or a bracketed
group that has connectives of its own.

A connective takes the tree finished last for its left side and waits for a right side.  Only two
things give it one: a comparison in brackets, at its closing bracket, and a bare comparison that is
the last member, at the end of the text.  Whatever else follows is a tree of its own, which the next
connective takes instead.  `Chain.trees` is this account, without brackets and without parts.  The
tree that was passed over never gets its right side, so a chain reads as a rule exactly if none was
(`read_chain`).

One bracket may lie among the parts all along: a comparison in brackets that is the first member
leaves its opening behind.  It is in nobody's way as long as no group has a connective under two
others.

The proof has three layers.

* The text of a chain is scanned into its spelling, however many blanks stand round the connectives
  (`Chain.lexemes_of_writtenAs`).
* The reading of the spelling is followed member by member and comes to the trees of the account
  (`run_links`).
* The trees are counted: there is one of them exactly if the chain `Builds` (`trees_of_builds`,
  `length_trees_of_not_builds`).
-/

set_option autoImplicit false

namespace Screening

open Lexeme

/-- A member of a chain. -/
inductive Member where
  /-- A comparison by itself. -/
  | bare (c : Clause)
  /-- A comparison in brackets. -/
  | bracketed (c : Clause)
  /-- Two phrases with a connective between them, in brackets. -/
  | group (op : Connective) (left right : Phrase)
  deriving DecidableEq

/-- A connective and the member behind it. -/
structure Link where
  op : Connective
  member : Member
  deriving DecidableEq

/-- A first member and links behind it. -/
structure Chain where
  first : Member
  links : List Link
  deriving DecidableEq

namespace Member

def phrase : Member → Phrase
  | bare c => .clause c
  | bracketed c => .clause c
  | group op left right => .joined op left right

def rule (m : Member) : Rule := m.phrase.rule

def toText : Member → String
  | bare c => c.toText
  | bracketed c => "(" ++ c.toText ++ ")"
  | group op left right => (Phrase.joined op left right).toText

def spelling : Member → List String
  | bare c => c.spelling
  | bracketed c => "(" :: (c.spelling ++ [")"])
  | group op left right => (Phrase.joined op left right).spelling

/-- No connective of a member stands under two others, and its comparisons are well written. -/
structure Worded (m : Member) : Prop where
  height : m.rule.height ≤ 2
  clauses : ∀ c ∈ m.phrase.clauses, c.Worded

theorem worded_of_clause {m : Member} {c : Clause} (hm : m.phrase = .clause c) (h : c.Worded) :
    m.Worded where
  height := by
    rw [rule, hm]
    exact Nat.zero_le 2
  clauses := by
    rw [hm]
    exact List.forall_mem_singleton.2 h

theorem complete_rule (m : Member) : m.rule.complete = true := m.phrase.complete_rule

theorem Worded.readable {m : Member} (h : m.Worded) : ∀ c ∈ m.phrase.clauses, c.Readable :=
  fun c hc => (h.clauses c hc).readable

end Member

namespace Chain

/-- The members joined from the left, whatever the connectives are. -/
def rule (chain : Chain) : Rule :=
  chain.links.foldl (fun t link => .joined link.op t link.member.rule) chain.first.rule

def members (chain : Chain) : List Member := chain.first :: chain.links.map Link.member

def Worded (chain : Chain) : Prop := ∀ m ∈ chain.members, m.Worded

theorem worded_iff {chain : Chain} :
    chain.Worded ↔ chain.first.Worded ∧ ∀ link ∈ chain.links, link.member.Worded := by
  simp [Worded, members]

/-- Members between the first and the last are comparisons in brackets, and the last one, unless it
is the first, is a comparison. -/
structure Builds (chain : Chain) : Prop where
  between : ∀ link ∈ chain.links.dropLast, ∃ c, link.member = .bracketed c
  last : ∀ link ∈ chain.links.getLast?, ∃ c, link.member = .bare c ∨ link.member = .bracketed c

end Chain

/-! ## The text of a chain

Between a connective and the members on its sides there may be any number of blanks but none. -/

/-- One blank and more. -/
def blanks (more : Nat) : List Char := ' ' :: List.replicate more ' '

namespace Link

def spelling (link : Link) : List String := link.op.keyword :: link.member.spelling

/-- Links in a text, with one blank or more before each connective and before each member. -/
inductive Written : List Link → List Char → Prop
  | nil : Written [] []
  | cons (link : Link) (before after : Nat) {links : List Link} {cs : List Char}
      (h : Written links cs) :
      Written (link :: links) (blanks before ++ (link.op.keyword.toList ++ (blanks after ++
        (link.member.toText.toList ++ cs))))

end Link

namespace Chain

def spelling (chain : Chain) : List String :=
  chain.first.spelling ++ chain.links.flatMap Link.spelling

/-- The text is the chain, with either kind of quotes round the texts in it. -/
def WrittenAs (chain : Chain) (text : String) : Prop :=
  ∃ cs, Link.Written chain.links cs ∧
    (singleQuoted text).toList = chain.first.toText.toList ++ cs

end Chain

namespace Lexeme

theorem scan_blanks (more : Nat) (rest : List Char) :
    scan (blanks more ++ rest) 0 = scan rest 0 := by
  refine scan_idles (fun c hc => ?_) rest
  rw [blanks, ← List.replicate_succ] at hc
  rw [List.eq_of_mem_replicate hc]
  decide

theorem apart_blanks (more : Nat) (rest : List Char) : Apart (blanks more ++ rest) :=
  apart_cons (by decide) _

end Lexeme

theorem Member.scan_toText {m : Member} (h : m.Worded) {rest : List Char} (hr : Apart rest) :
    scan (m.toText.toList ++ rest) 0 = m.spelling.map String.toList ++ scan rest 0 := by
  cases m with
  | bare c => exact Clause.scan_toText (h.clauses c List.mem_cons_self) hr
  | bracketed c =>
    have hc : c.Worded := h.clauses c List.mem_cons_self
    have htext : (bracketed c).toText.toList ++ rest = '(' :: (c.toText.toList ++ ')' :: rest) := by
      simp [toText]
    rw [htext, scan_bracket (.inl rfl), Clause.scan_toText hc (apart_cons (by decide) _),
      scan_bracket (.inr rfl)]
    simp [spelling]
  | group op left right => exact Phrase.scan_toText h.clauses hr

theorem Link.Written.apart {links : List Link} {cs : List Char} (h : Link.Written links cs) :
    Apart cs := by
  cases h with
  | nil => exact apart_nil
  | cons link before after h => exact apart_blanks before _

/-- Links are scanned into theirs, and the induction is on how they are written. -/
theorem Link.Written.scan {links : List Link} {cs : List Char} (h : Link.Written links cs)
    (hlinks : ∀ link ∈ links, link.member.Worded) :
    Lexeme.scan cs 0 = (links.flatMap Link.spelling).map String.toList := by
  induction h with
  | nil => rfl
  | @cons link before after links cs h ih =>
    obtain ⟨hlink, hlinks⟩ := List.forall_mem_cons.1 hlinks
    rw [scan_blanks, scan_legal_append (legal_keyword link.op) (apart_blanks after _), scan_blanks,
      Member.scan_toText hlink h.apart, ih hlinks, List.flatMap_cons, List.map_append,
      Link.spelling, List.map_cons, List.cons_append]

/-- **The lexemes of a chain are its spelling**, whichever quotes it is written with. -/
theorem Chain.lexemes_of_writtenAs {chain : Chain} (h : chain.Worded) {text : String}
    (htext : chain.WrittenAs text) : lexemes text = chain.spelling := by
  obtain ⟨cs, hcs, htext⟩ := htext
  obtain ⟨hfirst, hlinks⟩ := Chain.worded_iff.1 h
  have hscan : scan (singleQuoted text).toList 0 = chain.spelling.map String.toList := by
    rw [htext, Member.scan_toText hfirst hcs.apart, hcs.scan hlinks, Chain.spelling,
      List.map_append]
  exact lexemes_eq_of_scan hscan

/-! ## What the reading of a chain comes to -/

/-- The trees after the links, newest first; `newest` is the tree finished last before them, and
the trees `older` below it wait for a right side. -/
def Chain.trees (newest : Rule) (older : List Rule) : List Link → List Rule
  | [] => newest :: older
  | [⟨op, .bare c⟩] => .joined op newest (.condition c.condition) :: older
  | ⟨op, .bracketed c⟩ :: links => trees (.joined op newest (.condition c.condition)) older links
  | ⟨op, m⟩ :: links => trees m.rule (.pending op newest :: older) links

/-- What a reading ends in that has come to these trees. -/
def Chain.outcome : List Rule → Except RuleError Rule
  | [t] => .ok t
  | ts => .error (.malformed (.rootCount ts.length))

theorem Chain.outcome_of_two {ts : List Rule} (h : 2 ≤ ts.length) :
    outcome ts = .error (.malformed (.rootCount ts.length)) := by
  match ts, h with
  | _ :: _ :: _, _ => rfl

namespace Assembly

/-- One bracket among the parts is not enough to make a condition. -/
theorem length_brackets_lt {k : Nat} (hk : k ≤ 1) : (brackets k).length < 3 := by
  rw [brackets, List.length_replicate]
  omega

theorem eq_of_mem_brackets {k : Nat} {part : String} (h : part ∈ brackets k) : part = "(" :=
  List.eq_of_mem_replicate h

/-! ## One member

A member is read from a state in which a connective waits for its right side.  What is below, trees
or a bracket, stays where it is. -/

/-- Behind a tree that has been finished, the connective takes it and the member follows. -/
theorem run_link {a : Assembly} {t : Rule} {k : Nat} {older : List Rule}
    (h : a.Takes t ⟨brackets k, older, 0⟩) (link : Link) (ls : List String) :
    a.run (link.spelling ++ ls)
      = run ⟨brackets k, .pending link.op t :: older, 0⟩ (link.member.spelling ++ ls) := by
  have hstep := step_eq_ok_iff.2 (.connective link.op h)
  rw [Link.spelling, List.cons_append, run_cons, Token.ofLexeme_keyword, hstep, ok_bind]

/-- A comparison in brackets becomes the right side of the connective before it. -/
theorem run_bracketed {c : Clause} (h : c.Readable) (op : Connective) (t : Rule) (k : Nat)
    (older : List Rule) (ls : List String) :
    run ⟨brackets k, .pending op t :: older, 0⟩ ((Member.bracketed c).spelling ++ ls)
      = run ⟨brackets k, .joined op t (.condition c.condition) :: older, 0⟩ ls := by
  have htakes := Takes.fresh c.field c.comparison c.value ("(" :: brackets k)
    (.pending op t :: older) 0
  have hstep := step_eq_ok_iff.2 (.closePending (List.cons_ne_nil _ _) htakes)
  have hspelling : (Member.bracketed c).spelling ++ ls = "(" :: (c.spelling ++ ")" :: ls) := by
    simp [Member.spelling]
  rw [hspelling, run_opening, run_clause h, run_cons, Token.ofLexeme_closing_iff.2 rfl, hstep,
    ok_bind]
  rfl

/-- A group is read by itself and leaves the trees below it alone. -/
theorem run_group {op : Connective} {left right : Phrase}
    (h : (Member.group op left right).Worded) {k : Nat} (hk : k ≤ 1) (trees : List Rule)
    (ls : List String) :
    run ⟨brackets k, trees, 0⟩ ((Member.group op left right).spelling ++ ls)
      = run ⟨brackets k, (Member.group op left right).rule :: trees, 0⟩ ls := by
  let p : Phrase := .joined op left right
  have hheight : p.rule.height ≤ 2 := h.height
  have hfits : p.rule.Fits k := .inr (by omega)
  have hreadable : ∀ c ∈ p.clauses, c.Readable := h.readable
  have hread := run_spelling p.complete_rule (Phrase.readable_rule hreadable) hfits trees 0
  have hvalues := run_spelling_append hreadable ⟨brackets k, trees, 0⟩ ls (by simp [p])
  show run ⟨brackets k, trees, 0⟩ (p.spelling ++ ls) = _
  rw [hvalues, run_append, hread, ok_bind]
  rfl

/-- After the first member its tree can be taken, and at most one bracket lies among the parts. -/
theorem run_first {m : Member} (h : m.Worded) :
    ∃ a k, run {} m.spelling = .ok a ∧ k ≤ 1 ∧ a.Takes m.rule ⟨brackets k, [], 0⟩ ∧
      a.finish = .ok m.rule := by
  cases m with
  | bare c =>
    have hc : c.Readable := h.readable c List.mem_cons_self
    have hrun := run_clause hc [] [] 0 []
    rw [List.append_nil] at hrun
    refine ⟨_, 0, hrun, Nat.zero_le 1, .fresh c.field c.comparison c.value [] [] 0, ?_⟩
    exact finish_eq_ok_iff.2 (.only c.field c.comparison c.value (by simp))
  -- The bracket round the first comparison of all closes before there is a tree to complete, so its
  -- opening one is left among the parts.
  | bracketed c =>
    have hc : c.Readable := h.readable c List.mem_cons_self
    have htakes := Takes.fresh c.field c.comparison c.value ["("] [] 0
    have hstep := step_eq_ok_iff.2 (.closeFirst htakes)
    have hrun : run {} (Member.bracketed c).spelling
        = .ok ⟨brackets 1, [.condition c.condition], 0⟩ := by
      show run {} ("(" :: (c.spelling ++ [")"])) = _
      rw [run_opening, run_clause hc, run_cons, Token.ofLexeme_closing_iff.2 rfl, hstep, ok_bind]
      rfl
    refine ⟨_, 1, hrun, Nat.le_refl 1, .stored (by decide) _ [] 0, ?_⟩
    exact finish_eq_ok_iff.2 (.sole rfl _)
  | group op left right =>
    have hrun := run_group h (Nat.zero_le 1) [] []
    rw [List.append_nil] at hrun
    refine ⟨_, 0, hrun, Nat.zero_le 1, .stored (by decide) _ [] 0, ?_⟩
    exact finish_eq_ok_iff.2 (.sole (Member.complete_rule _) [])

/-! ## The end

At the end there are trees, and perhaps a comparison that has not been taken up. -/

/-- What a reading ends in depends on nothing but its trees once there are only brackets among the
parts. -/
theorem conclude_of_settle {a b : Assembly} {t : Rule} {older : List Rule} (h : a.settle = .ok b)
    (hparts : ∀ part ∈ b.parts, part = "(") (ht : t.complete = true) (hb : b.trees = t :: older) :
    a.conclude = Chain.outcome (t :: older) := by
  have hnone : b.parts.reverse.find? (· ≠ "(") = none := by
    simpa using hparts
  rw [conclude, h, ok_bind, hnone, hb]
  cases older with
  | nil => exact if_pos ht
  | cons s older => rfl

/-- A reading that has come to trees and to fewer than three parts, all of them brackets. -/
theorem finish_stored {t : Rule} (ht : t.complete = true) {k : Nat} (hk : k ≤ 1)
    (older : List Rule) :
    finish ⟨brackets k, t :: older, 0⟩ = Chain.outcome (t :: older) := by
  have hsettle : settle ⟨brackets k, t :: older, 0⟩ = .ok ⟨brackets k, t :: older, 0⟩ :=
    settle_eq_ok_iff.2 (.inl ⟨length_brackets_lt hk, rfl⟩)
  have hconclude := conclude_of_settle hsettle (fun _ => eq_of_mem_brackets) ht rfl
  cases older with
  | nil => exact finish_eq_ok_iff.2 (.sole ht _)
  | cons s older => exact hconclude

/-- The end of the text gives a bare comparison to the connective before it. -/
theorem finish_bare {t : Rule} (ht : t.complete = true) (c : Clause) (op : Connective) (k : Nat)
    (older : List Rule) :
    finish ⟨c.value :: c.comparison.symbol :: c.field :: brackets k, .pending op t :: older, 0⟩
      = Chain.outcome (.joined op t (.condition c.condition) :: older) := by
  have hsettle : settle ⟨c.value :: c.comparison.symbol :: c.field :: brackets k,
      .pending op t :: older, 0⟩
        = .ok ⟨brackets k, .joined op t (.condition c.condition) :: older, 0⟩ :=
    settle_eq_ok_iff.2 (.inr ⟨c.field, c.comparison, c.value, brackets k, rfl,
      .inr ⟨op, t, older, rfl, rfl⟩⟩)
  have hcomplete : (Rule.joined op t (.condition c.condition)).complete = true := by
    simp [Rule.complete, ht]
  have hconclude := conclude_of_settle hsettle (fun _ => eq_of_mem_brackets) hcomplete rfl
  cases older with
  | nil => exact hconclude
  | cons s older => exact hconclude

/-! ## All members -/

/-- **The reading of the links** comes to the trees that `Chain.trees` lists, whatever waits below
the tree before them. -/
theorem run_links {links : List Link} (h : ∀ link ∈ links, link.member.Worded) {a : Assembly}
    {t : Rule} {older : List Rule} {k : Nat} (hk : k ≤ 1) (ht : t.complete = true)
    (ha : a.Takes t ⟨brackets k, older, 0⟩)
    (hend : links = [] → a.finish = Chain.outcome (t :: older)) :
    a.run (links.flatMap Link.spelling) >>= finish = Chain.outcome (Chain.trees t older links) := by
  induction links generalizing a t older with
  | nil => exact hend rfl
  | cons link links ih =>
    obtain ⟨hlink, hlinks⟩ := List.forall_mem_cons.1 h
    obtain ⟨op, m⟩ := link
    rw [List.flatMap_cons, run_link ha]
    have hfew := length_brackets_lt hk
    cases m with
    -- A bare comparison at the end is given to its connective.  With a link behind it, it becomes a
    -- tree of its own, and the tree before it stays pending for good.
    | bare c =>
      have hc : c.Readable := hlink.readable c List.mem_cons_self
      rw [show (Member.bare c).spelling = c.spelling from rfl, run_clause hc]
      cases links with
      | nil => exact finish_bare ht c op k older
      | cons next links =>
        rw [ih hlinks rfl (.fresh c.field c.comparison c.value _ _ 0) (by simp)]
        rfl
    | bracketed c =>
      have hc : c.Readable := hlink.readable c List.mem_cons_self
      have hcomplete : (Rule.joined op t (.condition c.condition)).complete = true := by
        simp [Rule.complete, ht]
      rw [run_bracketed hc, ih hlinks hcomplete (.stored hfew _ older 0)
        (fun _ => finish_stored hcomplete hk older)]
      rfl
    -- A group is a tree when the next connective comes, and that one goes with the group.
    | group gop left right =>
      have hcomplete := Member.complete_rule (.group gop left right)
      rw [run_group hlink hk, ih hlinks hcomplete (.stored hfew _ _ 0)
        (fun _ => finish_stored hcomplete hk _)]
      rfl

end Assembly

/-! ## Which chains build

From here on it is all about the number of trees. -/

namespace Chain

/-- A member with links behind it has to be a comparison in brackets, and the chain from there on
has to build. -/
theorem builds_cons_iff {first : Member} {link next : Link} {links : List Link} :
    Builds ⟨first, link :: next :: links⟩ ↔
      (∃ c, link.member = .bracketed c) ∧ Builds ⟨link.member, next :: links⟩ := by
  constructor
  · rintro ⟨hbetween, hlast⟩
    obtain ⟨hlink, hbetween⟩ := List.forall_mem_cons.1 hbetween
    exact ⟨hlink, hbetween, hlast⟩
  · rintro ⟨hlink, hbetween, hlast⟩
    exact ⟨List.forall_mem_cons.2 ⟨hlink, hbetween⟩, hlast⟩

/-- One tree after the links of a chain that builds. -/
theorem trees_of_builds {first : Member} {links : List Link} (h : Builds ⟨first, links⟩) (t : Rule)
    (older : List Rule) :
    trees t older links
      = links.foldl (fun t link => .joined link.op t link.member.rule) t :: older := by
  induction links generalizing first t with
  | nil => rfl
  | cons link links ih =>
    obtain ⟨op, m⟩ := link
    cases links with
    | nil =>
      obtain ⟨c, rfl | rfl⟩ := h.last _ rfl
      · rfl
      · rfl
    | cons next links =>
      obtain ⟨⟨c, rfl⟩, hrest⟩ := builds_cons_iff.1 h
      exact ih hrest _

/-- A tree that waits below goes on waiting. -/
theorem length_trees (t : Rule) (older : List Rule) (links : List Link) :
    older.length + 1 ≤ (trees t older links).length := by
  induction links generalizing t older with
  | nil => exact Nat.le_refl _
  | cons link links ih =>
    obtain ⟨op, m⟩ := link
    have hpassed : ∀ u, older.length + 1 ≤ (trees u (.pending op t :: older) links).length :=
      fun u => Nat.le_of_succ_le (ih u (.pending op t :: older))
    cases m with
    | bare c =>
      cases links with
      | nil => exact Nat.le_refl _
      | cons next links => exact hpassed _
    | bracketed c => exact ih _ older
    | group gop left right => exact hpassed _

/-- In a chain that does not build a tree is passed over. -/
theorem length_trees_of_not_builds {first : Member} {links : List Link}
    (h : ¬ Builds ⟨first, links⟩) (t : Rule) (older : List Rule) :
    older.length + 2 ≤ (trees t older links).length := by
  induction links generalizing first t with
  | nil => exact absurd ⟨by simp, by simp⟩ h
  | cons link links ih =>
    obtain ⟨op, m⟩ := link
    have hpassed : ∀ u, older.length + 2 ≤ (trees u (.pending op t :: older) links).length :=
      fun u => length_trees u (.pending op t :: older) links
    -- Only a comparison in brackets completes the tree before it, so only there is something left
    -- to the induction.
    cases m with
    | bare c =>
      cases links with
      | nil => exact absurd ⟨by simp, by simp⟩ h
      | cons next links => exact hpassed _
    | bracketed c =>
      cases links with
      | nil => exact absurd ⟨by simp, by simp⟩ h
      | cons next links =>
        have hrest : ¬ Builds ⟨.bracketed c, next :: links⟩ := fun hrest =>
          h (builds_cons_iff.2 ⟨⟨c, rfl⟩, hrest⟩)
        exact ih hrest _
    | group gop left right => exact hpassed _

/-- No group stands behind a connective in a chain that builds. -/
theorem Builds.not_group {chain : Chain} (h : chain.Builds) {link : Link}
    (hlink : link ∈ chain.links) (op : Connective) (left right : Phrase) :
    link.member ≠ .group op left right := by
  intro hgroup
  obtain ⟨last, hlast⟩ : ∃ last, chain.links.getLast? = some last :=
    ⟨_, List.getLast?_eq_some_getLast (List.ne_nil_of_mem hlink)⟩
  obtain ⟨before, hbefore⟩ := List.getLast?_eq_some_iff.1 hlast
  have hbetween := h.between
  rw [hbefore, List.dropLast_concat] at hbetween
  rw [hbefore, List.mem_append, List.mem_singleton] at hlink
  rcases hlink with hlink | rfl
  · obtain ⟨c, hc⟩ := hbetween _ hlink
    cases hc.symm.trans hgroup
  · obtain ⟨c, hc | hc⟩ := h.last _ hlast
    · cases hc.symm.trans hgroup
    · cases hc.symm.trans hgroup

/-- Of comparisons without brackets there are two at most. -/
theorem Builds.length_members {chain : Chain} (h : chain.Builds)
    (hbare : ∀ m ∈ chain.members, ∃ c, m = .bare c) : chain.members.length ≤ 2 := by
  obtain ⟨first, links⟩ := chain
  match links with
  | [] | [_] => simp [members]
  | link :: next :: links =>
    obtain ⟨⟨c, hc⟩, -⟩ := builds_cons_iff.1 h
    obtain ⟨d, hd⟩ := hbare link.member (by simp [members])
    cases hc.symm.trans hd

end Chain

namespace Rule

open Assembly

/-- The spelling of a chain reads as what the account comes to. -/
theorem ofLexemes_chain {chain : Chain} (h : chain.Worded) :
    ofLexemes chain.spelling = Chain.outcome (Chain.trees chain.first.rule [] chain.links) := by
  obtain ⟨hfirst, hlinks⟩ := Chain.worded_iff.1 h
  obtain ⟨a, k, hrun, hk, htakes, hfinish⟩ := run_first hfirst
  show run {} chain.spelling >>= finish = _
  rw [Chain.spelling, run_append, hrun, ok_bind]
  exact run_links hlinks hk chain.first.complete_rule htakes fun _ => hfinish

/-- **Which chains build.**  A chain with one blank or more round every connective has its own
lexemes, and any text with these lexemes reads as the chain joined from the left, AND no tighter
than OR, if the chain builds.  If it does not, the text is refused because more than one tree is
left.  So bare comparisons alone make a chain of two at most, and no group can stand to the right of
a connective. -/
theorem read_chain {chain : Chain} (h : chain.Worded) :
    (∀ text, chain.WrittenAs text → lexemes text = chain.spelling) ∧
    ∀ text, lexemes text = chain.spelling →
      (chain.Builds → read text = .ok chain.rule) ∧
      (¬ chain.Builds → ∃ n, 2 ≤ n ∧ read text = .error (.malformed (.rootCount n))) ∧
      ((∀ m ∈ chain.members, ∃ c, m = .bare c) → 3 ≤ chain.members.length →
        ∃ cause, read text = .error (.malformed cause)) ∧
      ((∃ link ∈ chain.links, ∃ op left right, link.member = .group op left right) →
        ∃ cause, read text = .error (.malformed cause)) := by
  refine ⟨fun text => Chain.lexemes_of_writtenAs h, fun text htext => ?_⟩
  have hread : read text = Chain.outcome (Chain.trees chain.first.rule [] chain.links) := by
    rw [read, htext, ofLexemes_chain h]
  -- All three kinds of refusal are this one: bare comparisons and groups only say why it does not
  -- build.
  have hrefused : ¬ chain.Builds →
      ∃ n, 2 ≤ n ∧ read text = .error (.malformed (.rootCount n)) := by
    intro hbuilds
    have htwo := Chain.length_trees_of_not_builds hbuilds chain.first.rule []
    exact ⟨_, htwo, hread.trans (Chain.outcome_of_two htwo)⟩
  refine ⟨fun hbuilds => ?_, hrefused, fun hbare hthree => ?_, ?_⟩
  · rw [hread, Chain.trees_of_builds hbuilds]
    rfl
  · have hbuilds : ¬ chain.Builds := fun hb => absurd (hb.length_members hbare) (by omega)
    obtain ⟨n, -, hn⟩ := hrefused hbuilds
    exact ⟨_, hn⟩
  · rintro ⟨link, hlink, op, left, right, hgroup⟩
    obtain ⟨n, -, hn⟩ := hrefused fun hb => hb.not_group hlink op left right hgroup
    exact ⟨_, hn⟩

/-- A chain that builds, with double quotes and a blank to spare, and one that does not. -/
theorem read_chain_of_comparisons :
    read "(a = 1 OR b = 2)  AND (b != \"x\") OR c >= 007" = .ok (joined .or
      (joined .and
        (joined .or (condition ⟨"a", .equal, .integer 1⟩) (condition ⟨"b", .equal, .integer 2⟩))
        (condition ⟨"b", .unequal, .text "x"⟩))
      (condition ⟨"c", .atLeast, .integer 7⟩)) ∧
    ∃ cause, read "a = 1 AND b = 2 OR c >= 007" = .error (.malformed cause) := by
  let a : Clause := ⟨"a", .equal, "1"⟩
  let b : Clause := ⟨"b", .equal, "2"⟩
  let x : Clause := ⟨"b", .unequal, "'x'"⟩
  let c : Clause := ⟨"c", .atLeast, "007"⟩
  have ha : a.Worded := ⟨by decide +kernel, .inl (by decide +kernel)⟩
  have hb : b.Worded := ⟨by decide +kernel, .inl (by decide +kernel)⟩
  have hx : x.Worded := ⟨by decide +kernel, .inr ⟨"x", by decide, by decide, by decide⟩⟩
  have hc : c.Worded := ⟨by decide +kernel, .inl (by decide +kernel)⟩
  constructor
  · let chain : Chain := ⟨.group .or (.clause a) (.clause b),
      [⟨.and, .bracketed x⟩, ⟨.or, .bare c⟩]⟩
    have hgroup : (Member.group .or (.clause a) (.clause b)).Worded :=
      ⟨by decide, List.forall_mem_cons.2 ⟨ha, List.forall_mem_singleton.2 hb⟩⟩
    have hworded : chain.Worded := List.forall_mem_cons.2 ⟨hgroup, List.forall_mem_cons.2
      ⟨Member.worded_of_clause rfl hx,
        List.forall_mem_singleton.2 (Member.worded_of_clause rfl hc)⟩⟩
    have hwritten : chain.WrittenAs "(a = 1 OR b = 2)  AND (b != \"x\") OR c >= 007" :=
      ⟨_, .cons _ 1 0 (.cons _ 0 0 .nil), by decide +kernel⟩
    have hbuilds : chain.Builds := ⟨by simp [chain], by simp [chain]⟩
    have hrule : chain.rule = joined .or
        (joined .and
          (joined .or (condition ⟨"a", .equal, .integer 1⟩) (condition ⟨"b", .equal, .integer 2⟩))
          (condition ⟨"b", .unequal, .text "x"⟩))
        (condition ⟨"c", .atLeast, .integer 7⟩) := by decide +kernel
    obtain ⟨hlexemes, hread⟩ := read_chain hworded
    rw [← hrule]
    exact (hread _ (hlexemes _ hwritten)).1 hbuilds
  · let chain : Chain := ⟨.bare a, [⟨.and, .bare b⟩, ⟨.or, .bare c⟩]⟩
    have hworded : chain.Worded := List.forall_mem_cons.2 ⟨Member.worded_of_clause rfl ha,
      List.forall_mem_cons.2 ⟨Member.worded_of_clause rfl hb,
        List.forall_mem_singleton.2 (Member.worded_of_clause rfl hc)⟩⟩
    have hwritten : chain.WrittenAs "a = 1 AND b = 2 OR c >= 007" :=
      ⟨_, .cons _ 0 0 (.cons _ 0 0 .nil), by decide +kernel⟩
    have hbare : ∀ m ∈ chain.members, ∃ c, m = .bare c := by
      simp [chain, Chain.members]
    obtain ⟨hlexemes, hread⟩ := read_chain hworded
    exact (hread _ (hlexemes _ hwritten)).2.2.1 hbare (Nat.le_refl 3)

end Rule

end Screening
