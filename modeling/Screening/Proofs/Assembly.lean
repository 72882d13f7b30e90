import Screening.Rule.Assembly

/-!
# The steps of a reading

`Assembly.step` and `Assembly.finish` are functions that may fail.  This file lists their successes
as relations, one rule for each thing that can happen, and proves the lists exact:

* `Assembly.Takes` — where the tree finished last is found (`take_eq_ok_iff`);
* `Assembly.Steps` — what a lexeme does to the two stacks (`step_eq_ok_iff`);
* `Assembly.Finishes` — how a reading ends in a rule (`finish_eq_ok_iff`).

A fact about every reading is then an invariant: it holds of the empty assembly, and each rule of
`Steps` keeps it (`run_invariant`).  Nothing outside this file has to unfold the steps themselves.

Every rule says all that the step looks at, guards included.  A rule that left one out would still
be true, but an invariant may need the guard: that there are too few parts for a comparison in
`Takes.stored` is what keeps a tree from being taken while a comparison is waiting.

The failures are not listed, since one thing is to be said of all of them: what goes wrong while a
text is read is wrong with the text (`Rule.inText_of_read`).  The one error that is not about a
text, an empty list of rules, cannot come from here.
-/

set_option autoImplicit false

namespace Screening

/-! ## Results one after the other

A step is written as a few computations, each of which may fail, one behind the other.  These are
the lemmas that take such a chain apart, once for the chain that succeeds and once for the one that
fails. -/

section Sequence

variable {ε α β : Type}

theorem ok_bind (a : α) (f : α → Except ε β) : Except.ok a >>= f = f a := rfl

theorem error_bind (e : ε) (f : α → Except ε β) : Except.error e >>= f = .error e := rfl

/-- Two steps succeed if both do.  With this a function that is written as one computation after the
other is taken apart without being unfolded. -/
theorem bind_eq_ok_iff {x : Except ε α} {f : α → Except ε β} {b : β} :
    x >>= f = .ok b ↔ ∃ a, x = .ok a ∧ f a = .ok b := by
  cases x <;> simp [bind, Except.bind]

/-- Two steps fail if the first one does, or the second one on what the first has given. -/
theorem bind_eq_error_iff {x : Except ε α} {f : α → Except ε β} {e : ε} :
    x >>= f = .error e ↔ x = .error e ∨ ∃ a, x = .ok a ∧ f a = .error e := by
  cases x <;> simp [bind, Except.bind]

/-- A fold fails with the error of the first step that fails. -/
theorem foldlM_eq_error_iff {f : β → α → Except ε β} {xs : List α} {b : β} {e : ε} :
    xs.foldlM f b = .error e ↔
      ∃ before x after c, xs = before ++ x :: after ∧ before.foldlM f b = .ok c ∧
        f c x = .error e := by
  induction xs generalizing b with
  | nil => simp [pure, Except.pure]
  | cons x xs ih =>
    rw [List.foldlM_cons, bind_eq_error_iff]
    constructor
    · rintro (h | ⟨c, hc, h⟩)
      · exact ⟨[], x, xs, b, rfl, rfl, h⟩
      · obtain ⟨before, y, after, d, rfl, hd, hy⟩ := ih.1 h
        refine ⟨x :: before, y, after, d, rfl, ?_, hy⟩
        rw [List.foldlM_cons, bind_eq_ok_iff]
        exact ⟨c, hc, hd⟩
    · rintro ⟨before, y, after, d, hxs, hd, hy⟩
      cases before with
      | nil =>
        cases hxs
        cases hd
        exact .inl hy
      | cons z before =>
        cases hxs
        rw [List.foldlM_cons, bind_eq_ok_iff] at hd
        obtain ⟨c, hc, hd⟩ := hd
        exact .inr ⟨c, hc, ih.2 ⟨before, y, after, d, rfl, hd, hy⟩⟩

end Sequence

namespace Assembly

/-! ## Conditions among the parts -/

/-- A condition is made of the three newest parts, and only the middle one has to be anything in
particular, namely the symbol of a comparison. -/
theorem condense_eq_some_iff {parts below : List String} {t : Rule} :
    condense parts = .ok (some (t, below)) ↔
      ∃ field c value, parts = value :: Comparison.symbol c :: field :: below ∧
        t = .condition ⟨field, c, .coerce value⟩ := by
  constructor
  · intro h
    rw [condense.eq_def] at h
    split at h
    · rename_i value symbol field rest
      split at h
      · rename_i c hc
        cases h
        exact ⟨field, c, value, by rw [Comparison.symbol_of_ofSymbol? hc], rfl⟩
      · cases h
    · cases h
  · rintro ⟨field, c, value, rfl, rfl⟩
    simp [condense]

/-- There is no condition to be made, and nothing wrong either, exactly if there are fewer than
three parts. -/
theorem condense_eq_none_iff {parts : List String} :
    condense parts = .ok none ↔ parts.length < 3 := by
  rw [condense.eq_def]
  split
  · split <;> simp
  · rename_i h
    match parts with
    | [] | [_] | [_, _] => simp
    | value :: symbol :: field :: below => exact absurd rfl (h value symbol field below)

/-- Three parts make no condition exactly if the middle one is no symbol, and that is what the error
says. -/
theorem condense_eq_error_iff {parts : List String} {e : RuleError} :
    condense parts = .error e ↔
      ∃ field symbol value below, parts = value :: symbol :: field :: below ∧
        Comparison.ofSymbol? symbol = none ∧ e = .unsupportedComparison symbol := by
  constructor
  · intro h
    rw [condense.eq_def] at h
    split at h
    · rename_i value symbol field below
      split at h
      · cases h
      · rename_i hs
        cases h
        exact ⟨field, symbol, value, below, rfl, hs, rfl⟩
    · cases h
  · rintro ⟨field, symbol, value, below, rfl, hs, rfl⟩
    simp [condense, hs]

/-! ## The tree finished last

A connective needs a left side and a closing bracket a right side, and both look for it in the same
way: among the parts, if there are enough of them for a comparison, and otherwise on top of the
trees. -/

/-- `a.Takes t b`: the tree finished last in `a` is `t`, and `b` is what is left without it. -/
inductive Takes : Assembly → Rule → Assembly → Prop
  /-- A comparison among the parts is newer than any tree. -/
  | fresh (field : String) (c : Comparison) (value : String) (below : List String)
      (trees : List Rule) (depth : Nat) :
      Takes ⟨value :: c.symbol :: field :: below, trees, depth⟩
        (.condition ⟨field, c, .coerce value⟩) ⟨below, trees, depth⟩
  /-- With too few parts for a comparison it is the newest tree. -/
  | stored {parts : List String} (few : parts.length < 3) (t : Rule) (older : List Rule)
      (depth : Nat) :
      Takes ⟨parts, t :: older, depth⟩ t ⟨parts, older, depth⟩

/-- The rules of `Takes` are exact.  What error there would have been, had there been no tree, makes
no difference to the tree. -/
theorem take_eq_ok_iff {missing : Malformation} {a b : Assembly} {t : Rule} :
    a.take missing = .ok (t, b) ↔ a.Takes t b := by
  obtain ⟨parts, trees, depth⟩ := a
  rw [take, bind_eq_ok_iff]
  constructor
  · rintro ⟨found, hc, h⟩
    split at h
    · rename_i s below
      obtain ⟨field, c, value, hp, rfl⟩ := condense_eq_some_iff.1 hc
      cases h
      cases hp
      exact .fresh field c value below trees depth
    · split at h
      · rename_i s older htrees
        cases h
        cases htrees
        exact .stored (condense_eq_none_iff.1 hc) t older depth
      · cases h
  · rintro (⟨field, c, value, below⟩ | ⟨few⟩)
    · exact ⟨_, condense_eq_some_iff.2 ⟨field, c, value, rfl, rfl⟩, rfl⟩
    · exact ⟨none, condense_eq_none_iff.2 few, rfl⟩

/-- A right side goes to the newest tree, which has to be waiting for one. -/
theorem attach_eq_ok_iff {right : Rule} {a b : Assembly} :
    a.attach right = .ok b ↔
      ∃ op left older, a.trees = .pending op left :: older ∧
        b = { a with trees := .joined op left right :: older } := by
  rw [attach]
  split
  · rename_i op left older h
    constructor
    · intro hb
      cases hb
      exact ⟨op, left, older, h, rfl⟩
    · rintro ⟨op', left', older', h', rfl⟩
      cases h.symm.trans h'
      rfl
  · rename_i h
    simp only [reduceCtorEq, false_iff]
    rintro ⟨op, left, older, ha, -⟩
    exact h op left older ha

/-- An opening bracket is dropped if it is the newest part. -/
theorem dropOpening_eq_ok_iff {a b : Assembly} :
    a.dropOpening = .ok b ↔ ∃ below, a.parts = "(" :: below ∧ b = { a with parts := below } := by
  obtain ⟨parts, trees, depth⟩ := a
  rw [dropOpening]
  cases parts with
  | nil => simp
  | cons part below =>
    by_cases hp : part = "("
    · simp [hp, eq_comm]
    · simp [hp]

/-! ## One lexeme -/

/-- `a.Steps k b`: reading a lexeme of kind `k` leads from `a` to `b`. -/
inductive Steps : Assembly → Token → Assembly → Prop
  /-- An opening bracket goes among the parts, and is counted. -/
  | opening (parts : List String) (trees : List Rule) (depth : Nat) :
      Steps ⟨parts, trees, depth⟩ .opening ⟨"(" :: parts, trees, depth + 1⟩
  /-- What is no bracket and no connective is kept for later. -/
  | part (lexeme : String) (parts : List String) (trees : List Rule) (depth : Nat) :
      Steps ⟨parts, trees, depth⟩ (.part lexeme) ⟨lexeme :: parts, trees, depth⟩
  /-- A connective takes the tree finished last as its left side and waits for the other one. -/
  | connective {a b : Assembly} {left : Rule} (op : Connective) (h : a.Takes left b) :
      Steps a (.connective op) { b with trees := .pending op left :: b.trees }
  /-- The first tree of all comes from a bracket round a comparison, whose opening stays behind. -/
  | closeFirst {parts : List String} {depth : Nat} {t : Rule} {b : Assembly}
      (h : Takes ⟨parts, [], depth⟩ t b) :
      Steps ⟨parts, [], depth + 1⟩ .closing { b with trees := t :: b.trees }
  /-- Any other closing bracket completes the newest pending connective. -/
  | closePending {a : Assembly} {right left : Rule} {below : List String} {op : Connective}
      {older : List Rule} {depth : Nat} (some : a.trees ≠ [])
      (h : a.Takes right ⟨"(" :: below, .pending op left :: older, depth⟩) :
      Steps { a with depth := a.depth + 1 } .closing ⟨below, .joined op left right :: older, depth⟩

/-- A closing bracket makes the first tree of all or completes the newest pending connective, and
the two are told apart by whether there is a tree. -/
theorem close_eq_ok_iff {parts : List String} {trees : List Rule} {depth : Nat} {b : Assembly} :
    close ⟨parts, trees, depth⟩ = .ok b ↔ Steps ⟨parts, trees, depth + 1⟩ .closing b := by
  rw [close]
  constructor
  · intro h
    -- The test is on the trees as they are before the closing bracket takes its right side.
    split at h
    · rename_i hempty
      obtain rfl : trees = [] := by simpa using hempty
      obtain ⟨⟨t, c⟩, ht, h⟩ := bind_eq_ok_iff.1 h
      cases h
      exact .closeFirst (take_eq_ok_iff.1 ht)
    · rename_i hsome
      obtain ⟨⟨right, c⟩, ht, h⟩ := bind_eq_ok_iff.1 h
      obtain ⟨d, hd, h⟩ := bind_eq_ok_iff.1 h
      obtain ⟨op, left, older, hc, rfl⟩ := attach_eq_ok_iff.1 hd
      obtain ⟨below, hparts, rfl⟩ := dropOpening_eq_ok_iff.1 h
      obtain ⟨cparts, ctrees, cdepth⟩ := c
      cases hc
      cases hparts
      exact .closePending (a := ⟨parts, trees, depth⟩) (by simpa using hsome) (take_eq_ok_iff.1 ht)
  · intro h
    cases h with
    | closeFirst h =>
      rw [if_pos (show ([] : List Rule).isEmpty = true from rfl), bind_eq_ok_iff]
      exact ⟨_, take_eq_ok_iff.2 h, rfl⟩
    -- `a` still has its trees here, and `hsome` is about them, not about what is left of them.
    | @closePending a right left below op older depth' hsome h =>
      rw [if_neg (by simpa using hsome), bind_eq_ok_iff]
      refine ⟨_, take_eq_ok_iff.2 h, bind_eq_ok_iff.2
        ⟨⟨"(" :: below, .joined op left right :: older, depth'⟩, ?_, ?_⟩⟩
      · exact attach_eq_ok_iff.2 ⟨op, left, older, rfl, rfl⟩
      · exact dropOpening_eq_ok_iff.2 ⟨below, rfl, rfl⟩

/-- **The rules of `Steps` are exact.**  Whatever is proved of all steps is proved by going through
them. -/
theorem step_eq_ok_iff {a b : Assembly} {k : Token} : a.step k = .ok b ↔ a.Steps k b := by
  obtain ⟨parts, trees, depth⟩ := a
  cases k with
  | opening =>
    rw [step]
    constructor
    · intro h
      cases h
      exact .opening parts trees depth
    · rintro ⟨⟩
      rfl
  | closing =>
    rw [step]
    cases depth with
    -- A closing bracket with none open is refused, and no rule of `Steps` begins at depth zero.
    | zero =>
      constructor
      · intro h
        cases h
      · intro h
        cases h
    | succ depth => exact close_eq_ok_iff
  | connective op =>
    rw [step, bind_eq_ok_iff]
    constructor
    · rintro ⟨⟨left, c⟩, ht, h⟩
      cases h
      exact .connective op (take_eq_ok_iff.1 ht)
    · rintro ⟨⟩
      rename_i left c h
      exact ⟨_, take_eq_ok_iff.2 h, rfl⟩
  | part lexeme =>
    rw [step]
    constructor
    · intro h
      cases h
      exact .part lexeme parts trees depth
    · rintro ⟨⟩
      rfl

/-! ## The end of a reading -/

/-- `a.Finishes t`: a text whose reading has come to `a` is the rule `t`. -/
inductive Finishes : Assembly → Rule → Prop
  /-- Parts that are left over beside a single complete tree do not matter. -/
  | sole {t : Rule} (h : t.complete = true) (parts : List String) : Finishes ⟨parts, [t], 0⟩ t
  /-- The text is a single comparison, perhaps behind opening brackets that have been closed. -/
  | only (field : String) (c : Comparison) (value : String) {below : List String}
      (h : ∀ part ∈ below, part = "(") :
      Finishes ⟨value :: c.symbol :: field :: below, [], 0⟩
        (.condition ⟨field, c, .coerce value⟩)
  /-- The text ends with the right side of its last connective. -/
  | last (field : String) (c : Comparison) (value : String) {below : List String}
      (op : Connective) {left : Rule} (h : ∀ part ∈ below, part = "(")
      (hl : left.complete = true) :
      Finishes ⟨value :: c.symbol :: field :: below, [.pending op left], 0⟩
        (.joined op left (.condition ⟨field, c, .coerce value⟩))

/-- A text may end early, with a single tree to which nothing is missing. -/
theorem sole?_eq_some_iff {a : Assembly} {t : Rule} :
    a.sole? = some t ↔ a.trees = [t] ∧ t.complete = true := by
  rw [sole?]
  split
  · rename_i s h
    simp only [h, Option.ite_none_right_eq_some, Option.some.injEq, List.cons.injEq, and_true]
    constructor
    · rintro ⟨hs, rfl⟩
      exact ⟨rfl, hs⟩
    · rintro ⟨rfl, hs⟩
      exact ⟨hs, rfl⟩
  · rename_i h
    simp only [reduceCtorEq, false_iff]
    exact fun ht => h t ht.1

/-- At the end a comparison that is still waiting among the parts becomes a condition, which is the
whole rule or the right side of the newest connective.  If there is none, all stays as it is. -/
theorem settle_eq_ok_iff {a b : Assembly} :
    a.settle = .ok b ↔
      a.parts.length < 3 ∧ b = a ∨
      ∃ field c value below, a.parts = value :: Comparison.symbol c :: field :: below ∧
        (a.trees = [] ∧ b = ⟨below, [.condition ⟨field, c, .coerce value⟩], a.depth⟩ ∨
          ∃ op left older, a.trees = .pending op left :: older ∧
            b = ⟨below, .joined op left (.condition ⟨field, c, .coerce value⟩) :: older,
              a.depth⟩) := by
  rw [settle, bind_eq_ok_iff]
  constructor
  · rintro ⟨found, hc, h⟩
    split at h
    · cases h
      exact .inl ⟨condense_eq_none_iff.1 hc, rfl⟩
    · rename_i s below
      obtain ⟨field, c, value, hp, rfl⟩ := condense_eq_some_iff.1 hc
      refine .inr ⟨field, c, value, below, hp, ?_⟩
      split at h
      · rename_i hempty
        cases h
        exact .inl ⟨by simpa using hempty, rfl⟩
      · obtain ⟨op, left, older, ht, rfl⟩ := attach_eq_ok_iff.1 h
        exact .inr ⟨op, left, older, ht, rfl⟩
  · rintro (⟨few, rfl⟩ | ⟨field, c, value, below, hp, h⟩)
    · exact ⟨none, condense_eq_none_iff.2 few, rfl⟩
    · refine ⟨_, condense_eq_some_iff.2 ⟨field, c, value, hp, rfl⟩, ?_⟩
      rcases h with ⟨ht, rfl⟩ | ⟨op, left, older, ht, rfl⟩
      · simp only [ht, List.isEmpty_nil, if_true]
        rfl
      · simp only [ht, List.isEmpty_cons, Bool.false_eq_true, if_false]
        exact attach_eq_ok_iff.2 ⟨op, left, older, rfl, rfl⟩

/-- Once that is done, nothing may be left but opening brackets and a single complete tree. -/
theorem conclude_eq_ok_iff {a : Assembly} {t : Rule} :
    a.conclude = .ok t ↔
      ∃ b, a.settle = .ok b ∧ (∀ part ∈ b.parts, part = "(") ∧ b.trees = [t] ∧
        t.complete = true := by
  rw [conclude, bind_eq_ok_iff]
  refine exists_congr fun b => and_congr_right fun _ => ?_
  split
  -- A lexeme that is left over among the parts decides before the trees are looked at.
  · rename_i lexeme hl
    have hmem : lexeme ∈ b.parts := by simpa using List.mem_of_find?_eq_some hl
    have hne : lexeme ≠ "(" := by simpa using List.find?_some hl
    simp only [throw, throwThe, MonadExceptOf.throw, reduceCtorEq, false_iff]
    exact fun h => hne (h.1 lexeme hmem)
  · rename_i hnone
    have hall : ∀ part ∈ b.parts, part = "(" := by simpa using hnone
    split
    · rename_i s hs
      rw [hs]
      split
      · rename_i hc
        constructor
        · intro h
          cases h
          exact ⟨hall, rfl, hc⟩
        · rintro ⟨-, h, -⟩
          cases h
          rfl
      · rename_i hc
        simp only [throw, throwThe, MonadExceptOf.throw, reduceCtorEq, false_iff]
        rintro ⟨-, h, ht⟩
        cases h
        exact hc ht
    · rename_i hs
      simp only [throw, throwThe, MonadExceptOf.throw, reduceCtorEq, false_iff]
      exact fun h => hs t h.2.1

/-- **The rules of `Finishes` are exact.**  A reading ends with a rule in one of three ways, and in
each of them no bracket is open. -/
theorem finish_eq_ok_iff {a : Assembly} {t : Rule} : a.finish = .ok t ↔ a.Finishes t := by
  obtain ⟨parts, trees, depth⟩ := a
  rw [finish]
  constructor
  · intro h
    split at h
    · cases h
    rename_i hd
    obtain rfl : depth = 0 := by simpa using hd
    split at h
    · rename_i s hs
      obtain ⟨ht, hc⟩ := sole?_eq_some_iff.1 hs
      cases h
      cases ht
      exact .sole hc parts
    rename_i hsole
    obtain ⟨b, hb, hparts, ht, hc⟩ := conclude_eq_ok_iff.1 h
    obtain ⟨-, rfl⟩ | ⟨field, c, value, below, hp, ⟨htr, rfl⟩ | ⟨op, left, older, htr, rfl⟩⟩ :=
      settle_eq_ok_iff.1 hb
    -- Nothing has been settled, so the single complete tree was there before and `sole?` has it.
    · exact absurd (sole?_eq_some_iff.2 ⟨ht, hc⟩) (by simp [hsole])
    · cases hp
      cases htr
      cases ht
      exact .only field c value hparts
    · cases hp
      cases htr
      cases ht
      exact .last field c value op hparts (by simpa [Rule.complete] using hc)
  · intro h
    cases h with
    | sole h =>
      rw [if_neg (by simp), sole?_eq_some_iff.2 ⟨rfl, h⟩]
    | @only field c value below h =>
      rw [if_neg (by simp)]
      have hs : settle ⟨value :: c.symbol :: field :: below, [], 0⟩ =
          .ok ⟨below, [.condition ⟨field, c, .coerce value⟩], 0⟩ :=
        settle_eq_ok_iff.2 (.inr ⟨field, c, value, below, rfl, .inl ⟨rfl, rfl⟩⟩)
      exact conclude_eq_ok_iff.2 ⟨_, hs, h, rfl, rfl⟩
    | @last field c value below op left h hl =>
      rw [if_neg (by simp)]
      have hs : settle ⟨value :: c.symbol :: field :: below, [.pending op left], 0⟩ =
          .ok ⟨below, [.joined op left (.condition ⟨field, c, .coerce value⟩)], 0⟩ :=
        settle_eq_ok_iff.2
          (.inr ⟨field, c, value, below, rfl, .inr ⟨op, left, [], rfl, rfl⟩⟩)
      exact conclude_eq_ok_iff.2 ⟨_, hs, h, rfl, by simp [Rule.complete, hl]⟩

/-! ## A whole text -/

/-- Reads lexemes one after the other. -/
def run (a : Assembly) (ls : List String) : Except RuleError Assembly :=
  ls.foldlM (fun (a : Assembly) l => a.step (.ofLexeme l)) a

/-- Lexemes may be read in two goes. -/
theorem run_append (a : Assembly) (ls ms : List String) :
    a.run (ls ++ ms) = a.run ls >>= fun b => b.run ms := List.foldlM_append

theorem run_cons (a : Assembly) (l : String) (ls : List String) :
    a.run (l :: ls) = a.step (.ofLexeme l) >>= fun b => b.run ls := List.foldlM_cons

/-- A reading that succeeds has succeeded with every lexeme. -/
theorem run_cons_eq_ok_iff {a c : Assembly} {l : String} {ls : List String} :
    a.run (l :: ls) = .ok c ↔ ∃ b, a.Steps (.ofLexeme l) b ∧ b.run ls = .ok c := by
  simp only [run_cons, bind_eq_ok_iff, step_eq_ok_iff]

section Invariant

variable {P : List String → Assembly → Prop}
  (step : ∀ {done l a b}, P done a → a.Steps (.ofLexeme l) b → P (done ++ [l]) b)
include step

/-- The form for induction: the lexemes that are already done are carried along, so that an
invariant may speak about all lexemes so far. -/
theorem run_invariant_from {done ls : List String} {a b : Assembly} (ha : P done a)
    (h : a.run ls = .ok b) : P (done ++ ls) b := by
  induction ls generalizing done a with
  | nil =>
    cases h
    simpa using ha
  | cons l ls ih =>
    obtain ⟨c, hc, h⟩ := run_cons_eq_ok_iff.1 h
    simpa using ih (step ha hc) h

/-- **Invariants.**  What holds at the start and is kept by every lexeme holds wherever a reading
comes to; `P` may speak of the lexemes read so far. -/
theorem run_invariant (start : P [] {}) {ls : List String} {a : Assembly}
    (h : run {} ls = .ok a) : P ls a := by
  simpa using run_invariant_from step start h

end Invariant

/-- Lexemes read as a rule if they lead somewhere where a reading can end with it. -/
theorem ofLexemes_eq_ok_iff {ls : List String} {t : Rule} :
    Rule.ofLexemes ls = .ok t ↔ ∃ a, run {} ls = .ok a ∧ a.Finishes t := by
  simp only [Rule.ofLexemes, bind_eq_ok_iff, finish_eq_ok_iff]
  rfl

/-! ## Errors

Each lemma follows the computations of one function, from the inside out. -/

theorem inText_of_condense {parts : List String} {e : RuleError}
    (h : condense parts = .error e) : e.inText = true := by
  obtain ⟨-, symbol, -, -, -, -, rfl⟩ := condense_eq_error_iff.1 h
  rfl

theorem inText_of_take {missing : Malformation} {a : Assembly} {e : RuleError}
    (h : a.take missing = .error e) : e.inText = true := by
  rcases bind_eq_error_iff.1 h with h | ⟨found, -, h⟩
  · exact inText_of_condense h
  · split at h
    · cases h
    · split at h <;> cases h
      rfl

theorem inText_of_attach {right : Rule} {a : Assembly} {e : RuleError}
    (h : a.attach right = .error e) : e.inText = true := by
  rw [attach] at h
  split at h <;> cases h
  rfl

theorem inText_of_dropOpening {a : Assembly} {e : RuleError} (h : a.dropOpening = .error e) :
    e.inText = true := by
  rw [dropOpening] at h
  split at h
  · split at h <;> cases h
    rfl
  · cases h
    rfl

theorem inText_of_close {a : Assembly} {e : RuleError} (h : a.close = .error e) :
    e.inText = true := by
  rw [close] at h
  split at h
  · rcases bind_eq_error_iff.1 h with h | ⟨found, -, h⟩
    · exact inText_of_take h
    · cases h
  · rcases bind_eq_error_iff.1 h with h | ⟨found, -, h⟩
    · exact inText_of_take h
    · rcases bind_eq_error_iff.1 h with h | ⟨b, -, h⟩
      · exact inText_of_attach h
      · exact inText_of_dropOpening h

theorem inText_of_step {a : Assembly} {k : Token} {e : RuleError} (h : a.step k = .error e) :
    e.inText = true := by
  cases k with
  | opening => cases h
  | closing =>
    rw [step] at h
    split at h
    · cases h
      rfl
    · exact inText_of_close h
  | connective op =>
    rcases bind_eq_error_iff.1 h with h | ⟨found, -, h⟩
    · exact inText_of_take h
    · cases h
  | part lexeme => cases h

theorem inText_of_finish {a : Assembly} {e : RuleError} (h : a.finish = .error e) :
    e.inText = true := by
  rw [finish] at h
  split at h
  · cases h
    rfl
  split at h
  · cases h
  rcases bind_eq_error_iff.1 h with h | ⟨b, -, h⟩
  · rcases bind_eq_error_iff.1 h with h | ⟨found, -, h⟩
    · exact inText_of_condense h
    · split at h
      · cases h
      · split at h
        · cases h
        · exact inText_of_attach h
  · split at h
    · cases h
      rfl
    · split at h
      · split at h <;> cases h
        rfl
      · cases h
        rfl

end Assembly

/-- **Whatever is wrong with a text is an error in the text**, so reading one never complains that
there are no rules. -/
theorem Rule.inText_of_read {text : String} {e : RuleError} (h : Rule.read text = .error e) :
    e.inText = true := by
  rcases bind_eq_error_iff.1 h with h | ⟨a, -, h⟩
  · obtain ⟨-, l, -, b, -, -, h⟩ := foldlM_eq_error_iff.1 h
    exact Assembly.inText_of_step h
  · exact Assembly.inText_of_finish h

end Screening
