import Screening.Proofs.Origin

/-!
# Which rules are read back from their text

`Rule.toText` writes brackets round every connective.  Reading the text back goes wrong where the
opening brackets of the connectives around a finished one pile up: once three of them lie on the
stack of parts, the next connective or closing bracket takes them for a condition.  So a rule comes
back exactly if no connective stands under three others, and any other rule is refused because `(`
is no comparison (`ofLexemes_spelling`).

The argument is in two halves.  `Rule.spelling` lists the lexemes of the text, and scanning finds
exactly those (`lexemes_toText`).  Reading them is followed from a stack of `k` brackets: the
subtree is read if it is a condition, a connective of conditions, or has `k` brackets to spare
(`Rule.Fits`), and otherwise the reading stops inside it (`run_spelling`, `run_spelling_error`).

A condition never stands in the way: its three lexemes are above the brackets and are taken up
before them.  That is why a connective of two conditions is read behind any number of brackets, and
why `Rule.Fits` has two cases.

## Rules that were read

For a rule that has been read from a text or joined from some the limit is the same, but one thing
is added.  Its fields are words or an opening bracket that was taken for a field, and such a field
leaves the text with one bracket too many (`count_spelling`).  Otherwise what is written are lexemes
that can be read (`Grounded.written`), so height and fields decide (`read_toText_iff_recoverable`).
-/

set_option autoImplicit false

namespace Screening

namespace Rule

/-- The largest number of connectives on a way from the root to a condition. -/
def height : Rule → Nat
  | condition _ => 0
  | joined _ left right => max left.height right.height + 1
  | pending _ left => left.height + 1

/-- The lexemes of the text of a rule; the question mark of a missing right side leaves none. -/
def spelling : Rule → List String
  | condition c => [c.field, c.comparison.symbol, c.value.toText]
  | joined op left right => "(" :: (left.spelling ++ op.keyword :: (right.spelling ++ [")"]))
  | pending op left => "(" :: (left.spelling ++ [op.keyword, ")"])

end Rule

/-! ## Scanning the text of a rule

A rule is written with single blanks between its lexemes and none inside of brackets. -/

namespace Lexeme

theorem legal_symbol (c : Comparison) : Legal c.symbol.toList := by
  refine .fixed ?_
  cases c <;> decide

theorem legal_keyword (op : Connective) : Legal op.keyword.toList := by
  refine .fixed ?_
  cases op <;> decide

/-- A lexeme and the blank behind it. -/
theorem scan_legal_blank {w rest : List Char} (hw : Legal w) :
    scan (w ++ ' ' :: rest) 0 = w :: scan rest 0 := by
  rw [scan_legal_append hw (apart_cons (by decide) rest), scan_idle (by decide)]

/-- A comparison is written as its field, its symbol and its value. -/
theorem scan_comparison {field value : String} (hfield : Legal field.toList)
    (hvalue : Legal value.toList) (c : Comparison) {rest : List Char} (hr : Apart rest) :
    scan ((field ++ " " ++ c.symbol ++ " " ++ value).toList ++ rest) 0
      = [field, c.symbol, value].map String.toList ++ scan rest 0 := by
  have htext : (field ++ " " ++ c.symbol ++ " " ++ value).toList ++ rest
      = field.toList ++ ' ' :: (c.symbol.toList ++ ' ' :: (value.toList ++ rest)) := by
    simp
  rw [htext, scan_legal_blank hfield, scan_legal_blank (legal_symbol c),
    scan_legal_append hvalue hr]
  rfl

/-- Two texts with a connective between them and brackets round the whole. -/
theorem scan_joined {left right : String} {ls rs : List String}
    (hleft : ∀ rest, Apart rest →
      scan (left.toList ++ rest) 0 = ls.map String.toList ++ scan rest 0)
    (hright : ∀ rest, Apart rest →
      scan (right.toList ++ rest) 0 = rs.map String.toList ++ scan rest 0)
    (op : Connective) (rest : List Char) :
    scan (("(" ++ left ++ " " ++ op.keyword ++ " " ++ right ++ ")").toList ++ rest) 0
      = ("(" :: (ls ++ op.keyword :: (rs ++ [")"]))).map String.toList ++ scan rest 0 := by
  have htext : ("(" ++ left ++ " " ++ op.keyword ++ " " ++ right ++ ")").toList ++ rest
      = '(' :: (left.toList ++ ' ' :: (op.keyword.toList ++ ' ' ::
          (right.toList ++ ')' :: rest))) := by
    simp
  rw [htext, scan_bracket (.inl rfl), hleft _ (apart_cons (by decide) _), scan_idle (by decide),
    scan_legal_blank (legal_keyword op), hright _ (apart_cons (by decide) _),
    scan_bracket (.inr rfl)]
  simp

end Lexeme

open Lexeme

namespace Condition

/-- The condition is written in legal lexemes. -/
def Written (c : Condition) : Prop := Legal c.field.toList ∧ c.value.Plain

theorem scan_toText {c : Condition} (h : c.Written) {rest : List Char} (hr : Apart rest) :
    scan (c.toText.toList ++ rest) 0
      = [c.field.toList, c.comparison.symbol.toList, c.value.toText.toList] ++ scan rest 0 :=
  scan_comparison h.1 (Literal.legal_toText h.2) c.comparison hr

end Condition

namespace Rule

theorem scan_toText {t : Rule} (h : ∀ c ∈ t.conditions, c.Written) {rest : List Char}
    (hr : Apart rest) :
    scan (t.toText.toList ++ rest) 0 = t.spelling.map String.toList ++ scan rest 0 := by
  induction t generalizing rest with
  | condition c => exact Condition.scan_toText (h c List.mem_cons_self) hr
  | joined op left right ihl ihr =>
    obtain ⟨hleft, hright⟩ := List.forall_mem_append.1 h
    exact scan_joined (fun _ => ihl hleft) (fun _ => ihr hright) op rest
  | pending op left ih =>
    have htext : (pending op left).toText.toList ++ rest
        = '(' :: (left.toText.toList ++ ' ' ::
            (op.keyword.toList ++ ' ' :: '?' :: ')' :: rest)) := by
      simp [toText]
    rw [htext, scan_bracket (.inl rfl), ih h (apart_cons (by decide) _), scan_idle (by decide),
      scan_legal_blank (legal_keyword op), scan_idle (by decide), scan_bracket (.inr rfl)]
    simp [spelling]

/-- There is no double quote in the text of a rule, so its quotes are left as they are. -/
theorem double_not_mem_toText {t : Rule} (h : ∀ c ∈ t.conditions, c.Written) :
    '"' ∉ t.toText.toList := by
  induction t with
  | condition c =>
    obtain ⟨hfield, hvalue⟩ := h c List.mem_cons_self
    simp [toText, Condition.toText, hfield.double_not_mem, (legal_symbol _).double_not_mem,
      (Literal.legal_toText hvalue).double_not_mem]
  | joined op left right ihl ihr =>
    obtain ⟨hleft, hright⟩ := List.forall_mem_append.1 h
    simp [toText, ihl hleft, ihr hright, (legal_keyword op).double_not_mem]
  | pending op left ih => simp [toText, ih h, (legal_keyword op).double_not_mem]

theorem singleQuoted_of_double_not_mem {text : String} (h : '"' ∉ text.toList) :
    singleQuoted text = text := by
  rw [← String.toList_inj, singleQuoted, String.toList_map]
  have hid : ∀ c ∈ text.toList, (if c = '"' then '\'' else c) = id c := fun c hc =>
    if_neg (ne_of_mem_of_not_mem hc h)
  rw [List.map_congr_left hid, List.map_id]

/-- **The lexemes of the text of a rule are its spelling.** -/
theorem lexemes_toText {t : Rule} (h : ∀ c ∈ t.conditions, c.Written) :
    lexemes t.toText = t.spelling := by
  have hscan := scan_toText h apart_nil
  rw [List.append_nil] at hscan
  refine lexemes_eq_of_scan ?_
  rw [singleQuoted_of_double_not_mem (double_not_mem_toText h), hscan]
  exact List.append_nil _

end Rule

/-! ## Reading the spelling of a rule

The reading of a subtree is followed on top of brackets and trees that it does not touch, as long as
it goes well. -/

namespace Literal

/-- No literal is written like a lexeme that stands for itself. -/
theorem toText_ne_of_coerce {l : Literal} {s : String} (hs : coerce s = text s) :
    l.toText ≠ s := by
  intro h
  have hl : l = text s := by rw [← hs, ← h, coerce_toText]
  have hlen := congrArg String.length h
  have hquote : "'".length = 1 := rfl
  rw [hl, toText, String.length_append, String.length_append] at hlen
  omega

theorem ofLexeme_toText (l : Literal) : Token.ofLexeme l.toText = .part l.toText := by
  have hand : l.toText ≠ "AND" := toText_ne_of_coerce (by decide +kernel)
  have hor : l.toText ≠ "OR" := toText_ne_of_coerce (by decide +kernel)
  refine Token.ofLexeme_part_iff.2 ⟨rfl, ?_, ?_, ?_⟩
  · exact toText_ne_of_coerce (by decide +kernel)
  · exact toText_ne_of_coerce (by decide +kernel)
  · rw [Connective.ofKeyword?, if_neg hand, if_neg hor]

end Literal

/-- A word is neither a bracket nor a connective. -/
theorem Token.ofLexeme_of_isWord {l : String} (h : IsWord l.toList) : ofLexeme l = .part l := by
  have hne : ∀ {s : String}, ¬ IsWord s.toList → l ≠ s := by
    rintro s hs rfl
    exact hs h
  refine ofLexeme_part_iff.2 ⟨rfl, hne (by decide +kernel), hne (by decide +kernel), ?_⟩
  rw [Connective.ofKeyword?, if_neg (hne (by decide +kernel)), if_neg (hne (by decide +kernel))]

theorem Token.ofLexeme_symbol (c : Comparison) : ofLexeme c.symbol = .part c.symbol := by
  cases c <;> decide

theorem Token.ofLexeme_keyword (op : Connective) : ofLexeme op.keyword = .connective op := by
  cases op <;> decide

/-- The field is no bracket and no keyword. -/
def Condition.Readable (c : Condition) : Prop := Token.ofLexeme c.field = .part c.field

/-- Behind `k` brackets there is room for the rule. -/
def Rule.Fits (k : Nat) (t : Rule) : Prop := t.height ≤ 1 ∨ t.height + k ≤ 3

namespace Assembly

/-- `k` opening brackets that no condition has taken up. -/
def brackets (k : Nat) : List String := List.replicate k "("

theorem brackets_succ (k : Nat) : brackets (k + 1) = "(" :: brackets k := rfl

/-- The reading of `t` is over and nothing behind it has been read: a condition still lies among
the parts, any other rule on the trees. -/
def holding (k : Nat) (trees : List Rule) (depth : Nat) : Rule → Assembly
  | .condition c =>
    ⟨c.value.toText :: c.comparison.symbol :: c.field :: brackets k, trees, depth⟩
  | t => ⟨brackets k, t :: trees, depth⟩

theorem holding_of_height_ne_zero {t : Rule} (h : t.height ≠ 0) (k : Nat) (trees : List Rule)
    (depth : Nat) : holding k trees depth t = ⟨brackets k, t :: trees, depth⟩ := by
  cases t with
  | condition c => exact absurd rfl h
  | joined op left right => rfl
  | pending op left => rfl

/-- A finished rule is taken up again if it is a condition or there are fewer than three
brackets. -/
theorem holding_takes {t : Rule} {k : Nat} (h : t.height = 0 ∨ k < 3) (trees : List Rule)
    (depth : Nat) : (holding k trees depth t).Takes t ⟨brackets k, trees, depth⟩ := by
  cases t with
  | condition c =>
    have hfresh := Takes.fresh c.field c.comparison c.value.toText (brackets k) trees depth
    rwa [Literal.coerce_toText] at hfresh
  | joined op left right => exact .stored (by simpa [brackets, Rule.height] using h) _ trees depth
  | pending op left => exact .stored (by simpa [brackets, Rule.height] using h) _ trees depth

/-- Three brackets are taken for a condition. -/
theorem take_brackets {k : Nat} (hk : 3 ≤ k) (missing : Malformation) (trees : List Rule)
    (depth : Nat) :
    take missing ⟨brackets k, trees, depth⟩ = .error (.unsupportedComparison "(") := by
  obtain ⟨j, rfl⟩ := Nat.exists_eq_add_of_le' hk
  refine bind_eq_error_iff.2 (.inl (condense_eq_error_iff.2 ?_))
  exact ⟨"(", "(", "(", brackets j, rfl, by decide, rfl⟩

/-- A connective takes a finished rule as its left side. -/
theorem holding_connective {t : Rule} {k : Nat} (h : t.height = 0 ∨ k < 3) (op : Connective)
    (trees : List Rule) (depth : Nat) :
    (holding k trees depth t).step (.connective op)
      = .ok ⟨brackets k, .pending op t :: trees, depth⟩ :=
  step_eq_ok_iff.2 (.connective op (holding_takes h trees depth))

/-- A closing bracket makes a rule of the connective that waits and a finished rule. -/
theorem holding_closing {left right : Rule} {k : Nat} (h : right.height = 0 ∨ k + 1 < 3)
    (op : Connective) (trees : List Rule) (depth : Nat) :
    (holding (k + 1) (.pending op left :: trees) (depth + 1) right).step .closing
      = .ok (holding k trees depth (.joined op left right)) := by
  have htakes := holding_takes h (.pending op left :: trees) depth
  have hsome : (holding (k + 1) (.pending op left :: trees) depth right).trees ≠ [] := by
    cases right <;> simp [holding]
  have hlow : holding (k + 1) (.pending op left :: trees) (depth + 1) right
      = { holding (k + 1) (.pending op left :: trees) depth right with
          depth := (holding (k + 1) (.pending op left :: trees) depth right).depth + 1 } := by
    cases right <;> rfl
  rw [hlow]
  exact step_eq_ok_iff.2 (.closePending hsome htakes)

theorem run_opening (parts : List String) (trees : List Rule) (depth : Nat) (ls : List String) :
    run ⟨parts, trees, depth⟩ ("(" :: ls) = run ⟨"(" :: parts, trees, depth + 1⟩ ls := by
  rw [run_cons, Token.ofLexeme_opening_iff.2 rfl]
  rfl

theorem run_part {l : String} (hl : Token.ofLexeme l = .part l) (parts : List String)
    (trees : List Rule) (depth : Nat) (ls : List String) :
    run ⟨parts, trees, depth⟩ (l :: ls) = run ⟨l :: parts, trees, depth⟩ ls := by
  rw [run_cons, hl]
  rfl

/-- **A rule that fits is read.** -/
theorem run_spelling {t : Rule} (hc : t.complete = true) (hr : ∀ c ∈ t.conditions, c.Readable)
    {k : Nat} (h : t.Fits k) (trees : List Rule) (depth : Nat) :
    run ⟨brackets k, trees, depth⟩ t.spelling = .ok (holding k trees depth t) := by
  induction t generalizing k trees depth with
  | condition c =>
    rw [Rule.spelling, run_part (hr c List.mem_cons_self), run_part (Token.ofLexeme_symbol _),
      run_part (Literal.ofLexeme_toText _)]
    rfl
  | joined op left right ihl ihr =>
    -- Each side is read behind one bracket more; that the whole fits leaves room for it.
    obtain ⟨hcl, hcr⟩ : left.complete = true ∧ right.complete = true := by
      simpa [Rule.complete] using hc
    obtain ⟨hrl, hrr⟩ := List.forall_mem_append.1 hr
    simp only [Rule.Fits, Rule.height] at h
    have hfl : left.Fits (k + 1) := by
      rw [Rule.Fits]
      omega
    have hfr : right.Fits (k + 1) := by
      rw [Rule.Fits]
      omega
    rw [Rule.spelling, run_opening, run_append, ← brackets_succ, ihl hcl hrl hfl, ok_bind,
      run_cons, Token.ofLexeme_keyword, holding_connective (by omega), ok_bind, run_append,
      ihr hcr hrr hfr, ok_bind, run_cons, Token.ofLexeme_closing_iff.2 rfl,
      holding_closing (by omega), ok_bind]
    rfl
  | pending op left ih => simp [Rule.complete] at hc

/-- Behind three brackets a connective finds them in place of a condition. -/
theorem holding_connective_error {t : Rule} {k : Nat} (h : t.height ≠ 0) (hk : 3 ≤ k)
    (op : Connective) (trees : List Rule) (depth : Nat) :
    (holding k trees depth t).step (.connective op) = .error (.unsupportedComparison "(") := by
  rw [holding_of_height_ne_zero h, step, take_brackets hk, error_bind]

theorem holding_closing_error {t : Rule} {k : Nat} (h : t.height ≠ 0) (hk : 3 ≤ k)
    (trees : List Rule) (depth : Nat) :
    (holding k trees (depth + 1) t).step .closing = .error (.unsupportedComparison "(") := by
  rw [holding_of_height_ne_zero h]
  show close ⟨brackets k, t :: trees, depth⟩ = _
  rw [close, if_neg (by simp), take_brackets hk, error_bind]

/-- **A rule that does not fit is refused** at the first connective or closing bracket that finds
three brackets. -/
theorem run_spelling_error {t : Rule} (hc : t.complete = true)
    (hr : ∀ c ∈ t.conditions, c.Readable) {k : Nat} (h : ¬ t.Fits k) (trees : List Rule)
    (depth : Nat) :
    run ⟨brackets k, trees, depth⟩ t.spelling = .error (.unsupportedComparison "(") := by
  induction t generalizing k trees depth with
  | condition c => exact absurd (.inl (Nat.zero_le 1)) h
  | joined op left right ihl ihr =>
    obtain ⟨hcl, hcr⟩ : left.complete = true ∧ right.complete = true := by
      simpa [Rule.complete] using hc
    obtain ⟨hrl, hrr⟩ := List.forall_mem_append.1 hr
    simp only [Rule.Fits, Rule.height] at h
    rw [Rule.spelling, run_opening, run_append, ← brackets_succ]
    -- The fault shows inside the left side, at the connective, inside the right side or at the
    -- closing bracket, whichever comes first.
    by_cases hfl : left.Fits (k + 1)
    · rw [run_spelling hcl hrl hfl, ok_bind, run_cons, Token.ofLexeme_keyword]
      by_cases htl : left.height = 0 ∨ k + 1 < 3
      · rw [holding_connective htl, ok_bind, run_append]
        by_cases hfr : right.Fits (k + 1)
        · rw [Rule.Fits] at hfl hfr
          rw [run_spelling hcr hrr (by rw [Rule.Fits]; omega), ok_bind, run_cons,
            Token.ofLexeme_closing_iff.2 rfl, holding_closing_error (by omega) (by omega),
            error_bind]
        · rw [ihr hcr hrr hfr, error_bind]
      · rw [holding_connective_error (by omega) (by omega), error_bind]
    · rw [ihl hcl hrl hfl, error_bind]
  | pending op left ih => simp [Rule.complete] at hc

theorem holding_finishes {t : Rule} (hc : t.complete = true) :
    (holding 0 [] 0 t).Finishes t := by
  cases t with
  | condition c =>
    have honly : Finishes ⟨[c.value.toText, c.comparison.symbol, c.field], [], 0⟩ _ :=
      .only c.field c.comparison c.value.toText (by simp)
    rwa [Literal.coerce_toText] at honly
  | joined op left right => exact .sole hc []
  | pending op left => simp [Rule.complete] at hc

end Assembly

namespace Rule

/-- **Reading the spelling of a rule**: a connective under three others is one too many. -/
theorem ofLexemes_spelling {t : Rule} (hc : t.complete = true)
    (hr : ∀ c ∈ t.conditions, c.Readable) :
    ofLexemes t.spelling =
      if t.height ≤ 3 then .ok t else .error (.unsupportedComparison "(") := by
  have hfits : t.Fits 0 ↔ t.height ≤ 3 := by
    rw [Fits]
    omega
  split
  · rename_i h
    have hrun := Assembly.run_spelling hc hr (hfits.2 h) [] 0
    exact Assembly.ofLexemes_eq_ok_iff.2 ⟨_, hrun, Assembly.holding_finishes hc⟩
  · rename_i h
    exact bind_eq_error_iff.2 (.inl (Assembly.run_spelling_error hc hr (mt hfits.1 h) [] 0))

/-- The text of a rule reads as the rule up to a certain height. -/
theorem read_toText {t : Rule} (hc : t.complete = true) (hw : ∀ c ∈ t.conditions, c.Written)
    (hr : ∀ c ∈ t.conditions, c.Readable) :
    read t.toText = if t.height ≤ 3 then .ok t else .error (.unsupportedComparison "(") := by
  rw [read, lexemes_toText hw, ofLexemes_spelling hc hr]

/-! ## Rules written by hand

Where all lexemes are words it is the height alone that decides. -/

/-- **How deep a rule may be to be read back from its text.**  Where the fields are words and the
literals have no minus sign and no quotes, a rule of at most three connectives one above the other
comes back, and the text of a deeper one is refused because an opening bracket stands where a
comparison should. -/
theorem read_toText_of_words {t : Rule} (hc : t.complete = true)
    (hp : ∀ c ∈ t.conditions, IsWord c.field.toList ∧ c.value.Plain) :
    (t.height ≤ 3 → read t.toText = .ok t) ∧
      (4 ≤ t.height → read t.toText = .error (.unsupportedComparison "(")) := by
  have hw : ∀ c ∈ t.conditions, c.Written := fun c h => ⟨.word (hp c h).1, (hp c h).2⟩
  have hr : ∀ c ∈ t.conditions, c.Readable := fun c h =>
    Token.ofLexeme_of_isWord (hp c h).1
  rw [read_toText hc hw hr]
  exact ⟨fun h => if_pos h, fun h => if_neg (by omega)⟩

/-- A rule at the limit comes back, and one connective more is too many. -/
theorem read_toText_of_words_at_limit :
    ∃ t : Rule, t.toText = "((a = 'x' AND b_2 >= 0) OR (a = 'x' AND (b_2 >= 0 OR a = 'x')))" ∧
      read t.toText = .ok t ∧
      read (joined .and t t).toText = .error (.unsupportedComparison "(") := by
  let a : Rule := condition ⟨"a", .equal, .text "x"⟩
  let b : Rule := condition ⟨"b_2", .atLeast, .integer 0⟩
  let t := joined .or (joined .and a b) (joined .and a (joined .or b a))
  refine ⟨t, by decide +kernel, ?_, ?_⟩
  · exact (read_toText_of_words rfl (by decide +kernel)).1 (by decide)
  · exact (read_toText_of_words rfl (by decide +kernel)).2 (by decide)

/-! ## Rules that were read -/

/-- No connective under three others, and no opening bracket for a field. -/
def Recoverable (t : Rule) : Prop := t.height ≤ 3 ∧ ∀ c ∈ t.conditions, c.field ≠ "("

instance (t : Rule) : Decidable t.Recoverable :=
  inferInstanceAs (Decidable (t.height ≤ 3 ∧ ∀ c ∈ t.conditions, c.field ≠ "("))

/-- Every field that is an opening bracket leaves its text with one bracket too many. -/
theorem count_spelling {t : Rule} (h : ∀ c ∈ t.conditions, Stackable c.field) :
    t.spelling.count "("
      = t.spelling.count ")" + t.conditions.countP (fun c => c.field = "(") := by
  induction t with
  | condition c =>
    have hclosing : c.field ≠ ")" := (h c List.mem_cons_self).1
    obtain ⟨-, hso, hsc, -⟩ := Token.ofLexeme_part_iff.1 (Token.ofLexeme_symbol c.comparison)
    -- Symbol and value are written as parts, so of the three only the field can be a bracket.
    obtain ⟨-, hvo, hvc, -⟩ := Token.ofLexeme_part_iff.1 (Literal.ofLexeme_toText c.value)
    simp [spelling, conditions, List.count_cons, List.countP_cons, hclosing, hso, hsc, hvo, hvc]
  | joined op left right ihl ihr =>
    obtain ⟨hl, hr⟩ := List.forall_mem_append.1 h
    obtain ⟨ho, hc, -⟩ := Token.ofLexeme_connective_iff.1 (Token.ofLexeme_keyword op)
    have ihl := ihl hl
    have ihr := ihr hr
    simp [spelling, conditions, List.count_append, List.countP_append, ho, hc]
    omega
  | pending op left ih =>
    obtain ⟨ho, hc, -⟩ := Token.ofLexeme_connective_iff.1 (Token.ofLexeme_keyword op)
    have ih := ih h
    simp [spelling, conditions, List.count_append, ho, hc]
    omega

/-- What was read is written in legal lexemes. -/
theorem Grounded.written {t : Rule} (h : t.Grounded) : ∀ c ∈ t.conditions, c.Written :=
  fun c hc => ⟨(h.conditions c hc).legal, (h.conditions c hc).plain⟩

theorem Grounded.readable {t : Rule} (h : t.Grounded) (hf : ∀ c ∈ t.conditions, c.field ≠ "(") :
    ∀ c ∈ t.conditions, c.Readable :=
  fun c hc => Token.ofLexeme_part_iff.2 ⟨rfl, hf c hc, (h.conditions c hc).stackable⟩

/-- A text with a bracket too many is no rule. -/
theorem Grounded.field_ne_of_read {t u : Rule} (h : t.Grounded) (hu : read t.toText = .ok u) :
    ∀ c ∈ t.conditions, c.field ≠ "(" := by
  rw [read, lexemes_toText h.written] at hu
  have hbalanced := balanced_of_ofLexemes hu
  rw [count_spelling fun c hc => (h.conditions c hc).stackable] at hbalanced
  have hnone : t.conditions.countP (fun c => c.field = "(") = 0 := by omega
  simpa [List.countP_eq_zero] using hnone

/-- A rule made by reading and joining comes back from its text exactly if it is recoverable, and
never as another rule. -/
theorem Grounded.read_toText_eq_ok_iff {t u : Rule} (h : t.Grounded) :
    read t.toText = .ok u ↔ t.Recoverable ∧ u = t := by
  constructor
  · intro hu
    have hf := h.field_ne_of_read hu
    rw [read_toText h.complete h.written (h.readable hf)] at hu
    split at hu
    · rename_i hheight
      cases hu
      exact ⟨⟨hheight, hf⟩, rfl⟩
    · cases hu
  · rintro ⟨⟨hheight, hf⟩, rfl⟩
    rw [read_toText h.complete h.written (h.readable hf), if_pos hheight]

/-- **Which rules come back from their text.**  A rule that was read from a text, or joined from
texts, is read back from its own text exactly if no connective stands under three others and no
field is an opening bracket; the text of any other is refused. -/
theorem read_toText_iff_recoverable {t : Rule}
    (h : (∃ text, read text = .ok t) ∨ ∃ texts, readAll texts = .ok t) :
    (read t.toText = .ok t ↔ t.Recoverable) ∧ ∀ u, read t.toText = .ok u → u = t := by
  have hgrounded : t.Grounded := by
    obtain ⟨text, ht⟩ | ⟨texts, ht⟩ := h
    · exact grounded_of_read ht
    · exact grounded_of_readAll ht
  refine ⟨by simp [hgrounded.read_toText_eq_ok_iff], fun u hu => ?_⟩
  exact (hgrounded.read_toText_eq_ok_iff.1 hu).2

/-- A bracketed pair of connectives, read from a text, comes back. -/
theorem read_toText_iff_recoverable_of_pairs :
    ∃ t, read "((a = 1 AND b != x) OR (c < 3 AND d >= 4))" = .ok t ∧ t.Recoverable ∧
      read t.toText = .ok t := by
  obtain ⟨t, ht, hr⟩ : ∃ t, read "((a = 1 AND b != x) OR (c < 3 AND d >= 4))" = .ok t ∧
      t.Recoverable :=
    ⟨joined .or
      (joined .and (condition ⟨"a", .equal, .integer 1⟩) (condition ⟨"b", .unequal, .text "x"⟩))
      (joined .and (condition ⟨"c", .less, .integer 3⟩) (condition ⟨"d", .atLeast, .integer 4⟩)),
      by decide +kernel, by decide +kernel⟩
  exact ⟨t, ht, hr, (read_toText_iff_recoverable (.inl ⟨_, ht⟩)).1.2 hr⟩

/-- Four bracketed comparisons in a row and one more make a rule whose text is refused. -/
theorem read_toText_of_long_chain :
    ∃ t, read "(a = 1) AND (b = 2) AND (c = 3) AND (d = 4) AND e = 5" = .ok t ∧
      read t.toText = .error (.unsupportedComparison "(") := by
  let c (f : String) (n : Int64) : Rule := condition ⟨f, .equal, .integer n⟩
  exact ⟨joined .and (joined .and (joined .and (joined .and (c "a" 1) (c "b" 2)) (c "c" 3))
    (c "d" 4)) (c "e" 5), by decide +kernel, by decide +kernel⟩

end Rule

end Screening
