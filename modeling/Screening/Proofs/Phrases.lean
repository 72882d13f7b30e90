import Screening.Operation
import Screening.Proofs.Rendering

/-!
# Rules as they are written

The value of a condition can be written in more than one way: `7` and `007` are the same integer,
`x` and `'x'` the same text.  A `Clause` is a comparison that still has its value as a lexeme, and a
`Phrase` is a tree of clauses with brackets round every connective.

Reading takes no notice of how a value is written, because a condition is taken up as what its value
stands for (`run_spelling_append`).  So what is known of the lexemes of a rule
(`ofLexemes_spelling`) holds of any other way to write it (`ofLexemes_phrase`).

While it is on the stack of parts a value is still a lexeme, so the two readings differ until the
comparison is taken up.  What takes it up is the lexeme behind it: a closing bracket or a connective
(`TakesUp`), or the end of the text.

A negative integer cannot be written.  No lexeme begins with a minus sign and none goes on over one,
so the sign leaves no trace and its digits stand for themselves (`create_of_integer`).  The one
number to which that does not apply is the least one: its digits are no 64-bit integer, and stand
for a text.
-/

set_option autoImplicit false

namespace Screening

open Lexeme

/-- A comparison as it is written: its value is a lexeme and not yet a literal. -/
structure Clause where
  field : String
  comparison : Comparison
  value : String
  deriving DecidableEq

/-- A rule as it is written, with brackets round every connective. -/
inductive Phrase where
  | clause (c : Clause)
  | joined (op : Connective) (left right : Phrase)
  deriving DecidableEq

/-! ## Clauses

A clause is written with blanks between its lexemes, and spelled as the three of them. -/

namespace Clause

def toText (c : Clause) : String := c.field ++ " " ++ c.comparison.symbol ++ " " ++ c.value

def spelling (c : Clause) : List String := [c.field, c.comparison.symbol, c.value]

def condition (c : Clause) : Condition := ⟨c.field, c.comparison, .coerce c.value⟩

/-- The field is a word; the value is another one, or a text in quotes that has none inside. -/
structure Worded (c : Clause) : Prop where
  field : IsWord c.field.toList
  value : IsWord c.value.toList ∨
    ∃ s : String, '\'' ∉ s.toList ∧ '"' ∉ s.toList ∧ c.value = (Literal.text s).toText

/-- Field and value are neither brackets nor keywords. -/
structure Readable (c : Clause) : Prop where
  field : Token.ofLexeme c.field = .part c.field
  value : Token.ofLexeme c.value = .part c.value

/-- Both ways to write a value are legal lexemes. -/
theorem Worded.legal_value {c : Clause} (h : c.Worded) : Legal c.value.toList := by
  rcases h.value with hword | ⟨s, hsingle, hdouble, hs⟩
  · exact .word hword
  · rw [hs]
    exact Literal.legal_toText (l := .text s) ⟨hsingle, hdouble⟩

/-- What is worded is neither a bracket nor a keyword. -/
theorem Worded.readable {c : Clause} (h : c.Worded) : c.Readable where
  field := Token.ofLexeme_of_isWord h.field
  value := by
    rcases h.value with hword | ⟨s, -, -, hs⟩
    · exact Token.ofLexeme_of_isWord hword
    · rw [hs]
      exact Literal.ofLexeme_toText _

theorem scan_toText {c : Clause} (h : c.Worded) {rest : List Char} (hr : Apart rest) :
    scan (c.toText.toList ++ rest) 0 = c.spelling.map String.toList ++ scan rest 0 :=
  scan_comparison (.word h.field) h.legal_value c.comparison hr

end Clause

/-! ## Phrases

A phrase is written and spelled like a rule. -/

namespace Phrase

def toText : Phrase → String
  | clause c => c.toText
  | joined op left right => "(" ++ left.toText ++ " " ++ op.keyword ++ " " ++ right.toText ++ ")"

def spelling : Phrase → List String
  | clause c => c.spelling
  | joined op left right => "(" :: (left.spelling ++ op.keyword :: (right.spelling ++ [")"]))

/-- The rule that is written. -/
def rule : Phrase → Rule
  | clause c => .condition c.condition
  | joined op left right => .joined op left.rule right.rule

def clauses : Phrase → List Clause
  | clause c => [c]
  | joined _ left right => left.clauses ++ right.clauses

theorem complete_rule (p : Phrase) : p.rule.complete = true := by
  induction p with
  | clause c => rfl
  | joined op left right ihl ihr => rw [rule, Rule.complete, ihl, ihr, Bool.and_self]

theorem conditions_rule (p : Phrase) : p.rule.conditions = p.clauses.map Clause.condition := by
  induction p with
  | clause c => rfl
  | joined op left right ihl ihr => rw [rule, Rule.conditions, ihl, ihr, clauses, List.map_append]

theorem readable_rule {p : Phrase} (h : ∀ c ∈ p.clauses, c.Readable) :
    ∀ c ∈ p.rule.conditions, c.Readable := by
  intro c hc
  rw [conditions_rule, List.mem_map] at hc
  obtain ⟨d, hd, rfl⟩ := hc
  exact (h d hd).field

theorem scan_toText {p : Phrase} (h : ∀ c ∈ p.clauses, c.Worded) {rest : List Char}
    (hr : Apart rest) :
    scan (p.toText.toList ++ rest) 0 = p.spelling.map String.toList ++ scan rest 0 := by
  induction p generalizing rest with
  | clause c => exact Clause.scan_toText (h c List.mem_cons_self) hr
  | joined op left right ihl ihr =>
    obtain ⟨hleft, hright⟩ := List.forall_mem_append.1 h
    exact scan_joined (fun _ => ihl hleft) (fun _ => ihr hright) op rest

end Phrase

/-! ## Reading takes no notice of how a value is written -/

/-- The lexeme takes up what has been read last: a closing bracket or a connective. -/
def TakesUp (l : String) : Prop :=
  Token.ofLexeme l = .closing ∨ ∃ op, Token.ofLexeme l = .connective op

theorem takesUp_closing : TakesUp ")" := .inl (Token.ofLexeme_closing_iff.2 rfl)

theorem takesUp_keyword (op : Connective) : TakesUp op.keyword :=
  .inr ⟨op, Token.ofLexeme_keyword op⟩

namespace Assembly

/-- A clause goes on the stack of parts, lexeme by lexeme. -/
theorem run_clause {c : Clause} (h : c.Readable) (parts : List String) (trees : List Rule)
    (depth : Nat) (ls : List String) :
    run ⟨parts, trees, depth⟩ (c.spelling ++ ls)
      = run ⟨c.value :: c.comparison.symbol :: c.field :: parts, trees, depth⟩ ls := by
  rw [Clause.spelling, List.cons_append, List.cons_append, List.cons_append, List.nil_append,
    run_part h.field, run_part (Token.ofLexeme_symbol _), run_part h.value]

/-- The comparison on top of the stack is taken up as a condition. -/
theorem take_comparison (missing : Malformation) (field : String) (c : Comparison) (value : String)
    (below : List String) (trees : List Rule) (depth : Nat) :
    take missing ⟨value :: c.symbol :: field :: below, trees, depth⟩
      = .ok (.condition ⟨field, c, .coerce value⟩, ⟨below, trees, depth⟩) :=
  take_eq_ok_iff.2 (.fresh field c value below trees depth)

/-- What takes up a comparison sees what its value stands for, and not how it is written. -/
theorem step_of_coerce_eq {v w l : String} (h : Literal.coerce v = .coerce w) (hl : TakesUp l)
    (field : String) (c : Comparison) (below : List String) (trees : List Rule) (depth : Nat) :
    step ⟨v :: c.symbol :: field :: below, trees, depth⟩ (.ofLexeme l)
      = step ⟨w :: c.symbol :: field :: below, trees, depth⟩ (.ofLexeme l) := by
  have htake : ∀ missing depth, take missing ⟨v :: c.symbol :: field :: below, trees, depth⟩
      = take missing ⟨w :: c.symbol :: field :: below, trees, depth⟩ := by
    intro missing depth
    rw [take_comparison, take_comparison, h]
  rcases hl with hl | ⟨op, hl⟩
  · rw [hl]
    cases depth with
    | zero => rfl
    | succ depth =>
      show close ⟨_, trees, depth⟩ = close ⟨_, trees, depth⟩
      rw [close, close, htake, htake]
  · rw [hl, step, step, htake]

/-- **How a value is written does not matter** once something takes up the phrase it stands in; a
phrase in brackets takes itself up. -/
theorem run_spelling_append {p : Phrase} (h : ∀ c ∈ p.clauses, c.Readable) (a : Assembly)
    (ls : List String)
    (hls : ∀ c, p = .clause c → ∃ l rest, ls = l :: rest ∧ TakesUp l) :
    a.run (p.spelling ++ ls) = a.run (p.rule.spelling ++ ls) := by
  induction p generalizing a ls with
  | clause c =>
    -- The two runs differ in the newest part until the next lexeme takes it up.
    obtain ⟨l, rest, rfl, hl⟩ := hls c rfl
    obtain ⟨parts, trees, depth⟩ := a
    have hc : c.Readable := h c List.mem_cons_self
    have hcanonical : Clause.Readable ⟨c.field, c.comparison, (Literal.coerce c.value).toText⟩ :=
      ⟨hc.field, Literal.ofLexeme_toText _⟩
    have hvalue : Literal.coerce c.value = .coerce (Literal.coerce c.value).toText :=
      (Literal.coerce_toText _).symm
    have hspelling : (Phrase.clause c).rule.spelling
        = Clause.spelling ⟨c.field, c.comparison, (Literal.coerce c.value).toText⟩ := rfl
    rw [hspelling, Phrase.spelling, run_clause hc, run_clause hcanonical, run_cons, run_cons,
      step_of_coerce_eq hvalue hl]
  | joined op left right ihl ihr =>
    obtain ⟨hleft, hright⟩ := List.forall_mem_append.1 h
    -- The right side is taken up by the closing bracket and the left side by the connective.
    have hafter : ∀ b : Assembly, b.run (right.spelling ++ ")" :: ls)
        = b.run (right.rule.spelling ++ ")" :: ls) := fun b =>
      ihr hright b _ fun c _ => ⟨")", ls, rfl, takesUp_closing⟩
    have hbefore : ∀ b : Assembly,
        b.run (left.spelling ++ op.keyword :: (right.spelling ++ ")" :: ls))
          = b.run (left.rule.spelling ++ op.keyword :: (right.spelling ++ ")" :: ls)) := fun b =>
      ihl hleft b _ fun c _ => ⟨op.keyword, _, rfl, takesUp_keyword op⟩
    have hspelling : (Phrase.joined op left right).spelling ++ ls
        = "(" :: (left.spelling ++ op.keyword :: (right.spelling ++ ")" :: ls)) := by
      simp [Phrase.spelling]
    have hcanonical : (Phrase.joined op left right).rule.spelling ++ ls
        = "(" :: (left.rule.spelling ++ op.keyword :: (right.rule.spelling ++ ")" :: ls)) := by
      simp [Phrase.rule, Rule.spelling]
    rw [hspelling, hcanonical, run_cons, run_cons]
    simp only [hbefore, run_append, run_cons, hafter]

end Assembly

namespace Rule

open Assembly

/-- A clause by itself is read at the end of the text. -/
theorem ofLexemes_clause {c : Clause} (h : c.Readable) :
    ofLexemes c.spelling = .ok (condition c.condition) := by
  have hrun : run {} c.spelling = .ok ⟨[c.value, c.comparison.symbol, c.field], [], 0⟩ := by
    have happend := run_clause h [] [] 0 []
    rw [List.append_nil] at happend
    exact happend
  exact ofLexemes_eq_ok_iff.2 ⟨_, hrun, .only c.field c.comparison c.value (by simp)⟩

/-- **Reading a phrase**: it gives the rule that is written, unless a connective stands under three
others. -/
theorem ofLexemes_phrase {p : Phrase} (h : ∀ c ∈ p.clauses, c.Readable) :
    ofLexemes p.spelling =
      if p.rule.height ≤ 3 then .ok p.rule else .error (.unsupportedComparison "(") := by
  cases p with
  | clause c => exact ofLexemes_clause (h c List.mem_cons_self)
  | joined op left right =>
    rw [← ofLexemes_spelling (Phrase.complete_rule _) (Phrase.readable_rule h)]
    have hrun := run_spelling_append h {} [] (by simp)
    rw [List.append_nil, List.append_nil] at hrun
    show run {} _ >>= finish = run {} _ >>= finish
    rw [hrun]

end Rule

/-! ## Integers

What becomes of an integer that is written into the text of a rule. -/

namespace Numeral

theorem int64?_digits {m : Nat} {n : Int64} (h : n.toInt = m) : int64? (digits m) = some n := by
  rw [int64?, integer?_of_natural? (natural?_digits m), Option.bind_some, ← h, toInt64?_toInt]

/-- Every integer but the least one has an opposite. -/
theorem toInt_neg_of_ne_minValue {n : Int64} (h : n ≠ Int64.minValue) : (-n).toInt = -n.toInt := by
  have hlo := n.le_toInt
  have hhi := n.toInt_lt
  have hmin : n.toInt ≠ -2 ^ 63 := fun hn =>
    h (Int64.toInt_inj.1 (hn.trans Int64.toInt_minValue.symm))
  rw [Int64.toInt_neg]
  exact Int.bmod_eq_of_le (by omega) (by omega)

/-- The sign in front of a number leaves no trace. -/
theorem scan_ofInt (n : Int) : scan (ofInt n).toList 0 = [digits n.natAbs] := by
  have hdigits : scan (digits n.natAbs) 0 = [digits n.natAbs] := by
    have hscan := scan_legal_append (.word (Literal.isWord_digits n.natAbs)) apart_nil
    rwa [List.append_nil] at hscan
  rw [ofInt]
  split
  · have hminus : ("-" ++ String.ofList (digits n.natAbs)).toList = '-' :: digits n.natAbs := by
      simp
    rw [hminus, scan_idle (by decide), hdigits]
  · rw [String.toList_ofList, hdigits]

theorem double_not_mem_ofInt (n : Int) : '"' ∉ (ofInt n).toList := by
  have hdigits : '"' ∉ digits n.natAbs :=
    (Legal.word (Literal.isWord_digits n.natAbs)).double_not_mem
  rw [ofInt]
  split
  · simpa using hdigits
  · simpa using hdigits

end Numeral

/-- A comparison with an integer has the lexemes of one with the digits of the integer. -/
theorem lexemes_integer {field : String} (h : IsWord field.toList) (c : Comparison) (n : Int) :
    lexemes (field ++ " " ++ c.symbol ++ " " ++ Numeral.ofInt n)
      = Clause.spelling ⟨field, c, String.ofList (Numeral.digits n.natAbs)⟩ := by
  have hdouble : '"' ∉ (field ++ " " ++ c.symbol ++ " " ++ Numeral.ofInt n).toList := by
    simp [(Legal.word h).double_not_mem, (legal_symbol c).double_not_mem,
      Numeral.double_not_mem_ofInt]
  have htext : (field ++ " " ++ c.symbol ++ " " ++ Numeral.ofInt n).toList
      = field.toList ++ ' ' :: (c.symbol.toList ++ ' ' :: (Numeral.ofInt n).toList) := by
    simp
  rw [lexemes, Rule.singleQuoted_of_double_not_mem hdouble, htext, scan_legal_blank (.word h),
    scan_legal_blank (legal_symbol c), Numeral.scan_ofInt]
  simp [Clause.spelling]

/-- What the digits of an integer stand for: its size, unless that is no 64-bit integer. -/
theorem Literal.coerce_digits (n : Int64) :
    let read := Literal.coerce (String.ofList (Numeral.digits n.toInt.natAbs))
    (0 ≤ n.toInt → read = .integer n) ∧
    (n.toInt < 0 → n ≠ Int64.minValue → read = .integer (-n)) ∧
    (n = Int64.minValue → read = .text "9223372036854775808") := by
  refine ⟨fun hn => ?_, fun hn hmin => ?_, ?_⟩
  · have hsize : n.toInt = n.toInt.natAbs := by omega
    rw [coerce, String.toList_ofList, Numeral.int64?_digits hsize]
  · have hneg := Numeral.toInt_neg_of_ne_minValue hmin
    have hsize : (-n).toInt = n.toInt.natAbs := by omega
    rw [coerce, String.toList_ofList, Numeral.int64?_digits hsize]
  · rintro rfl
    decide +kernel

namespace Operation

/-- **Comparing with an integer.**  Any integer that is not negative can be written in a rule.  A
minus sign is skipped, so a negative integer is read without it; the least of all is one more than
the greatest without its sign, and is read as a text. -/
theorem create_of_integer {field : String} (h : IsWord field.toList) (c : Comparison) (n : Int64) :
    let text := field ++ " " ++ c.symbol ++ " " ++ Numeral.ofInt n.toInt
    (0 ≤ n.toInt → (create text).result = .ok (.condition ⟨field, c, .integer n⟩)) ∧
    (n.toInt < 0 → n ≠ Int64.minValue →
      (create text).result = .ok (.condition ⟨field, c, .integer (-n)⟩)) ∧
    (n = Int64.minValue →
      (create text).result = .ok (.condition ⟨field, c, .text "9223372036854775808"⟩)) := by
  intro text
  let digits : Clause := ⟨field, c, String.ofList (Numeral.digits n.toInt.natAbs)⟩
  have hdigits : digits.Worded := by
    refine ⟨h, .inl ?_⟩
    rw [String.toList_ofList]
    exact Literal.isWord_digits _
  have hread : (create text).result = .ok (.condition digits.condition) := by
    show Rule.ofLexemes (lexemes text) = _
    rw [lexemes_integer h]
    exact Rule.ofLexemes_clause hdigits.readable
  obtain ⟨hpos, hneg, hmin⟩ := Literal.coerce_digits n
  refine ⟨fun hn => ?_, fun hn hne => ?_, fun hn => ?_⟩
  · rw [hread, Clause.condition, hpos hn]
  · rw [hread, Clause.condition, hneg hn hne]
  · rw [hread, Clause.condition, hmin hn]

/-- The limits of 64 bits: the greatest integer is itself with a sign in front or without, and the
least one becomes a text. -/
theorem create_of_integer_at_limits :
    (create "a >= 9223372036854775807").result
        = .ok (.condition ⟨"a", .atLeast, .integer Int64.maxValue⟩) ∧
    (create "a >= -9223372036854775807").result
        = .ok (.condition ⟨"a", .atLeast, .integer Int64.maxValue⟩) ∧
    (create "a >= -9223372036854775808").result
        = .ok (.condition ⟨"a", .atLeast, .text "9223372036854775808"⟩) := by
  have ha : IsWord "a".toList := by decide +kernel
  refine ⟨?_, ?_, ?_⟩
  · exact (create_of_integer ha .atLeast Int64.maxValue).1 (by decide +kernel)
  · exact (create_of_integer ha .atLeast (-Int64.maxValue)).2.1 (by decide +kernel)
      (by decide +kernel)
  · exact (create_of_integer ha .atLeast Int64.minValue).2.2 rfl

/-- Not every integer can be written in a rule: a comparison with -5 becomes one with 5. -/
theorem create_of_minus_five :
    (create "a > -5").result = .ok (.condition ⟨"a", .greater, .integer 5⟩) ∧
    ¬ ∀ (field : String) (c : Comparison) (n : Int64), IsWord field.toList →
      (create (field ++ " " ++ c.symbol ++ " " ++ Numeral.ofInt n.toInt)).result
        = .ok (.condition ⟨field, c, .integer n⟩) := by
  have hread : (create "a > -5").result = .ok (.condition ⟨"a", .greater, .integer 5⟩) := by
    decide +kernel
  refine ⟨hread, fun h => ?_⟩
  have hclaimed : (create "a > -5").result = .ok (.condition ⟨"a", .greater, .integer (-5)⟩) :=
    h "a" .greater (-5) (by decide +kernel)
  have hequal := hread.symm.trans hclaimed
  exact absurd hequal (by decide +kernel)

end Operation

end Screening
