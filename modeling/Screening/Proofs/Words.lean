import Mathlib.Data.List.DropRight
import Screening.Proofs.Literal
import Screening.Proofs.Places

/-!
# What a rule says

The words of a text are its lexemes other than brackets.  A rule says what its text says if its row
reads as the words of the text, every condition as its three lexemes; behind the last closing
bracket words may be missing (`Rule.Says`).

Not every text that is read has a rule that does: parts left lying about are taken up later in
another place, or never.  But where a rule does, it leaves out all or nothing: the row reads as all
the words, or as those up to the last closing bracket (`Outline.Passage.tells`).  The reason is that
a row ends with a condition only right after a closing bracket or at the end of the text.  In the
one case no word can have gone into it since that bracket, in the other no word is left over.  This
is a count, and it goes wrong where a condition has been made with a bracket in it; rows without
such conditions are `Clear`.

The count is `breadth`, of a row, and the number of parts that are no brackets.  Together they make
up the words that have been read, as long as the row is clear (`Covered`).  A row that reads as
words at all is clear, for a bracket is no word (`Reads.clear`); so the condition costs nothing in
the end.
-/

set_option autoImplicit false

namespace Screening

/-! ## Words of a text and rows that read as words -/

/-- The lexemes other than brackets. -/
def words (ls : List String) : List String := ls.filter fun l => l ≠ "(" ∧ l ≠ ")"

/-- The lexemes up to the last closing bracket. -/
def throughClosing (ls : List String) : List String := ls.rdropWhile (· ≠ ")")

/-- The lexemes behind the last closing bracket. -/
def behindClosing (ls : List String) : List String := ls.rtakeWhile (· ≠ ")")

@[simp] theorem words_append (ls ms : List String) : words (ls ++ ms) = words ls ++ words ms :=
  List.filter_append ls ms

theorem words_closing : words [")"] = [] := rfl

theorem words_of_part {l : String} (ho : l ≠ "(") (hc : l ≠ ")") : words [l] = [l] := by
  simp [words, ho, hc]

theorem mem_words_iff {l : String} {ls : List String} :
    l ∈ words ls ↔ l ∈ ls ∧ l ≠ "(" ∧ l ≠ ")" := by
  simp [words]

/-- The words up to the last closing bracket and those behind it are all. -/
theorem words_throughClosing_append_behindClosing (ls : List String) :
    words (throughClosing ls) ++ words (behindClosing ls) = words ls := by
  rw [← words_append, throughClosing, behindClosing, List.rdropWhile_append_rtakeWhile]

/-- A closing bracket that comes later moves the place up to there. -/
theorem throughClosing_append_of_mem {ls : List String} (h : ")" ∈ ls) (done : List String) :
    throughClosing (done ++ ls) = done ++ throughClosing ls := by
  have hsome : ls.reverse.dropWhile (· ≠ ")") ≠ [] := fun hnone =>
    absurd (List.dropWhile_eq_nil_iff.1 hnone ")" (List.mem_reverse.2 h)) (by decide)
  rw [throughClosing, List.rdropWhile, List.reverse_append, List.dropWhile_append,
    if_neg (mt List.isEmpty_iff.1 hsome), List.reverse_append, List.reverse_reverse]
  rfl

theorem throughClosing_append_of_not_mem {ls : List String} (h : ")" ∉ ls) (done : List String) :
    throughClosing (done ++ ls) = throughClosing done := by
  simp [throughClosing, List.rdropWhile, List.dropWhile_append, h]

theorem throughClosing_concat_of_ne {l : String} (hl : l ≠ ")") (done : List String) :
    throughClosing (done ++ [l]) = throughClosing done :=
  throughClosing_append_of_not_mem (by simpa using Ne.symm hl) done

theorem throughClosing_concat_closing (done : List String) :
    throughClosing (done ++ [")"]) = done ++ [")"] :=
  List.rdropWhile_concat_neg _ _ _ (by decide)

/-- The row reads as the words: a condition as field, comparison and value, a connective as its
keyword. -/
inductive Reads : List Item → List String → Prop
  | nil : Reads [] []
  | condition {c : Condition} {value : String} {row : List Item} {ws : List String}
      (hv : .coerce value = c.value) (h : Reads row ws) :
      Reads (.condition c :: row) (c.field :: c.comparison.symbol :: value :: ws)
  | connective (op : Connective) {row : List Item} {ws : List String} (h : Reads row ws) :
      Reads (.connective op :: row) (op.keyword :: ws)

/-- How many words a row reads as. -/
def breadth : List Item → Nat
  | [] => 0
  | .condition _ :: row => breadth row + 3
  | .connective _ :: row => breadth row + 1

theorem breadth_append (row more : List Item) :
    breadth (row ++ more) = breadth row + breadth more := by
  induction row with
  | nil => simp [breadth]
  | cons x row ih => cases x <;> simp only [List.cons_append, breadth, ih] <;> omega

theorem eq_nil_of_breadth {row : List Item} (h : breadth row = 0) : row = [] := by
  match row, h with
  | [], _ => rfl

namespace Reads

variable {row more : List Item} {ws vs : List String}

/-- Two rows that stand behind each other read as the words behind each other. -/
theorem append (h : Reads row ws) (hm : Reads more vs) : Reads (row ++ more) (ws ++ vs) := by
  induction h with
  | nil => exact hm
  | condition hv _ ih => exact .condition hv ih
  | connective op _ ih => exact .connective op ih

theorem length_eq (h : Reads row ws) : ws.length = breadth row := by
  induction h with
  | nil => rfl
  | condition hv _ ih => simp [breadth, ih]
  | connective op _ ih => simp [breadth, ih]

theorem head?_eq {c : Condition} (h : Reads (.condition c :: row) ws) : ws.head? = some c.field := by
  cases h
  rfl

/-- What stands behind the beginning of a row reads as what stands behind the words of it. -/
theorem rest (hr : Reads row ws) (h : Reads (row ++ more) (ws ++ vs)) : Reads more vs := by
  induction hr with
  | nil => exact h
  | condition hv _ ih => cases h with
    | condition _ h => exact ih h
  | connective op _ ih => cases h with
    | connective _ h => exact ih h

end Reads

namespace Rule

/-- The row of the rule reads as the words of the text, of which some behind the last closing
bracket may be missing. -/
def Says (t : Rule) (ls : List String) : Prop :=
  ∃ kept, kept.Sublist (words (behindClosing ls)) ∧
    Reads t.items (words (throughClosing ls) ++ kept)

end Rule

/-- The row reads as all the words of the text, or as all up to the last closing bracket. -/
def Tells (row : List Item) (ls : List String) : Prop :=
  Reads row (words ls) ∨ Reads row (words (throughClosing ls))

/-- A rule that tells what a text tells says it. -/
theorem Rule.says_of_tells {t : Rule} {ls : List String} (h : Tells t.items ls) : t.Says ls := by
  obtain h | h := h
  · exact ⟨_, .refl _, by rwa [words_throughClosing_append_behindClosing]⟩
  · exact ⟨[], List.nil_sublist _, by rwa [List.append_nil]⟩

/-! ## Rows without brackets

An opening bracket can be taken up as a field or a value.  It is a part then but no word, and the
count would be off by one. -/

/-- No condition of the row has an opening bracket for a field or a value. -/
def Clear (row : List Item) : Prop :=
  ∀ c, Item.condition c ∈ row → c.field ≠ "(" ∧ c.value ≠ .text "("

theorem Clear.of_prefix {row longer : List Item} (h : Clear longer) (hp : row <+: longer) :
    Clear row := fun c hc => h c (hp.subset hc)

theorem Comparison.symbol_ne_opening (c : Comparison) : c.symbol ≠ "(" := by cases c <;> decide

theorem coerce_opening : Literal.coerce "(" = .text "(" := by decide +kernel

/-- A row that reads as words other than a quoted bracket has no brackets in its conditions. -/
theorem Reads.clear {row : List Item} {ws : List String} (h : Reads row ws)
    (hw : ∀ w ∈ ws, w ≠ "(" ∧ w ≠ "'('") : Clear row := by
  induction h with
  | nil => simp [Clear]
  | @condition c value row ws hv h ih =>
    intro d hd
    obtain hd | hd := List.mem_cons.1 hd
    · obtain rfl := Item.condition.inj hd
      refine ⟨(hw _ (by simp)).1, fun hvalue => ?_⟩
      -- There are two ways to write a value that is a bracket, and both are excluded.
      have hvalue' : value = "(" ∨ value = "'('" :=
        Literal.eq_or_quoted_of_coerce (hv.trans hvalue)
      have hgood := hw value (by simp)
      exact hvalue'.elim hgood.1 hgood.2
    · exact ih (fun w hw' => hw w (by simp [hw'])) d hd
  | @connective op row ws h ih =>
    intro d hd
    obtain hd | hd := List.mem_cons.1 hd
    · cases hd
    · exact ih (fun w hw' => hw w (by simp [hw'])) d hd

/-! ## Words that are left out

An induction over the passage of a text, with the count as what is kept. -/

/-- What is taken up from the parts goes into the row, word by word. -/
theorem Outline.Gathers.breadth_eq {parts below : List String} {row longer : List Item}
    (h : Gathers parts row below longer) (clear : Clear longer) :
    below.countP (· ≠ "(") + breadth longer = parts.countP (· ≠ "(") + breadth row := by
  cases h with
  | stored few hr => rfl
  | fresh field c value below row =>
    obtain ⟨hfield, hvalue⟩ := clear ⟨field, c, .coerce value⟩ (by simp)
    have hvalue' : value ≠ "(" := fun h => hvalue (h ▸ coerce_opening)
    simp only [List.countP_cons, breadth_append, breadth, decide_eq_true hfield,
      decide_eq_true hvalue', decide_eq_true c.symbol_ne_opening, if_true]
    omega

/-- Every word read is among the parts or has gone into the row, and a row that does not wait for a
condition was there when the last bracket was closed. -/
structure Covered (done : List String) (o : Outline) : Prop where
  whole : o.parts.countP (· ≠ "(") + breadth o.row = (words done).length
  closed : ¬ Awaits o.row → breadth o.row ≤ (words (throughClosing done)).length

theorem covered_nil : Covered [] {} := ⟨rfl, fun h => absurd awaits_nil h⟩

/-- Right after a closing bracket no word stands behind one. -/
theorem Covered.of_closing {done : List String} {o : Outline}
    (h : o.parts.countP (· ≠ "(") + breadth o.row = (words done).length) :
    Covered (done ++ [")"]) o := by
  have hwords : words (done ++ [")"]) = words done := by
    rw [words_append, words_closing, List.append_nil]
  refine ⟨by rw [hwords, h], fun _ => ?_⟩
  rw [throughClosing_concat_closing, hwords]
  omega

/-- Every step keeps the count.  A word goes among the parts, a connective into the row, and a
bracket in neither. -/
theorem Covered.moves {done : List String} {l : String} {o p : Outline} (h : Covered done o)
    (hm : o.Moves (.ofLexeme l) p) (clear : Clear p.row) : Covered (done ++ [l]) p := by
  obtain ⟨hwhole, hclosed⟩ := h
  generalize hk : Token.ofLexeme l = k at hm
  cases hm with
  | opening parts row depth =>
    obtain rfl := Token.ofLexeme_opening_iff.1 hk
    refine ⟨?_, ?_⟩
    · simpa [words] using hwhole
    · rwa [throughClosing_concat_of_ne (by decide)]
  | part lexeme parts row depth =>
    obtain ⟨rfl, ho, hc, hw⟩ := Token.ofLexeme_part_iff.1 hk
    refine ⟨?_, ?_⟩
    · rw [words_append, words_of_part ho hc, List.length_append, ← hwhole]
      simp only [List.countP_cons, decide_eq_true ho, if_true, List.length_singleton]
      omega
    · rwa [throughClosing_concat_of_ne hc]
  | @connective parts below row longer op hg depth =>
    obtain ⟨ho, hc, hw⟩ := Token.ofLexeme_connective_iff.1 hk
    have hgathered := hg.breadth_eq (clear.of_prefix (List.prefix_append _ _))
    refine ⟨?_, fun hr => absurd (awaits_concat longer op) hr⟩
    rw [words_append, words_of_part ho hc, List.length_append, ← hwhole, breadth_append]
    simp only [breadth, List.length_singleton]
    omega
  | @closeFirst parts below row hg depth =>
    obtain rfl := Token.ofLexeme_closing_iff.1 hk
    exact .of_closing ((hg.breadth_eq clear).trans hwhole)
  | @closePending parts below row longer hsome hg depth =>
    obtain rfl := Token.ofLexeme_closing_iff.1 hk
    have hgathered := hg.breadth_eq clear
    exact .of_closing (by simpa using hgathered.trans hwhole)

/-- **All or nothing.**  If words behind the last closing bracket are missing, all of them are. -/
theorem Outline.Passage.tells {ls kept : List String} {row : List Item} (h : Passage {} ls row)
    (clear : Clear row) (hkept : kept.Sublist (words (behindClosing ls)))
    (hr : Reads row (words (throughClosing ls) ++ kept)) : Tells row ls := by
  obtain ⟨o, ho, he⟩ := h.invariant (P := fun done o => Clear o.row → Covered done o)
    (fun ho hm clear => (ho (clear.of_prefix hm.row_prefix)).moves hm clear) (fun _ => covered_nil)
  have hcovered := ho (clear.of_prefix he.row_prefix)
  have hlength := hr.length_eq
  rw [List.length_append] at hlength
  cases he with
  | sole parts hrow =>
    have hclosed : breadth row ≤ (words (throughClosing ls)).length := hcovered.closed hrow
    -- The row was whole at the last closing bracket, so there is no room in it for any word behind
    -- that.
    obtain rfl : kept = [] := List.eq_nil_of_length_eq_zero (by omega)
    exact .inr (by simpa using hr)
  | @last field c value below row hbelow hrow =>
    have hwhole := (Gathers.fresh field c value below row).breadth_eq clear
    rw [hcovered.whole, List.countP_eq_zero.2 (by simpa using hbelow), Nat.zero_add,
      ← words_throughClosing_append_behindClosing, List.length_append] at hwhole
    -- Here all parts but brackets have gone into the row, so nothing can be missing.
    obtain rfl : kept = words (behindClosing ls) := hkept.eq_of_length (by omega)
    exact .inl (by rwa [words_throughClosing_append_behindClosing] at hr)

end Screening
