import Screening.Proofs.Origin
import Screening.Proofs.Rendering

/-!
# Taking a text apart and joining it again

The lexemes of a text are legal, and any legal lexemes are the lexemes of some text: put a blank
between each two of them.  So the lexemes of a text, joined by blanks, have themselves as lexemes,
and the joined text reads as the first one did, as the same rule or with the same error
(`lexemes_joined`).

One blank is enough between any two lexemes, although `<` and `=` run together without it and a word
begins wherever the one before it ends.  What stands before the blank cannot reach over it
(`Lexeme.Apart`), and no lexeme begins with it (`Lexeme.isIdle`).  The induction is on the list of
lexemes, the last of which has no blank behind it.

Not every text is one that is joined so, but every text reads like one: whatever stands between its
lexemes is dropped, and a single blank does the same.
-/

set_option autoImplicit false

namespace Screening

open Lexeme

namespace Lexeme

/-- Legal lexemes with a blank between each two of them are found one by one. -/
theorem scan_intercalate {ws : List (List Char)} (h : ∀ w ∈ ws, Legal w) :
    scan ([' '].intercalate ws) 0 = ws := by
  induction ws with
  | nil => rfl
  | cons w rest ih =>
    obtain ⟨hw, hrest⟩ := List.forall_mem_cons.1 h
    cases rest with
    | nil =>
      have hlast := scan_legal_append hw apart_nil
      rw [List.append_nil] at hlast
      rw [List.intercalate_singleton, hlast]
      rfl
    | cons v rest =>
      have hjoined : [' '].intercalate (w :: v :: rest)
          = w ++ ' ' :: [' '].intercalate (v :: rest) := by
        simp [List.intercalate_cons_cons]
      rw [hjoined, scan_legal_blank hw, ih hrest]

end Lexeme

/-- Neither a legal lexeme nor a blank brings a double quote into the text. -/
theorem double_not_mem_intercalate {ls : List String} (h : ∀ l ∈ ls, Legal l.toList) :
    '"' ∉ (" ".intercalate ls).toList := by
  induction ls with
  | nil => simp
  | cons l rest ih =>
    obtain ⟨hl, hrest⟩ := List.forall_mem_cons.1 h
    cases rest with
    | nil => simpa using hl.double_not_mem
    | cons m rest =>
      rw [String.intercalate_cons_cons, String.toList_append, String.toList_append,
        List.mem_append, List.mem_append]
      rintro ((hmem | hmem) | hmem)
      · exact hl.double_not_mem hmem
      · exact absurd hmem (by decide)
      · exact ih hrest hmem

/-- Legal lexemes are the lexemes of the text that joins them by blanks. -/
theorem lexemes_intercalate {ls : List String} (h : ∀ l ∈ ls, Legal l.toList) :
    lexemes (" ".intercalate ls) = ls := by
  have hscan : scan ([' '].intercalate (ls.map String.toList)) 0 = ls.map String.toList :=
    scan_intercalate (by simpa using h)
  have hblank : " ".toList = [' '] := rfl
  refine lexemes_eq_of_scan ?_
  rw [Rule.singleQuoted_of_double_not_mem (double_not_mem_intercalate h),
    String.toList_intercalate, hblank, hscan]

/-- **Joining and taking apart.**  The lexemes of a text are legal; legal lexemes joined by blanks
are found again; and so a text and its lexemes joined by blanks have the same lexemes, and read as
the same rule or with the same error. -/
theorem lexemes_joined :
    (∀ text, ∀ l ∈ lexemes text, Legal l.toList) ∧
      (∀ ls : List String, (∀ l ∈ ls, Legal l.toList) → lexemes (" ".intercalate ls) = ls) ∧
      ∀ text, lexemes (" ".intercalate (lexemes text)) = lexemes text ∧
        Rule.read (" ".intercalate (lexemes text)) = Rule.read text := by
  refine ⟨fun text l hl => legal_of_mem_lexemes hl, fun ls h => lexemes_intercalate h,
    fun text => ?_⟩
  have hagain : lexemes (" ".intercalate (lexemes text)) = lexemes text :=
    lexemes_intercalate fun l hl => legal_of_mem_lexemes hl
  exact ⟨hagain, congrArg Rule.ofLexemes hagain⟩

/-- Signs that would run together, a keyword in front of a word, a quoted text that looks like a
rule of its own, and a word that only begins like a keyword. -/
theorem lexemes_joined_of_close_neighbours :
    let ls := ["<", "=", "=>", "OR", "DER", "(", "x1", "'a AND (b = 1)'", "ANd", ")", "7"]
    (∀ l ∈ ls, Legal l.toList) ∧
      lexemes "< = => OR DER ( x1 'a AND (b = 1)' ANd ) 7" = ls := by
  intro ls
  have hkinds : ∀ l ∈ ls, l.toList ∈ fixed ∨ IsWord l.toList ∨ l = "'a AND (b = 1)'" := by decide
  have hlegal : ∀ l ∈ ls, Legal l.toList := by
    intro l hl
    obtain hfixed | hword | rfl := hkinds l hl
    · exact .fixed hfixed
    · exact .word hword
    · exact .quoted (s := "a AND (b = 1)".toList) (by decide) (by decide)
  exact ⟨hlegal, lexemes_joined.2.1 ls hlegal⟩

end Screening
