import Screening.Proofs.Gaps
import Screening.Proofs.Rendering
import Screening.Text.Blank

/-!
# Two texts with blanks between them

The lexemes of two texts with blanks between them are those of the first followed by those of the
second, if the quotes in the first are even in number (`lexemes_append`).  Only a quoted text can
hold a blank, and an even number of quotes leaves none open: the lexemes hold quotes in pairs and
the gaps hold one at most, so the gaps hold none (`Cut.quote_not_mem_gaps`).

What is cut that way stays cut in front of a blank (`Cut.append`), whatever stands behind it.

The scanner is not looked at for this.  What it does is known from `Screening.Proofs.Gaps`: it finds
the one way to cut a text.  So it is enough to put two cuts side by side and to see that they make
one: a gap in front of a blank is still a gap, and a lexeme is still whole, since no fixed lexeme
goes on over a blank and no word does.
-/

set_option autoImplicit false

namespace Screening

open Lexeme

namespace Lexeme

/-! ## Quotes in pairs -/

/-- A legal lexeme has two quotes or none. -/
theorem Legal.count_quote {w : List Char} (h : Legal w) : w.count '\'' % 2 = 0 := by
  cases h with
  | fixed h =>
    revert w
    decide
  | quoted single _ => simp [List.count_eq_zero.2 single]
  | word h =>
    have hnot : '\'' ∉ w := fun hmem => absurd (h.chars _ hmem) (by decide)
    rw [List.count_eq_zero.2 hnot]

theorem Cut.count_quote_lexemes {text : List Char} {gaps ws : List (List Char)}
    (h : Cut text gaps ws) : ws.flatten.count '\'' % 2 = 0 := by
  induction h with
  | nil => rfl
  | skip _ _ ih => exact ih
  | take h _ ih =>
    have hw := h.legal.count_quote
    rw [List.flatten_cons, List.count_append]
    omega

/-- No quote is dropped from a text with an even number of them. -/
theorem Cut.quote_not_mem_gaps {text : List Char} {gaps ws : List (List Char)}
    (h : Cut text gaps ws) (heven : text.count '\'' % 2 = 0) : '\'' ∉ gaps.flatten := by
  have htext := h.count_eq '\''
  have hgaps := h.count_quote_gaps_le
  have hlexemes := h.count_quote_lexemes
  exact List.count_eq_zero.1 (by omega)

/-! ## In front of a blank -/

/-- Letters, digits and the underscore are visible ASCII characters. -/
theorem toNat_of_isWordChar {c : Char} (h : isWordChar c = true) :
    32 < c.toNat ∧ c.toNat < 128 := by
  have between (low high : Char) (hlow : low.val ≤ c.val) (hhigh : c.val ≤ high.val)
      (hvisible : 32 < low.toNat ∧ high.toNat < 128) : 32 < c.toNat ∧ c.toNat < 128 :=
    ⟨Nat.lt_of_lt_of_le hvisible.1 hlow, Nat.lt_of_le_of_lt hhigh hvisible.2⟩
  rcases Bool.or_eq_true_iff.1 h with halphanum | hunderscore
  · rcases Bool.or_eq_true_iff.1 halphanum with halpha | hdigit
    · rcases Bool.or_eq_true_iff.1 halpha with hupper | hlower
      · obtain ⟨hlow, hhigh⟩ := of_decide_eq_true hupper
        exact between 'A' 'Z' hlow hhigh (by decide)
      · obtain ⟨hlow, hhigh⟩ := Bool.and_eq_true_iff.1 hlower
        exact between 'a' 'z' (of_decide_eq_true hlow) (of_decide_eq_true hhigh) (by decide)
    · obtain ⟨hlow, hhigh⟩ := Bool.and_eq_true_iff.1 hdigit
      exact between '0' '9' (of_decide_eq_true hlow) (of_decide_eq_true hhigh) (by decide)
  · obtain rfl := beq_iff_eq.1 hunderscore
    decide

/-- Lexemes begin with visible ASCII characters. -/
theorem isIdle_of_toNat {c : Char} (h : c.toNat ≤ 32 ∨ 128 ≤ c.toNat) : isIdle c = true := by
  have hne (d : Char) (hd : 32 < d.toNat ∧ d.toNat < 128) : c ≠ d := by
    rintro rfl
    omega
  have hsigns : ∀ d ∈ signs, 32 < d.toNat ∧ d.toNat < 128 := by simp [signs]
  refine isIdle_iff.2 ⟨Bool.eq_false_iff.2 fun hword => ?_, hne '\'' (by decide),
    fun hmem => hne c (hsigns c hmem) rfl⟩
  have hvisible := toNat_of_isWordChar hword
  omega

/-- No lexeme begins with a blank, of whatever kind. -/
theorem isIdle_of_isBlank {c : Char} (h : Text.isBlank c = true) : isIdle c = true := by
  refine isIdle_of_toNat ?_
  by_contra hvisible
  -- Visible ASCII lies in the gap behind the second run.
  rw [Text.isBlank, Text.blankRuns, Text.inRuns, if_neg (by omega), if_neg (by omega),
    Text.inRuns, if_neg (by omega), if_neg (by omega), Text.inRuns, if_pos (by omega)] at h
  exact absurd h (by decide)

theorem not_mem_fixed_of_isIdle {c : Char} (hc : isIdle c = true) : ∀ f ∈ fixed, c ∉ f := by
  have hall : (fixed.all fun f => f.all (!isIdle ·)) = true := by decide
  intro f hf hmem
  have hnot := List.all_eq_true.1 (List.all_eq_true.1 hall f hf) c hmem
  rw [hc] at hnot
  exact absurd hnot (by decide)

/-- A prefix that lacks a character ends before it. -/
theorem prefix_of_not_mem {f xs ys : List Char} {c : Char} (h : f <+: xs ++ c :: ys)
    (hc : c ∉ f) : f <+: xs := by
  rcases List.prefix_or_prefix_of_prefix h (List.prefix_append xs (c :: ys)) with hle | hle
  · exact hle
  · obtain ⟨more, rfl⟩ := hle
    have hmore : more <+: c :: ys := (List.prefix_append_right_inj xs).1 h
    cases more with
    | nil => simp
    | cons d more =>
      rw [(List.cons_prefix_cons.1 hmore).1] at hc
      simp at hc

variable {c : Char} (hc : isIdle c = true) {more : List Char}
include hc

/-- What is negligible stays so in front of a blank.  A quote is left out: behind the blank there
may be another one. -/
theorem Negligible.append {d : Char} {rest : List Char} (h : Negligible d rest) (hd : d ≠ '\'') :
    Negligible d (rest ++ c :: more) where
  not_wordChar := h.not_wordChar
  not_sign := h.not_sign
  not_unequal hbang := by
    cases rest with
    | nil =>
      rintro ⟨⟩
      exact absurd hc (by decide)
    | cons e rest => exact h.not_unequal hbang
  not_quote hquote := absurd hquote hd

/-- A lexeme that is whole is whole in front of a blank as well. -/
theorem Whole.append {w rest : List Char} (h : Whole w rest) : Whole w (rest ++ c :: more) where
  legal := h.legal
  longest f hf hp := by
    rw [← List.append_assoc] at hp
    exact h.longest f hf (prefix_of_not_mem hp (not_mem_fixed_of_isIdle hc f hf))
  endsWord hw := by
    cases rest with
    | nil =>
      rintro d ⟨⟩
      exact (isIdle_iff.1 hc).1
    | cons e rest => exact h.endsWord hw

/-- A cut without quotes in its gaps goes on with any cut of a text that begins with a blank. -/
theorem Cut.append {text : List Char} {gaps ws gaps' ws' : List (List Char)} (h : Cut text gaps ws)
    (hquote : '\'' ∉ gaps.flatten) (h' : Cut (c :: more) gaps' ws') :
    ∃ all, Cut (text ++ c :: more) all (ws ++ ws') := by
  induction h with
  | nil => exact ⟨gaps', h'⟩
  | @skip d rest gap gaps ws h _ ih =>
    rw [List.flatten_cons, List.cons_append, List.mem_cons, not_or] at hquote
    obtain ⟨all, hall⟩ := ih hquote.2
    obtain ⟨first, others, rfl⟩ := hall.exists_cons
    exact ⟨_, .skip (h.append hc (Ne.symm hquote.1)) hall⟩
  | @take w rest gaps ws h _ ih =>
    obtain ⟨all, hall⟩ := ih hquote
    rw [List.append_assoc]
    exact ⟨_, .take (h.append hc) hall⟩

omit hc in
/-- What is found in both texts is what is found in the one and in the other. -/
theorem scan_append {text idles rest : List Char} (hidles : idles ≠ [])
    (h : ∀ d ∈ idles, isIdle d = true) (hd : '"' ∉ text) (hd' : '"' ∉ idles ++ rest)
    (heven : text.count '\'' % 2 = 0) :
    scan (text ++ (idles ++ rest)) 0 = scan text 0 ++ scan rest 0 := by
  obtain ⟨gaps, hcut⟩ := exists_cut hd 0
  obtain ⟨gaps', hcut'⟩ := exists_cut hd' 0
  rw [List.drop_zero] at hcut hcut'
  rw [scan_idles h] at hcut'
  obtain ⟨d, idles, rfl⟩ := List.exists_cons_of_ne_nil hidles
  obtain ⟨all, hall⟩ := hcut.append (h d List.mem_cons_self) (hcut.quote_not_mem_gaps heven) hcut'
  exact hall.eq_scan.symm

end Lexeme

/-- How many quotes of either kind a text has. -/
def quotes (text : String) : Nat := text.toList.countP fun c => c = '\'' ∨ c = '"'

theorem count_singleQuoted (text : String) :
    (singleQuoted text).toList.count '\'' = quotes text := by
  rw [singleQuoted, String.toList_map, List.count_eq_countP, List.countP_map, quotes]
  congr 1
  funext c
  by_cases hc : c = '"' <;> simp [hc, beq_eq_decide]

theorem toList_singleQuoted_append (first second : String) :
    (singleQuoted (first ++ second)).toList
      = (singleQuoted first).toList ++ (singleQuoted second).toList := by
  simp [singleQuoted]

/-- **Texts with blanks between them are read apart.**  Where the quotes of the first text are even
in number, the lexemes of both are those of the first and then those of the second, whatever else
the two texts hold. -/
theorem lexemes_append (first blanks second : String) (hblanks : blanks ≠ "")
    (hblank : ∀ c ∈ blanks.toList, Text.isBlank c = true) (heven : quotes first % 2 = 0) :
    lexemes (first ++ blanks ++ second) = lexemes first ++ lexemes second := by
  have hsame : singleQuoted blanks = blanks :=
    Rule.singleQuoted_of_double_not_mem fun hmem => absurd (hblank _ hmem) (by decide)
  have htext : (singleQuoted (first ++ blanks ++ second)).toList
      = (singleQuoted first).toList ++ (blanks.toList ++ (singleQuoted second).toList) := by
    rw [toList_singleQuoted_append, toList_singleQuoted_append, hsame, List.append_assoc]
  have hdouble : '"' ∉ blanks.toList ++ (singleQuoted second).toList := by
    rw [List.mem_append, not_or]
    exact ⟨fun hmem => absurd (hblank _ hmem) (by decide), double_not_mem_singleQuoted second⟩
  have hscan := scan_append (by simpa using hblanks) (fun c hc => isIdle_of_isBlank (hblank c hc))
    (double_not_mem_singleQuoted first) hdouble (by rw [count_singleQuoted, heven])
  refine lexemes_eq_of_scan ?_
  rw [htext, hscan, scan_singleQuoted, scan_singleQuoted, List.map_append]

/-- A quoted text written with both quotes, a stray sign and half a keyword before the blanks, and
the other half and a quote that is never closed behind them. -/
theorem lexemes_append_of_halves :
    quotes "n = \"Bob' !AN" % 2 = 0 ∧ (∀ c ∈ "\u3000\t".toList, Text.isBlank c = true) ∧
      lexemes ("n = \"Bob' !AN" ++ "\u3000\t" ++ "D => 'x")
        = ["n", "=", "'Bob'", "AN", "D", "=>", "x"] := by
  have heven : quotes "n = \"Bob' !AN" % 2 = 0 := by decide
  have hblank : ∀ c ∈ "\u3000\t".toList, Text.isBlank c = true :=
    List.all_eq_true.1 (by decide)
  refine ⟨heven, hblank, ?_⟩
  rw [lexemes_append _ _ _ (by decide) hblank heven]
  decide +kernel

/-- With a quote open at the end of the first text the blanks may lie in a quoted one. -/
example : lexemes ("n = 'a" ++ " " ++ "b'") = ["n", "=", "'a b'"] ∧
    lexemes "n = 'a" ++ lexemes "b'" = ["n", "=", "a", "b"] := by
  decide +kernel

end Screening
