import Screening.Proofs.Origin

/-!
# What lies between the lexemes

Scanning drops every character at which no lexeme begins and says nothing about it.  `Cut` describes
without scanning how a text falls into gaps and lexemes: the characters of a gap are negligible
where they stand, and the lexemes are whole.

Every text is cut by its lexemes (`exists_cut`) and by no others (`Cut.eq_scan`), so `Cut` says all
that scanning does.  A gap can hold a quote, but then no quote stands behind it, and so the gaps of
a text hold one quote at most (`lexemes_between_gaps`).

Whether a character is negligible depends on what follows in two places only.  An exclamation mark
is a lexeme together with an equals sign, and negligible otherwise; a quote opens a quoted text if
there is another one behind it, and is negligible otherwise.  Whether a lexeme is whole depends on
one character behind it.
-/

set_option autoImplicit false

namespace Screening

open Lexeme

namespace Lexeme

/-! ## Gaps and lexemes

Both conditions speak about the place in which a character or a lexeme stands, that is about what
follows. -/

/-- No lexeme begins with `c` where `rest` comes next. -/
structure Negligible (c : Char) (rest : List Char) : Prop where
  not_wordChar : isWordChar c = false
  not_sign : c ∉ ['(', ')', '<', '>', '=']
  not_unequal : c = '!' → rest.head? ≠ some '='
  not_quote : c = '\'' → '\'' ∉ rest

/-- A lexeme that goes no further where `rest` comes next. -/
structure Whole (w rest : List Char) : Prop where
  legal : Legal w
  longest : ∀ f ∈ fixed, f <+: w ++ rest → f.length ≤ w.length
  endsWord : IsWord w → EndsWord rest

/-- `Cut text gaps ws`: the text is a gap, a lexeme, a gap and so on up to a last gap, where each
gap may be empty.  What is negligible or whole is so in front of all the rest of the text. -/
inductive Cut : List Char → List (List Char) → List (List Char) → Prop
  | nil : Cut [] [[]] []
  | skip {c : Char} {rest gap : List Char} {gaps ws : List (List Char)}
      (h : Negligible c rest) (behind : Cut rest (gap :: gaps) ws) :
      Cut (c :: rest) ((c :: gap) :: gaps) ws
  | take {w rest : List Char} {gaps ws : List (List Char)}
      (h : Whole w rest) (behind : Cut rest gaps ws) : Cut (w ++ rest) ([] :: gaps) (w :: ws)

/-- A gap, a lexeme, a gap and so on, put together again. -/
def weave : List (List Char) → List (List Char) → List Char
  | gap :: gaps, w :: ws => gap ++ (w ++ weave gaps ws)
  | gaps, _ => gaps.flatten

namespace Cut

variable {text : List Char} {gaps ws : List (List Char)}

theorem exists_cons (h : Cut text gaps ws) : ∃ gap more, gaps = gap :: more := by
  cases h with
  | nil => exact ⟨_, _, rfl⟩
  | skip => exact ⟨_, _, rfl⟩
  | take => exact ⟨_, _, rfl⟩

/-- There is a gap before every lexeme and one behind the last. -/
theorem length_gaps (h : Cut text gaps ws) : gaps.length = ws.length + 1 := by
  induction h with
  | nil => rfl
  | skip _ _ ih => exact ih
  | take _ _ ih => rw [List.length_cons, List.length_cons, ih]

/-- Gaps and lexemes put together again are the text. -/
theorem weave_eq (h : Cut text gaps ws) : weave gaps ws = text := by
  induction h with
  | nil => rfl
  | @skip c rest gap gaps ws _ _ ih =>
    rw [← ih]
    cases ws <;> rfl
  | take _ _ ih => rw [weave, ih, List.nil_append]

/-- Every character of the text is in a gap or in a lexeme. -/
theorem count_eq (h : Cut text gaps ws) (c : Char) :
    text.count c = gaps.flatten.count c + ws.flatten.count c := by
  induction h with
  | nil => rfl
  | @skip d rest gap gaps ws _ _ ih =>
    simp only [List.flatten_cons, List.cons_append, List.count_cons, List.count_append] at ih ⊢
    omega
  | take _ _ ih =>
    simp only [List.flatten_cons, List.nil_append, List.count_append] at ih ⊢
    omega

/-- A quote that is dropped is the last quote of the text. -/
theorem count_quote_gaps_le (h : Cut text gaps ws) : gaps.flatten.count '\'' ≤ 1 := by
  induction h with
  | nil => decide
  | @skip c rest gap gaps ws h behind ih =>
    rw [List.flatten_cons, List.cons_append, List.count_cons]
    by_cases hc : c = '\''
    · have hrest := behind.count_eq '\''
      rw [List.count_eq_zero.2 (h.not_quote hc), List.flatten_cons] at hrest
      split <;> omega
    · rw [if_neg (by simpa using hc)]
      exact ih
  | take _ _ ih => exact ih

end Cut

/-! ## Scanning cuts a text

The reach of a lexeme is compared with what is negligible and what is whole, in both directions. -/

/-- No fixed lexeme begins a later one in the order in which they are tried. -/
theorem pairwise_fixed : fixed.Pairwise fun v w => ¬ v <+: w := by decide

theorem not_isWord_of_mem_fixed {w : List Char} (h : w ∈ fixed) : ¬ IsWord w := by
  revert w
  decide

/-- The fixed lexeme that is found is the longest one there. -/
theorem length_le_of_find?_fixed {cs v f : List Char}
    (h : fixed.find? (·.isPrefixOf cs) = some v) (hf : f ∈ fixed) (hp : f <+: cs) :
    f.length ≤ v.length := by
  obtain ⟨hv, before, after, hfixed, hbefore⟩ := List.find?_eq_some_iff_append.1 h
  have hv : v <+: cs := List.isPrefixOf_iff_prefix.1 hv
  have hpair := hfixed ▸ pairwise_fixed
  rw [hfixed] at hf
  rcases List.mem_append.1 hf with hf | hf
  · have hnot := hbefore f hf
    rw [List.isPrefixOf_iff_prefix.2 hp] at hnot
    exact absurd hnot (by decide)
  · rcases List.mem_cons.1 hf with rfl | hf
    · exact Nat.le_refl _
    · have hnot : ¬ v <+: f := (List.pairwise_cons.1 (List.pairwise_append.1 hpair).2.1).1 f hf
      rcases List.prefix_or_prefix_of_prefix hp hv with hle | hle
      · exact hle.length_le
      · exact absurd hle hnot

/-- What is reached at the head of a text, and why. -/
theorem reach_cases (cs : List Char) :
    (∃ v ∈ fixed, v <+: cs ∧ reach cs = v.length ∧ ∀ f ∈ fixed, f <+: cs → f.length ≤ v.length) ∨
      (∀ f ∈ fixed, ¬ f <+: cs) ∧ reach cs = freeReach cs := by
  cases h : fixed.find? (·.isPrefixOf cs) with
  | none =>
    have hnone := find?_fixed_eq_none_iff.1 h
    exact .inr ⟨hnone, reach_of_not_fixed hnone⟩
  | some v =>
    refine .inl ⟨v, List.mem_of_find?_eq_some h, ?_, ?_, fun f => length_le_of_find?_fixed h⟩
    · simpa using List.find?_some h
    · rw [reach, h]

/-- A word is found up to its end. -/
theorem endsWord_drop_freeReach {cs : List Char} (h : IsWord (cs.take (freeReach cs))) :
    EndsWord (cs.drop (freeReach cs)) := by
  rw [freeReach.eq_def] at h ⊢
  split at h
  -- What begins with a quote is no word, since a word has no quote in it.
  · rename_i r
    generalize (if '\'' ∈ r then _ else 0) = n at h
    cases n with
    | zero => exact absurd rfl h.ne_nil
    | succ n => exact absurd (h.chars '\'' List.mem_cons_self) (by decide)
  · have hdrop : cs.drop (cs.takeWhile isWordChar).length = cs.dropWhile isWordChar := by
      calc cs.drop (cs.takeWhile isWordChar).length
          = (cs.takeWhile isWordChar ++ cs.dropWhile isWordChar).drop
              (cs.takeWhile isWordChar).length := by rw [List.takeWhile_append_dropWhile]
        _ = cs.dropWhile isWordChar := List.drop_left
    intro c hc
    have hhead := List.head?_dropWhile_not isWordChar cs
    rw [hdrop] at hc
    rwa [Option.mem_def.1 hc] at hhead

/-- What is found is whole. -/
theorem whole_take_reach {cs : List Char} (hd : '"' ∉ cs) (h : reach cs ≠ 0) :
    Whole (cs.take (reach cs)) (cs.drop (reach cs)) where
  legal := legal_take_reach hd h
  longest f hf hp := by
    rw [List.take_append_drop] at hp
    rcases reach_cases cs with ⟨v, -, hv, hreach, hlongest⟩ | ⟨hnone, -⟩
    · rw [hreach, ← List.prefix_iff_eq_take.1 hv]
      exact hlongest f hf hp
    · exact absurd hp (hnone f hf)
  endsWord hw := by
    rcases reach_cases cs with ⟨v, hmem, hv, hreach, -⟩ | ⟨-, hreach⟩
    · rw [hreach, ← List.prefix_iff_eq_take.1 hv] at hw
      exact absurd hw (not_isWord_of_mem_fixed hmem)
    · rw [hreach] at hw ⊢
      exact endsWord_drop_freeReach hw

/-- Neither a quoted text nor a word begins at characters that no word has, but for a quote with
another one behind it. -/
theorem freeReach_eq_zero_iff {c : Char} {rest : List Char} :
    freeReach (c :: rest) = 0 ↔ isWordChar c = false ∧ (c = '\'' → '\'' ∉ rest) := by
  by_cases hc : c = '\''
  · subst hc
    have hword : isWordChar '\'' = false := by decide
    rw [freeReach]
    split <;> simp [*]
  · rw [freeReach]
    · by_cases hword : isWordChar c <;> simp [hword, hc]
    · rintro r ⟨⟩
      exact hc rfl

/-- Where no word begins, a fixed lexeme does if there is a sign, a `!` only in front of `=`. -/
theorem not_fixed_iff {c : Char} {rest : List Char} (hc : isWordChar c = false) :
    (∀ f ∈ fixed, ¬ f <+: c :: rest) ↔
      c ∉ ['(', ')', '<', '>', '='] ∧ (c = '!' → rest.head? ≠ some '=') := by
  constructor
  · intro h
    have hsigns : ∀ d ∈ ['(', ')', '<', '>', '='], [d] ∈ fixed := by simp [fixed]
    refine ⟨fun hmem => h [c] (hsigns c hmem) ⟨rest, rfl⟩, ?_⟩
    rintro rfl heq
    obtain ⟨r, rfl⟩ := List.head?_eq_some_iff.1 heq
    exact h ['!', '='] (by decide) ⟨r, rfl⟩
  · rintro ⟨hsign, hunequal⟩ f hf hp
    -- A fixed lexeme that begins with no letter begins with a sign, and of the signs only `!` needs
    -- another one behind it.
    obtain ⟨r, rfl, hr, hmem⟩ := sign_of_fixed_prefix hf hp hc
    have hrest : ∀ d ∈ signs, d ∉ ['(', ')', '<', '>', '='] → d = '!' := by simp [signs]
    obtain rfl := hrest c hmem hsign
    have hlong : ∀ f ∈ fixed, f.head? = some '!' → f = ['!', '='] := by decide
    cases hlong _ hf rfl
    obtain ⟨more, rfl⟩ := hr
    exact hunequal rfl rfl

/-- What is dropped is what is negligible. -/
theorem reach_eq_zero_iff {c : Char} {rest : List Char} :
    reach (c :: rest) = 0 ↔ Negligible c rest := by
  constructor
  · intro h
    rcases reach_cases (c :: rest) with ⟨v, hmem, -, hreach, -⟩ | ⟨hnone, hreach⟩
    · rw [h] at hreach
      exact absurd (List.length_eq_zero_iff.1 hreach.symm) (fixed_ne_nil hmem)
    · rw [h] at hreach
      obtain ⟨hword, hquote⟩ := freeReach_eq_zero_iff.1 hreach.symm
      obtain ⟨hsign, hunequal⟩ := (not_fixed_iff hword).1 hnone
      exact ⟨hword, hsign, hunequal, hquote⟩
  · intro h
    have hnone := (not_fixed_iff h.not_wordChar).2 ⟨h.not_sign, h.not_unequal⟩
    rw [reach_of_not_fixed hnone, freeReach_eq_zero_iff]
    exact ⟨h.not_wordChar, h.not_quote⟩

/-- The lexemes that scanning finds cut the text that is left to scan. -/
theorem exists_cut {cs : List Char} (hd : '"' ∉ cs) (n : Nat) :
    ∃ gaps, Cut (cs.drop n) gaps (scan cs n) := by
  induction cs generalizing n with
  | nil => exact ⟨[[]], by rw [List.drop_nil]; exact .nil⟩
  | cons c r ih =>
    have hr : '"' ∉ r := fun h => hd (List.mem_cons_of_mem _ h)
    cases n with
    -- The scanner is still inside of a lexeme that has been cut off already.
    | succ n => exact ih hr n
    | zero =>
      rw [List.drop_zero, scan]
      split
      · rename_i hreach
        obtain ⟨gaps, hcut⟩ := ih hr 0
        obtain ⟨gap, more, rfl⟩ := hcut.exists_cons
        exact ⟨_, .skip (reach_eq_zero_iff.1 hreach) hcut⟩
      · rename_i n hreach
        obtain ⟨gaps, hcut⟩ := ih hr n
        have hwhole := whole_take_reach hd (by omega)
        rw [hreach] at hwhole
        have htake := Cut.take hwhole hcut
        rw [List.take_append_drop] at htake
        exact ⟨[] :: gaps, htake⟩

/-- What is whole is found. -/
theorem Whole.reach_eq {w rest : List Char} (h : Whole w rest) : reach (w ++ rest) = w.length := by
  have hlegal := h.legal
  cases hlegal with
  | fixed hw =>
    rcases reach_cases (w ++ rest) with ⟨v, hmem, hv, hreach, hlongest⟩ | ⟨hnone, -⟩
    · have hle := h.longest v hmem hv
      have hge := hlongest w hw (List.prefix_append w rest)
      rw [hreach]
      omega
    · exact absurd (List.prefix_append w rest) (hnone w hw)
  | quoted single => exact reach_quoted_append single rest
  | word hw => exact reach_word_append hw (h.endsWord hw)

/-- A text is cut by no other lexemes. -/
theorem Cut.eq_scan {text : List Char} {gaps ws : List (List Char)} (h : Cut text gaps ws) :
    ws = scan text 0 := by
  induction h with
  | nil => rfl
  | skip h _ ih => rw [scan, reach_eq_zero_iff.2 h, ← ih]
  | take h _ ih => rw [scan_of_reach h.legal.ne_nil h.reach_eq, ← ih]

end Lexeme

/-- **What gets lost.**  A text with its quotes made single is a gap, a lexeme, a gap and so on up
to a last gap, with all its lexemes in order; all gaps together hold one quote at most.  No other
lexemes cut the text. -/
theorem lexemes_between_gaps (rule : String) :
    (∃ gaps, Cut (singleQuoted rule).toList gaps ((lexemes rule).map String.toList) ∧
      gaps.length = (lexemes rule).length + 1 ∧
      weave gaps ((lexemes rule).map String.toList) = (singleQuoted rule).toList ∧
      gaps.flatten.count '\'' ≤ 1) ∧
    ∀ gaps ws, Cut (singleQuoted rule).toList gaps ws → ws = (lexemes rule).map String.toList := by
  rw [← scan_singleQuoted]
  obtain ⟨gaps, hcut⟩ := exists_cut (double_not_mem_singleQuoted rule) 0
  rw [List.drop_zero] at hcut
  refine ⟨⟨gaps, hcut, ?_, hcut.weave_eq, hcut.count_quote_gaps_le⟩, fun gaps ws h => h.eq_scan⟩
  rw [hcut.length_gaps, scan_singleQuoted, List.length_map]

/-- Dropped: a dot, a `!` by itself and a quote with no other behind it.  Kept: a letter that is not
ASCII, between quotes. -/
example : lexemes "age>=3.5 ! \"é\" 'x" = ["age", ">=", "3", "5", "'é'", "x"] := by
  decide +kernel

end Screening
