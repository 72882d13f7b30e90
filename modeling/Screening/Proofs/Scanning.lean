import Screening.Lexeme

/-!
# What scanning finds

`Lexeme.scan` finds the lexemes of a text.  Two facts about it carry everything else:

* what it finds is legal, that is of fixed spelling, a quoted text or a word (`legal_of_mem_scan`);
* a legal lexeme at the head of a text is found whole, as long as what follows does not run on from
  it (`scan_legal_append`); a bracket is found whatever follows (`scan_bracket`).

`Lexeme.Apart` is the condition on what follows.  It is a condition on one character, because the
fixed lexemes are tried before words and no quoted text reaches beyond its closing quote.

The scanner asks first how far a lexeme reaches (`Lexeme.reach`), and cuts off as much.  So most is
said about the reach: of a word, of a quoted text, of a fixed lexeme, and of a character that no
lexeme begins with (`reach_idle`).  Keywords need care.  They are found before words, so a word that
begins like one would be cut in two; such a word is not legal, and there is no rule with a field of
that name.
-/

set_option autoImplicit false

namespace Screening

namespace Lexeme

/-! ## Legal lexemes -/

/-- A word: word characters, and no keyword at the head that would be cut off. -/
structure IsWord (w : List Char) : Prop where
  ne_nil : w ≠ []
  chars : ∀ c ∈ w, isWordChar c = true
  not_and : ¬ ['A', 'N', 'D'] <+: w
  not_or : ¬ ['O', 'R'] <+: w

/-- The test for words. -/
def isWord (w : List Char) : Bool :=
  !w.isEmpty && w.all isWordChar && !(List.isPrefixOf ['A', 'N', 'D'] w) &&
    !(List.isPrefixOf ['O', 'R'] w)

theorem isWord_iff {w : List Char} : isWord w = true ↔ IsWord w := by
  simp only [isWord, Bool.and_eq_true, Bool.not_eq_true', List.isEmpty_iff, List.all_eq_true,
    Bool.eq_false_iff, ne_eq, List.isPrefixOf_iff_prefix]
  exact ⟨fun h => ⟨h.1.1.1, h.1.1.2, h.1.2, h.2⟩,
    fun h => ⟨⟨⟨h.ne_nil, h.chars⟩, h.not_and⟩, h.not_or⟩⟩

instance (w : List Char) : Decidable (IsWord w) := decidable_of_iff _ isWord_iff

/-- The spellings that a lexeme can have. -/
inductive Legal : List Char → Prop
  | fixed {w : List Char} (h : w ∈ Lexeme.fixed) : Legal w
  | quoted {s : List Char} (single : '\'' ∉ s) (double : '"' ∉ s) : Legal ('\'' :: s ++ ['\''])
  | word {w : List Char} (h : IsWord w) : Legal w

theorem fixed_ne_nil {w : List Char} (h : w ∈ fixed) : w ≠ [] := by
  revert w
  decide

theorem Legal.ne_nil {w : List Char} (h : Legal w) : w ≠ [] := by
  cases h with
  | fixed h => exact fixed_ne_nil h
  | quoted => exact List.cons_ne_nil _ _
  | word h => exact h.ne_nil

/-- There are no double quotes in lexemes; they have been made single ones before scanning. -/
theorem Legal.double_not_mem {w : List Char} (h : Legal w) : '"' ∉ w := by
  cases h with
  | fixed h =>
    revert w
    decide
  | quoted single double => simpa using double
  | word h =>
    intro hw
    exact absurd (h.chars _ hw) (by decide)

/-! ## What stands behind a lexeme

A lexeme may be followed by nothing, and otherwise one character decides. -/

/-- Nothing at the head of `rest` would lengthen a lexeme that stands before it. -/
def Apart (rest : List Char) : Prop := ∀ c ∈ rest.head?, isWordChar c = false ∧ c ≠ '=' ∧ c ≠ '>'

theorem apart_nil : Apart [] := by simp [Apart]

theorem apart_cons {c : Char} (hc : isWordChar c = false ∧ c ≠ '=' ∧ c ≠ '>') (r : List Char) :
    Apart (c :: r) := by
  simpa [Apart] using hc

/-- Nothing at the head of `rest` would lengthen a word that stands before it. -/
def EndsWord (rest : List Char) : Prop := ∀ c ∈ rest.head?, isWordChar c = false

theorem Apart.endsWord {rest : List Char} (h : Apart rest) : EndsWord rest := fun c hc => (h c hc).1

/-- Word characters that a text begins with are those of the word before `rest`. -/
theorem prefix_of_prefix_append {f w rest : List Char} (hf : f.all isWordChar = true)
    (hr : EndsWord rest) (h : f <+: w ++ rest) : f <+: w := by
  induction f generalizing w with
  | nil => exact List.nil_prefix
  | cons c f ih =>
    rw [List.all_cons, Bool.and_eq_true] at hf
    cases w with
    | nil =>
      obtain ⟨r, hr'⟩ := h
      rw [List.nil_append, List.cons_append] at hr'
      have hc := hr c (by simp [← hr'])
      rw [hf.1] at hc
      exact absurd hc (by decide)
    | cons d w =>
      rw [List.cons_append, List.cons_prefix_cons] at h
      rw [List.cons_prefix_cons]
      exact ⟨h.1, ih hf.2 h.2⟩

theorem takeWhile_isWordChar_append {w rest : List Char} (hw : ∀ c ∈ w, isWordChar c = true)
    (hr : EndsWord rest) : (w ++ rest).takeWhile isWordChar = w := by
  rw [List.takeWhile_append_of_pos hw]
  cases rest with
  | nil => simp
  | cons c r => simp [hr c rfl]

/-! ## How far a lexeme reaches

The three kinds of legal lexemes have one lemma each, and so has the order in which they are tried.
-/

theorem find?_fixed_eq_none_iff {cs : List Char} :
    fixed.find? (·.isPrefixOf cs) = none ↔ ∀ f ∈ fixed, ¬ f <+: cs := by
  simp

theorem reach_of_not_fixed {cs : List Char} (h : ∀ f ∈ fixed, ¬ f <+: cs) :
    reach cs = freeReach cs := by
  rw [reach, find?_fixed_eq_none_iff.2 h]

/-- The characters that the fixed lexemes other than the keywords begin with. -/
def signs : List Char := ['<', '>', '!', '=', '(', ')']

theorem isWordChar_of_mem_signs {c : Char} (h : c ∈ signs) : isWordChar c = false := by
  have hall : signs.all (!isWordChar ·) = true := by decide
  simpa using List.all_eq_true.1 hall c h

/-- A fixed lexeme is a keyword or begins with a sign. -/
theorem head_of_fixed {f : List Char} (h : f ∈ fixed) :
    f = ['A', 'N', 'D'] ∨ f = ['O', 'R'] ∨ ∃ c r, f = c :: r ∧ c ∈ signs := by
  simp only [fixed, List.mem_cons, List.not_mem_nil, or_false] at h
  rcases h with rfl | rfl | rfl | rfl | rfl | rfl | rfl | rfl | rfl | rfl | rfl
  all_goals first
    | exact .inl rfl
    | exact .inr (.inl rfl)
    | exact .inr (.inr ⟨_, _, rfl, by decide⟩)

/-- A fixed lexeme at the head of a text is one of the signs, if the text does not begin with a
word. -/
theorem sign_of_fixed_prefix {f rest : List Char} {c : Char} (hf : f ∈ fixed)
    (hp : f <+: c :: rest) (hc : isWordChar c = false) :
    ∃ r, f = c :: r ∧ r <+: rest ∧ c ∈ signs := by
  rcases head_of_fixed hf with rfl | rfl | ⟨d, r, rfl, hd⟩
  · rw [← (List.cons_prefix_cons.1 hp).1] at hc
    exact absurd hc (by decide)
  · rw [← (List.cons_prefix_cons.1 hp).1] at hc
    exact absurd hc (by decide)
  · obtain ⟨rfl, hr⟩ := List.cons_prefix_cons.1 hp
    exact ⟨r, rfl, hr, hd⟩

/-- A word reaches to its end, if what follows ends words. -/
theorem reach_word_append {w rest : List Char} (hw : IsWord w) (hr : EndsWord rest) :
    reach (w ++ rest) = w.length := by
  obtain ⟨c, r, rfl⟩ := List.exists_cons_of_ne_nil hw.ne_nil
  have hc : isWordChar c = true := hw.chars c List.mem_cons_self
  rw [reach_of_not_fixed]
  · rw [List.cons_append, freeReach, ← List.cons_append,
      takeWhile_isWordChar_append hw.chars hr]
    rintro r' h
    cases h
    exact absurd hc (by decide)
  · intro f hf h
    rcases head_of_fixed hf with rfl | rfl | ⟨d, s, rfl, hd⟩
    · exact hw.not_and (prefix_of_prefix_append (by decide) hr h)
    · exact hw.not_or (prefix_of_prefix_append (by decide) hr h)
    · rw [List.cons_append, List.cons_prefix_cons] at h
      rw [h.1] at hd
      exact absurd hc (by simp [isWordChar_of_mem_signs hd])

theorem takeWhile_ne_quote_append {s : List Char} (h : '\'' ∉ s) (rest : List Char) :
    (s ++ '\'' :: rest).takeWhile (· ≠ '\'') = s := by
  rw [List.takeWhile_append_of_pos fun c hc => by simpa using ne_of_mem_of_not_mem hc h]
  simp

/-- A quoted text reaches to its closing quote, whatever follows. -/
theorem reach_quoted_append {s : List Char} (single : '\'' ∉ s) (rest : List Char) :
    reach ('\'' :: s ++ ['\''] ++ rest) = ('\'' :: s ++ ['\'']).length := by
  rw [List.cons_append, List.cons_append, List.append_assoc, List.singleton_append,
    reach_of_not_fixed]
  · rw [freeReach, if_pos (by simp), takeWhile_ne_quote_append single]
    simp
  · intro f hf h
    rcases head_of_fixed hf with rfl | rfl | ⟨d, r, rfl, hd⟩
    · simp at h
    · simp at h
    · rw [(List.cons_prefix_cons.1 h).1] at hd
      exact absurd hd (by decide)

/-- A fixed lexeme reaches to its end, unless what follows makes a longer one of it. -/
theorem reach_fixed_append {w rest : List Char} (hw : w ∈ fixed) (hr : Apart rest) :
    reach (w ++ rest) = w.length := by
  simp only [fixed, List.mem_cons, List.not_mem_nil, or_false] at hw
  cases rest with
  | nil => rcases hw with rfl | rfl | rfl | rfl | rfl | rfl | rfl | rfl | rfl | rfl | rfl <;> rfl
  | cons c r =>
    obtain ⟨-, heq, hgt⟩ := hr c rfl
    rcases hw with rfl | rfl | rfl | rfl | rfl | rfl | rfl | rfl | rfl | rfl | rfl <;>
      simp [reach, fixed, heq.symm, hgt.symm]

/-- **A legal lexeme is found whole**, however the text goes on behind it. -/
theorem reach_legal_append {w rest : List Char} (hw : Legal w) (hr : Apart rest) :
    reach (w ++ rest) = w.length := by
  cases hw with
  | fixed h => exact reach_fixed_append h hr
  | quoted single => exact reach_quoted_append single rest
  | word h => exact reach_word_append h hr.endsWord

/-! ## Scanning a text piece by piece -/

/-- What reaches to its end is cut off, and the scanning goes on behind it. -/
theorem scan_of_reach {w rest : List Char} (hw : w ≠ [])
    (h : reach (w ++ rest) = w.length) : scan (w ++ rest) 0 = w :: scan rest 0 := by
  obtain ⟨c, r, rfl⟩ := List.exists_cons_of_ne_nil hw
  have htail : scan (r ++ rest) r.length = scan rest 0 := by
    rw [scan_eq_scan_drop, List.drop_left]
  rw [List.cons_append] at h ⊢
  rw [scan, h, List.length_cons]
  simp [htail]

/-- **A legal lexeme is found first**, and then the lexemes of what follows. -/
theorem scan_legal_append {w rest : List Char} (hw : Legal w) (hr : Apart rest) :
    scan (w ++ rest) 0 = w :: scan rest 0 :=
  scan_of_reach hw.ne_nil (reach_legal_append hw hr)

/-- A bracket stands apart from whatever follows it. -/
theorem scan_bracket {b : Char} (hb : b = '(' ∨ b = ')') (rest : List Char) :
    scan (b :: rest) 0 = [b] :: scan rest 0 := by
  refine scan_of_reach (List.cons_ne_nil b []) ?_
  rcases hb with rfl | rfl <;> simp [reach, fixed]

/-- No lexeme begins with this character. -/
def isIdle (c : Char) : Bool := !isWordChar c && c ≠ '\'' && c ∉ signs

theorem isIdle_iff {c : Char} :
    isIdle c = true ↔ isWordChar c = false ∧ c ≠ '\'' ∧ c ∉ signs := by
  simp [isIdle, and_assoc]

theorem reach_idle {c : Char} (hc : isIdle c = true) (rest : List Char) :
    reach (c :: rest) = 0 := by
  obtain ⟨hword, hquote, hsign⟩ := isIdle_iff.1 hc
  rw [reach_of_not_fixed]
  · rw [freeReach, List.takeWhile_cons_of_neg (by simp [hword]), List.length_nil]
    rintro r h
    exact hquote (List.cons.inj h).1
  · intro f hf h
    obtain ⟨r, -, -, hmem⟩ := sign_of_fixed_prefix hf h hword
    exact hsign hmem

/-- A character that no lexeme begins with leaves no trace. -/
theorem scan_idle {c : Char} (hc : isIdle c = true) (rest : List Char) :
    scan (c :: rest) 0 = scan rest 0 := by
  rw [scan, reach_idle hc]

theorem scan_idles {idles : List Char} (h : ∀ c ∈ idles, isIdle c = true) (rest : List Char) :
    scan (idles ++ rest) 0 = scan rest 0 := by
  induction idles with
  | nil => rfl
  | cons c idles ih =>
    obtain ⟨hc, hidles⟩ := List.forall_mem_cons.1 h
    rw [List.cons_append, scan_idle hc, ih hidles]

/-! ## What scanning finds is legal -/

/-- What is cut off is a word or a quoted text. -/
theorem legal_take_freeReach {cs : List Char} (hd : '"' ∉ cs) (hf : ∀ f ∈ fixed, ¬ f <+: cs)
    (h : freeReach cs ≠ 0) : Legal (cs.take (freeReach cs)) := by
  rw [freeReach.eq_def] at h ⊢
  split at h
  · rename_i r
    have hq : '\'' ∈ r := Decidable.byContradiction fun hq => h (if_neg hq)
    obtain ⟨s, t, rfl, single⟩ := List.eq_append_cons_of_mem hq
    rw [if_pos hq, takeWhile_ne_quote_append single, List.take_succ_cons,
      List.take_length_add_append]
    exact .quoted single fun hs => hd (by simp [hs])
  · rw [← List.prefix_iff_eq_take.1 (List.takeWhile_prefix isWordChar)]
    refine .word ⟨by simpa using h, List.all_eq_true.1 List.all_takeWhile, ?_, ?_⟩
    · exact fun hp => hf _ (by decide) (hp.trans (List.takeWhile_prefix _))
    · exact fun hp => hf _ (by decide) (hp.trans (List.takeWhile_prefix _))

/-- What is cut off is legal. -/
theorem legal_take_reach {cs : List Char} (hd : '"' ∉ cs) (h : reach cs ≠ 0) :
    Legal (cs.take (reach cs)) := by
  cases hf : fixed.find? (·.isPrefixOf cs) with
  | none =>
    have hr := reach_of_not_fixed (find?_fixed_eq_none_iff.1 hf)
    rw [hr] at h ⊢
    exact legal_take_freeReach hd (find?_fixed_eq_none_iff.1 hf) h
  | some w =>
    have hp : w <+: cs := by simpa using List.find?_some hf
    rw [reach, hf, ← List.prefix_iff_eq_take.1 hp]
    exact .fixed (List.mem_of_find?_eq_some hf)

/-- **Whatever is found is legal.**  The induction is the one of the scanner, which goes on behind
what it has found or drops a character. -/
theorem legal_of_mem_scan {cs w : List Char} {n : Nat} (hd : '"' ∉ cs) (hw : w ∈ scan cs n) :
    Legal w := by
  induction cs generalizing n with
  | nil => simp [scan] at hw
  | cons c r ih =>
    have hr : '"' ∉ r := fun h => hd (List.mem_cons_of_mem _ h)
    cases n with
    | succ n =>
      rw [scan] at hw
      exact ih hr hw
    | zero =>
      rw [scan] at hw
      split at hw
      · exact ih hr hw
      · rename_i n hn
        -- The lexeme is what the reach takes, and the rest is scanned from behind it.
        rcases List.mem_cons.1 hw with rfl | hw
        · rw [show n + 1 = reach (c :: r) from hn.symm]
          exact legal_take_reach hd (by omega)
        · exact ih hr hw

end Lexeme

/-! ## The lexemes of a text

A text is scanned with its double quotes turned into single ones. -/

open Lexeme

theorem scan_singleQuoted (rule : String) :
    scan (singleQuoted rule).toList 0 = (lexemes rule).map String.toList := by
  simp [lexemes, Function.comp_def]

theorem lexemes_eq_of_scan {rule : String} {ls : List String}
    (h : scan (singleQuoted rule).toList 0 = ls.map String.toList) : lexemes rule = ls := by
  rw [lexemes, h, List.map_map]
  exact List.map_id'' (fun l => String.ofList_toList) _

end Screening
