import Mathlib.Control.Monad.Basic
import Screening.Operation
import Screening.Proofs.Assembly

/-!
# Joining rules is conjunction

`Operation.combine` reads a list of texts and joins the rules by AND from the left.  A record passes
the joined rule exactly if it passes every rule by itself (`combine_conjunction`).

That is not obvious, because the two sides treat an unknown verdict differently.  Inside the joined
rule an unknown side is skipped at its AND, while a rule judged by itself turns unknown into a pass
straight away.  The two agree because `Verdict.passes` carries AND to `&&` whatever the verdicts are
(`Verdict.passes_connect_and`); OR has no such law: a record that leaves one side unknown and fails
the other fails the OR of the two, although it passes one side.

What comes out is described without the fold in `Rule.readAll_eq_ok_iff` and
`Rule.readAll_eq_error_iff`: the rule that is joined of all the rules, if there is a text and every
text reads, and otherwise the error of the first one that does not.  Texts behind that one are not
looked at, so what is wrong with them cannot be told from the answer.

Since neither order nor repetition matters to `&&`, a record sees of the texts no more than which
ones there are (`combine_congr`).
-/

set_option autoImplicit false

namespace Screening

/-- A verdict passes an AND exactly if it passes both sides, unknown or not. -/
theorem Verdict.passes_connect_and (v w : Verdict) :
    (connect .and v w).passes = (v.passes && w.passes) := by
  cases v <;> cases w <;> rfl

namespace Rule

/-! ## The rules that come out

The texts are read one after the other, and each rule is joined as soon as it has been read. -/

/-- The fold over the texts is a fold over the rules that they read as. -/
theorem foldlM_combine_eq_ok_iff {texts : List String} {first t : Rule} :
    texts.foldlM (fun t s => do return combine t (← read s)) first = .ok t ↔
      ∃ rules : List Rule, texts.map read = rules.map .ok ∧ t = rules.foldl combine first := by
  induction texts generalizing first with
  | nil =>
    simp only [List.foldlM_nil, pure, Except.pure, Except.ok.injEq, List.map_nil]
    constructor
    · rintro rfl
      exact ⟨[], rfl, rfl⟩
    · rintro ⟨rules, h, rfl⟩
      rw [List.map_eq_nil_iff.1 h.symm]
      rfl
  | cons s texts ih =>
    rw [List.foldlM_cons, bind_eq_ok_iff]
    constructor
    · rintro ⟨u, hu, h⟩
      -- One step reads the text and joins it, so the accumulator is the first rule of what remains.
      obtain ⟨r, hr, hu⟩ := bind_eq_ok_iff.1 hu
      obtain ⟨rules, hrules, rfl⟩ := ih.1 h
      cases hu
      exact ⟨r :: rules, by rw [List.map_cons, List.map_cons, hr, hrules], rfl⟩
    · rintro ⟨rules, hrules, rfl⟩
      cases rules with
      | nil => simp at hrules
      | cons r rules =>
        rw [List.map_cons, List.map_cons, List.cons.injEq] at hrules
        exact ⟨combine first r, bind_eq_ok_iff.2 ⟨r, hrules.1, rfl⟩, ih.2 ⟨rules, hrules.2, rfl⟩⟩

/-- Texts are joined exactly if there is one and all of them read, and then from the left. -/
theorem readAll_eq_ok_iff {texts : List String} {t : Rule} :
    readAll texts = .ok t ↔
      ∃ (first : Rule) (rules : List Rule), texts.map read = (first :: rules).map .ok ∧
        t = rules.foldl combine first := by
  cases texts with
  | nil => simp [readAll]
  | cons s texts =>
    rw [readAll, bind_eq_ok_iff]
    simp only [foldlM_combine_eq_ok_iff, List.map_cons, List.cons.injEq]
    constructor
    · rintro ⟨first, hs, rules, h, rfl⟩
      exact ⟨first, rules, ⟨hs, h⟩, rfl⟩
    · rintro ⟨first, rules, ⟨hs, h⟩, rfl⟩
      exact ⟨first, hs, rules, h, rfl⟩

theorem exists_rule_of_map_read {texts : List String} {rules : List Rule}
    (h : texts.map read = rules.map .ok) {s : String} (hs : s ∈ texts) :
    ∃ r ∈ rules, read s = .ok r := by
  have hmem : read s ∈ rules.map .ok := h ▸ List.mem_map_of_mem hs
  obtain ⟨r, hr, heq⟩ := List.mem_map.1 hmem
  exact ⟨r, hr, heq.symm⟩

theorem exists_text_of_map_read {texts : List String} {rules : List Rule}
    (h : texts.map read = rules.map .ok) {r : Rule} (hr : r ∈ rules) :
    ∃ s ∈ texts, read s = .ok r := by
  have hmem : .ok r ∈ texts.map read := h ▸ List.mem_map_of_mem hr
  exact List.mem_map.1 hmem

/-- All texts read exactly if each of them does. -/
theorem exists_map_read_iff {texts : List String} :
    (∃ rules : List Rule, texts.map read = rules.map .ok) ↔
      ∀ s ∈ texts, ∃ r, read s = .ok r := by
  constructor
  · rintro ⟨rules, h⟩ s hs
    obtain ⟨r, -, hr⟩ := exists_rule_of_map_read h hs
    exact ⟨r, hr⟩
  · intro h
    induction texts with
    | nil => exact ⟨[], rfl⟩
    | cons s texts ih =>
      obtain ⟨r, hr⟩ := h s List.mem_cons_self
      obtain ⟨rules, hrules⟩ := ih fun s hs => h s (List.mem_cons_of_mem _ hs)
      exact ⟨r :: rules, by rw [List.map_cons, List.map_cons, hr, hrules]⟩

/-- There is a joined rule exactly if there is a text and all of them read. -/
theorem exists_readAll_eq_ok_iff {texts : List String} :
    (∃ t, readAll texts = .ok t) ↔ texts ≠ [] ∧ ∀ s ∈ texts, ∃ r, read s = .ok r := by
  rw [← exists_map_read_iff]
  constructor
  · rintro ⟨t, h⟩
    obtain ⟨first, rules, hmap, -⟩ := readAll_eq_ok_iff.1 h
    refine ⟨?_, first :: rules, hmap⟩
    rintro rfl
    simp at hmap
  · rintro ⟨hne, rules, hmap⟩
    cases rules with
    | nil => exact absurd (List.map_eq_nil_iff.1 hmap) hne
    | cons first rules => exact ⟨_, readAll_eq_ok_iff.2 ⟨first, rules, hmap, rfl⟩⟩

/-! ## The error that comes out -/

/-- `e` is the error of the first text that does not read. -/
def FirstFault (texts : List String) (e : RuleError) : Prop :=
  ∃ before text after, texts = before ++ text :: after ∧ (∀ s ∈ before, ∃ r, read s = .ok r) ∧
    read text = .error e

theorem foldlM_combine_eq_error_iff {texts : List String} {first : Rule} {e : RuleError} :
    texts.foldlM (fun t s => do return combine t (← read s)) first = .error e ↔
      FirstFault texts e := by
  rw [foldlM_eq_error_iff]
  constructor
  · rintro ⟨before, text, after, t, rfl, ht, h⟩
    obtain ⟨rules, hmap, -⟩ := foldlM_combine_eq_ok_iff.1 ht
    refine ⟨before, text, after, rfl, exists_map_read_iff.1 ⟨rules, hmap⟩, ?_⟩
    rcases bind_eq_error_iff.1 h with h | ⟨r, -, h⟩
    · exact h
    · cases h
  · rintro ⟨before, text, after, rfl, hbefore, h⟩
    obtain ⟨rules, hmap⟩ := exists_map_read_iff.2 hbefore
    refine ⟨before, text, after, _, rfl, foldlM_combine_eq_ok_iff.2 ⟨rules, hmap, rfl⟩, ?_⟩
    exact bind_eq_error_iff.2 (.inl h)

/-- The first fault is that of the first text, or the first one behind it. -/
theorem firstFault_cons_iff {s : String} {texts : List String} {e : RuleError} :
    FirstFault (s :: texts) e ↔
      read s = .error e ∨ (∃ r, read s = .ok r) ∧ FirstFault texts e := by
  constructor
  · rintro ⟨before, text, after, h, hbefore, htext⟩
    -- The fault is in this text exactly if no text stands before the one that has it.
    cases before with
    | nil =>
      cases h
      exact .inl htext
    | cons b before =>
      cases h
      exact .inr ⟨hbefore _ List.mem_cons_self, before, text, after, rfl,
        fun s hs => hbefore s (List.mem_cons_of_mem _ hs), htext⟩
  · rintro (h | ⟨hs, before, text, after, rfl, hbefore, htext⟩)
    · exact ⟨[], s, texts, rfl, by simp, h⟩
    · refine ⟨s :: before, text, after, rfl, ?_, htext⟩
      rintro s' (_ | ⟨_, hs'⟩)
      · exact hs
      · exact hbefore s' hs'

/-- Joining fails for want of a text, or with the first fault. -/
theorem readAll_eq_error_iff {texts : List String} {e : RuleError} :
    readAll texts = .error e ↔ texts = [] ∧ e = .noRules ∨ FirstFault texts e := by
  cases texts with
  | nil =>
    simp only [readAll, Except.error.injEq, true_and]
    constructor
    · rintro rfl
      exact .inl rfl
    · rintro (rfl | ⟨before, text, after, h, -⟩)
      · rfl
      · simp at h
  | cons s texts =>
    rw [readAll, bind_eq_error_iff, firstFault_cons_iff]
    simp only [foldlM_combine_eq_error_iff, exists_and_right, reduceCtorEq, false_and, false_or]

/-- There being no rules is the one error that no text can cause. -/
theorem readAll_eq_noRules_iff {texts : List String} :
    readAll texts = .error .noRules ↔ texts = [] := by
  rw [readAll_eq_error_iff]
  constructor
  · rintro (⟨h, -⟩ | ⟨before, text, after, rfl, -, h⟩)
    · exact h
    · exact absurd (inText_of_read h) (by decide)
  · rintro rfl
    exact .inl ⟨rfl, rfl⟩

/-! ## What the joined rule is made of

From here on there are no texts any more, only rules. -/

theorem mem_fields_combine {f : String} {left right : Rule} :
    f ∈ (combine left right).fields ↔ f ∈ left.fields ∨ f ∈ right.fields := by
  simp only [mem_fields, combine, conditions, List.mem_append, or_and_right, exists_or]

/-- The fields of the joined rule are the fields of all. -/
theorem mem_fields_foldl_combine {f : String} {first : Rule} {rules : List Rule} :
    f ∈ (rules.foldl combine first).fields ↔ ∃ r ∈ first :: rules, f ∈ r.fields := by
  induction rules generalizing first with
  | nil => simp
  | cons r rules ih =>
    rw [List.foldl_cons, ih]
    simp [mem_fields_combine, or_assoc]

section

variable {ρ : Type} [Record ρ]

theorem passes_combine (left right : Rule) (r : ρ) :
    (combine left right).passes r = (left.passes r && right.passes r) :=
  Verdict.passes_connect_and _ _

/-- A record passes the joined rule if it passes every rule.  The induction is on the rules, with
the one that has been joined so far generalised. -/
theorem passes_foldl_combine (first : Rule) (rules : List Rule) (r : ρ) :
    (rules.foldl combine first).passes r = (first :: rules).all (·.passes r) := by
  induction rules generalizing first with
  | nil => simp
  | cons s rules ih =>
    rw [List.foldl_cons, ih, List.all_cons, passes_combine, List.all_cons, List.all_cons,
      Bool.and_assoc]

end

end Rule

/-! ## Conjunction

What has been said of rules is put in terms of the operations. -/

namespace Operation

variable {ρ : Type} [Record ρ]

theorem evaluate_eq_ok_iff {text : String} {r : ρ} {b : Bool} :
    (evaluate text r).result = .ok b ↔ ∃ t, Rule.read text = .ok t ∧ t.passes r = b := by
  simp only [evaluate, bind_eq_ok_iff, pure, Except.pure, Except.ok.injEq]

/-- A record passes the joined rule if judging every text succeeds and passes. -/
theorem combine_passes_iff {texts : List String} {t : Rule}
    (h : (combine texts).result = .ok t) (r : ρ) :
    (evaluateTree t r).result = true ↔
      ∀ text ∈ texts, (evaluate text r).result = .ok true := by
  obtain ⟨first, rules, hmap, rfl⟩ := Rule.readAll_eq_ok_iff.1 h
  rw [evaluateTree, Rule.passes_foldl_combine, List.all_eq_true]
  constructor
  · intro hall text ht
    obtain ⟨s, hs, hr⟩ := Rule.exists_rule_of_map_read hmap ht
    exact evaluate_eq_ok_iff.2 ⟨s, hr, hall s hs⟩
  · intro hall s hs
    obtain ⟨text, ht, hr⟩ := Rule.exists_text_of_map_read hmap hs
    obtain ⟨u, hu, hp⟩ := evaluate_eq_ok_iff.1 (hall text ht)
    cases hr.symm.trans hu
    exact hp

/-- The joined rule names what the rules name that can be made of the texts. -/
theorem mem_fields_combine_iff {texts : List String} {t : Rule}
    (h : (combine texts).result = .ok t) (f : String) :
    f ∈ t.fields ↔ ∃ text ∈ texts, ∃ s, (create text).result = .ok s ∧ f ∈ s.fields := by
  obtain ⟨first, rules, hmap, rfl⟩ := Rule.readAll_eq_ok_iff.1 h
  rw [Rule.mem_fields_foldl_combine]
  constructor
  · rintro ⟨s, hs, hf⟩
    obtain ⟨text, ht, hr⟩ := Rule.exists_text_of_map_read hmap hs
    exact ⟨text, ht, s, hr, hf⟩
  · rintro ⟨text, ht, s, hs, hf⟩
    obtain ⟨u, hu, hr⟩ := Rule.exists_rule_of_map_read hmap ht
    cases hr.symm.trans hs
    exact ⟨s, hu, hf⟩

/-- Only which texts there are matters for a record, not their order and not how often each one
comes. -/
theorem combine_congr {texts others : List String} (hmem : ∀ text, text ∈ others ↔ text ∈ texts)
    {t : Rule} (h : (combine texts).result = .ok t) :
    ∃ u, (combine others).result = .ok u ∧
      ∀ r : ρ, (evaluateTree u r).result = (evaluateTree t r).result := by
  obtain ⟨hne, hread⟩ := Rule.exists_readAll_eq_ok_iff.1 ⟨t, h⟩
  have hother : others ≠ [] := by
    rintro rfl
    obtain ⟨text, ht⟩ := List.exists_mem_of_ne_nil texts hne
    exact absurd ((hmem text).2 ht) List.not_mem_nil
  obtain ⟨u, hu⟩ := Rule.exists_readAll_eq_ok_iff.2
    ⟨hother, fun text ht => hread text ((hmem text).1 ht)⟩
  refine ⟨u, hu, fun r => ?_⟩
  rw [Bool.eq_iff_iff, combine_passes_iff hu, combine_passes_iff h]
  exact forall_congr' fun text => imp_congr_left (hmem text)

/-- **Joining rules is conjunction.**  Without texts the answer is that there are no rules.  If some
text does not read, the answer is the error of the first such text.  Otherwise there is a joined
rule; a record passes it exactly if it passes every text by itself, and its fields are the fields of
all of them.  Texts in another order or repeated give a rule that judges every record alike. -/
theorem combine_conjunction (texts : List String) :
    ((combine texts).result = .error .noRules ↔ texts = []) ∧
    (∀ e, (combine texts).result = .error e ↔
      texts = [] ∧ e = .noRules ∨ Rule.FirstFault texts e) ∧
    (∀ t, (combine texts).result = .ok t →
      (∀ r : ρ, (evaluateTree t r).result = true ↔
        ∀ text ∈ texts, (evaluate text r).result = .ok true) ∧
      (∀ f, f ∈ t.fields ↔
        ∃ text ∈ texts, ∃ s, (create text).result = .ok s ∧ f ∈ s.fields) ∧
      ∀ others : List String, (∀ text, text ∈ others ↔ text ∈ texts) →
        ∃ u, (combine others).result = .ok u ∧
          ∀ r : ρ, (evaluateTree u r).result = (evaluateTree t r).result) := by
  refine ⟨Rule.readAll_eq_noRules_iff, fun e => Rule.readAll_eq_error_iff, fun t h => ?_⟩
  exact ⟨combine_passes_iff h, mem_fields_combine_iff h, fun others hmem => combine_congr hmem h⟩

/-- Two rules, one of them on a field that the record lacks: the record passes the joined rule
because it passes each of the two. -/
theorem combine_conjunction_of_two :
    ∃ t, (combine ["(a = 1 OR b = 2)", "c > 3"]).result = .ok t ∧
      (evaluateTree t [("a", Json.Value.ofInt64 1)]).result = true := by
  have hread : ∃ t, (combine ["(a = 1 OR b = 2)", "c > 3"]).result = .ok t :=
    ⟨.joined .and
      (.joined .or (.condition ⟨"a", .equal, .integer 1⟩) (.condition ⟨"b", .equal, .integer 2⟩))
      (.condition ⟨"c", .greater, .integer 3⟩), by decide +kernel⟩
  obtain ⟨t, ht⟩ := hread
  have hpass := ((@combine_conjunction Json.Members _ _).2.2 t ht).1 [("a", Json.Value.ofInt64 1)]
  refine ⟨t, ht, hpass.2 ?_⟩
  simp only [List.forall_mem_cons, List.not_mem_nil, false_implies, implies_true, and_true]
  exact ⟨by decide +kernel, by decide +kernel⟩

end Operation

end Screening
