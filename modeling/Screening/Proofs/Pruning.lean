import Screening.Rule.Judge

/-!
# An unknown verdict is a pruned condition

`Rule.verdict` works with three values and skips an unknown side at every connective.  The same
verdict comes about in two simpler steps: first `Rule.prune` takes out the conditions on fields that
the record lacks, together with right sides that are missing, and lets a connective with one side
left give way to that side; then `Rule.truth` judges what is left with the two ordinary truth
values.  Nothing is left exactly if the record has none of the fields, and then the verdict is
unknown (`verdict_eq_truth_prune`).

What pruning does is pinned down apart from the verdict: the conditions that stay are those with a
field in the record, in their order (`conditions_prune`), and no right side is missing any more
(`complete_prune`).

So the three values can be done without.  They are not a logic of their own: an unknown condition is
one that is not asked, and a rule that has been read is judged as if its text had been written
without it.
-/

set_option autoImplicit false

namespace Screening

theorem Verdict.passes_ofBool (b : Bool) : (ofBool b).passes = b := by cases b <;> rfl

namespace Rule

/-- A connective with what is left of its sides. -/
def rejoin (op : Connective) : Option Rule → Option Rule → Option Rule
  | some left, some right => some (joined op left right)
  | some left, none => some left
  | none, right => right

variable {ρ : Type} [Record ρ]

/-- What is left of a rule when the conditions on fields that the record lacks are taken out, and
the right sides that are missing. -/
def prune (r : ρ) : Rule → Option Rule
  | condition c => if Record.has r c.field then some (condition c) else none
  | joined op left right => rejoin op (left.prune r) (right.prune r)
  | pending op left => rejoin op (left.prune r) none

/-- The truth of a rule without unknowns.  Where a field or a right side is missing after all, the
condition counts as false and the connective as its left side. -/
def truth (r : ρ) : Rule → Bool
  | condition c =>
    match Record.get? r c.field with
    | some actual => c.comparison.holds (c.value.order? actual)
    | none => false
  | joined .and left right => left.truth r && right.truth r
  | joined .or left right => left.truth r || right.truth r
  | pending _ left => left.truth r

/-! ## What pruning leaves

These are the facts that determine what pruning is, without reference to a verdict. -/

theorem conditions_ne_nil (t : Rule) : t.conditions ≠ [] := by
  induction t with
  | condition c => exact List.cons_ne_nil c []
  | joined op left right ihl _ => exact List.append_ne_nil_of_left_ne_nil ihl _
  | pending op left ih => exact ih

theorem conditions_rejoin (op : Connective) (left right : Option Rule) :
    (rejoin op left right).elim [] conditions
      = left.elim [] conditions ++ right.elim [] conditions := by
  cases left <;> cases right <;> simp [rejoin, conditions]

/-- Pruning keeps the conditions on fields of the record, in their order, and no others. -/
theorem conditions_prune (r : ρ) (t : Rule) :
    (t.prune r).elim [] conditions = t.conditions.filter fun c => Record.has r c.field := by
  induction t with
  | condition c =>
    rw [prune, conditions]
    by_cases h : Record.has r c.field <;> simp [h, conditions]
  | joined op left right ihl ihr =>
    rw [prune, conditions_rejoin, ihl, ihr, conditions, List.filter_append]
  | pending op left ih =>
    rw [prune, conditions_rejoin, ih, conditions, Option.elim_none, List.append_nil]

/-- Nothing is left exactly if the record has none of the fields. -/
theorem prune_eq_none_iff (r : ρ) (t : Rule) :
    t.prune r = none ↔ ∀ f ∈ t.fields, Record.has r f = false := by
  have hnone : t.prune r = none ↔ (t.prune r).elim [] conditions = [] := by
    cases t.prune r with
    | none => simp
    | some u => simp [conditions_ne_nil u]
  rw [hnone, conditions_prune, List.filter_eq_nil_iff]
  constructor
  · intro h f hf
    obtain ⟨c, hc, rfl⟩ := mem_fields.1 hf
    simpa using h c hc
  · intro h c hc
    simpa using h c.field (mem_fields.2 ⟨c, hc, rfl⟩)

theorem complete_rejoin {op : Connective} {left right : Option Rule} {u : Rule}
    (hl : ∀ l ∈ left, l.complete = true) (hr : ∀ l ∈ right, l.complete = true)
    (h : u ∈ rejoin op left right) : u.complete = true := by
  cases left with
  | none => exact hr u h
  | some l =>
    cases right with
    | none => exact hl u h
    | some s =>
      cases h
      rw [complete, hl l rfl, hr s rfl, Bool.and_self]

/-- **Nothing is missing in what is left.** -/
theorem complete_prune {r : ρ} {t u : Rule} (h : u ∈ t.prune r) : u.complete = true := by
  induction t generalizing u with
  | condition c =>
    rw [prune] at h
    split at h <;> cases h
    rfl
  | joined op left right ihl ihr => exact complete_rejoin (fun _ => ihl) (fun _ => ihr) h
  | pending op left ih => exact complete_rejoin (fun _ => ih) (by simp) h

/-! ## The verdict

Judging what is left never meets an unknown condition. -/

/-- The verdict on a connective is the verdict on what its sides leave of it. -/
theorem truth_rejoin (r : ρ) (op : Connective) (left right : Option Rule) :
    (rejoin op left right).elim .unknown (fun u => .ofBool (u.truth r))
      = Verdict.connect op (left.elim .unknown fun u => .ofBool (u.truth r))
          (right.elim .unknown fun u => .ofBool (u.truth r)) := by
  cases left with
  | none => simp [rejoin]
  | some l =>
    cases right with
    | none => simp [rejoin]
    | some s => cases op <;> simp [rejoin, truth, Connective.apply]

/-- The induction is on the tree.  At a connective there are four cases, by what is left of its
sides. -/
theorem verdict_eq_elim_prune (r : ρ) (t : Rule) :
    t.verdict r = (t.prune r).elim .unknown fun u => .ofBool (u.truth r) := by
  induction t with
  | condition c =>
    rw [verdict, prune, Record.has]
    cases h : Record.get? r c.field with
    | none => rfl
    | some actual =>
      simp only [Option.isSome_some, if_true, Option.elim_some, Condition.judge, truth, h]
  | joined op left right ihl ihr => rw [verdict, prune, truth_rejoin, ihl, ihr]
  | pending op left ih => rw [verdict, prune, truth_rejoin, ih, Option.elim_none]

/-- **The verdict is the truth of what pruning leaves.**  Nothing is left exactly if the record has
none of the fields of the rule; then the verdict is unknown and the record passes.  Otherwise a rule
without missing right sides is left whose conditions are those on fields of the record; the verdict
is its truth, and the record passes if it is true. -/
theorem verdict_eq_truth_prune (t : Rule) (r : ρ) :
    (t.prune r = none ↔ ∀ f ∈ t.fields, Record.has r f = false) ∧
    match t.prune r with
    | none => t.verdict r = .unknown ∧ t.passes r = true
    | some u =>
      u.complete = true ∧ (u.conditions = t.conditions.filter fun c => Record.has r c.field) ∧
        t.verdict r = .ofBool (u.truth r) ∧ t.passes r = u.truth r := by
  refine ⟨prune_eq_none_iff r t, ?_⟩
  have hv := verdict_eq_elim_prune r t
  have hc := conditions_prune r t
  rw [passes, hv]
  cases h : t.prune r with
  | none => exact ⟨rfl, rfl⟩
  | some u =>
    rw [h] at hc
    exact ⟨complete_prune h, hc, rfl, Verdict.passes_ofBool _⟩

end Rule

end Screening
