import Screening.Proofs.InOrder
import Screening.Rule.Judge

/-!
# What the conditions decide

The verdict on a rule comes from the verdicts on its conditions, and two things can be said without
following the tree from node to node.

* **Raising conditions raises the rule.**  If some conditions turn from no to yes and nothing else
  happens to them, the verdict on the rule stays or turns from no to yes as well
  (`verdict_rises_with_conditions`).  That nothing else happens is needed: a condition that turns
  from unknown to no or to yes can take the rule either way.
* **A single connective has no order.**  If all connectives of a rule are the same, its verdict
  depends on which conditions there are, and on nothing else (`verdict_of_single_connective`).  For
  AND a single no decides, for OR a single yes; either way the verdict is unknown exactly if that of
  every condition is.

Both come down to the connectives.  A connective is monotone on both sides, if a verdict may only
rise from no to yes (`Rises.connect`).  And it is unknown if both sides are, and decided if one of
them decides (`connect_eq_unknown_iff`, `connect_eq_deciding_iff`); that fixes the verdict, because
there is only one more (`eq_of_iff`).
-/

set_option autoImplicit false

namespace Screening

/-- The verdict on a record by one condition. -/
def Condition.verdict {ρ : Type} [Record ρ] (r : ρ) (c : Condition) : Verdict :=
  c.judge (Record.get? r c.field)

theorem Condition.judge_eq_unknown_iff {c : Condition} {actual : Option Json.Value} :
    c.judge actual = .unknown ↔ actual = none := by
  cases actual with
  | none => exact iff_of_true rfl rfl
  | some v =>
    rw [judge]
    cases c.comparison.holds (c.value.order? v) <;> simp [Verdict.ofBool]

/-- A condition is unknown exactly if the record has no such field. -/
theorem Condition.verdict_eq_unknown_iff {ρ : Type} [Record ρ] {r : ρ} {c : Condition} :
    c.verdict r = .unknown ↔ Record.has r c.field = false := by
  rw [verdict, judge_eq_unknown_iff, Record.has, Option.isSome_eq_false_iff,
    Option.isNone_iff_eq_none]

/-! ## Raising a verdict

A verdict rises if it stays or turns from no to yes.  Unknown neither rises nor is risen to. -/

namespace Verdict

/-- The second verdict is the first, or a yes in place of a no. -/
inductive Rises : Verdict → Verdict → Prop where
  | same (v : Verdict) : Rises v v
  | turned : Rises no yes

theorem rises_iff {v w : Verdict} :
    Rises v w ↔ (v = unknown ↔ w = unknown) ∧ (v = yes → w = yes) := by
  constructor
  · rintro (_ | _)
    · exact ⟨Iff.rfl, id⟩
    · simp
  · rintro ⟨hunknown, hyes⟩
    cases v with
    | unknown => exact hunknown.1 rfl ▸ .same _
    | yes => exact hyes rfl ▸ .same _
    | no =>
      cases w with
      | no => exact .same _
      | yes => exact .turned
      | unknown => cases hunknown.2 rfl

/-- What passes goes on passing when it rises. -/
theorem Rises.passes {v w : Verdict} (h : Rises v w) (hv : v.passes = true) : w.passes = true := by
  cases h with
  | same => exact hv
  | turned => rfl

/-- Connectives are monotone on both sides. -/
theorem Rises.connect (op : Connective) {v v' w w' : Verdict} (hv : Rises v v')
    (hw : Rises w w') : Rises (connect op v w) (connect op v' w') := by
  cases hv with
  | same v =>
    cases hw with
    | same w => exact .same _
    | turned => cases op <;> cases v <;> constructor
  | turned =>
    cases hw with
    | same w => cases op <;> cases w <;> constructor
    | turned => cases op <;> constructor

end Verdict

namespace Rule

section

variable {ρ σ : Type} [Record ρ] [Record σ] {r : ρ} {s : σ}

/-- The induction is on the tree, and each node has its connective. -/
theorem rises_of_conditions {t : Rule}
    (h : ∀ c ∈ t.conditions, (c.verdict r).Rises (c.verdict s)) :
    (t.verdict r).Rises (t.verdict s) := by
  induction t with
  | condition c => exact h c List.mem_cons_self
  | joined op left right ihl ihr =>
    obtain ⟨hl, hr⟩ := List.forall_mem_append.1 h
    exact (ihl hl).connect op (ihr hr)
  | pending op left ih => exact (ih h).connect op (.same .unknown)

/-- **Raising conditions raises the rule.**  Of two records that have the same fields of a rule, let
the second one fulfil every condition that the first one fulfils.  Then the verdicts on both are
unknown or neither is, a yes for the first is a yes for the second, and if the first passes, so does
the second. -/
theorem verdict_rises_with_conditions (t : Rule)
    (hfields : ∀ f ∈ t.fields, Record.has r f = Record.has s f)
    (hconditions : ∀ c ∈ t.conditions, c.verdict r = .yes → c.verdict s = .yes) :
    (t.verdict r = .unknown ↔ t.verdict s = .unknown) ∧
      (t.verdict r = .yes → t.verdict s = .yes) ∧
      (t.passes r = true → t.passes s = true) := by
  have hrises : (t.verdict r).Rises (t.verdict s) := by
    refine rises_of_conditions fun c hc => Verdict.rises_iff.2 ⟨?_, hconditions c hc⟩
    rw [Condition.verdict_eq_unknown_iff, Condition.verdict_eq_unknown_iff,
      hfields c.field (mem_fields.2 ⟨c, hc, rfl⟩)]
  obtain ⟨hunknown, hyes⟩ := Verdict.rises_iff.1 hrises
  exact ⟨hunknown, hyes, hrises.passes⟩

end

/-- A condition turns to yes below an AND with a field that both records lack, beside one that is a
no for both. -/
theorem verdict_rises_with_conditions_of_raise :
    let t : Rule := .joined .or
      (.joined .and (.condition ⟨"age", .greater, .integer 30⟩)
        (.condition ⟨"team", .equal, .text "x"⟩))
      (.pending .and (.condition ⟨"level", .less, .integer 2⟩))
    let r : Json.Members := [("level", .ofNat 5), ("age", .ofNat 30)]
    let s : Json.Value := .object [("age", .ofNat 31), ("room", .null), ("level", .ofNat 2)]
    (∀ f ∈ t.fields, Record.has r f = Record.has s f) ∧
      (∀ c ∈ t.conditions, c.verdict r = .yes → c.verdict s = .yes) ∧
      t.verdict r = .no ∧ t.verdict s = .yes ∧ (t.passes r = true → t.passes s = true) := by
  intro t r s
  have hfields : ∀ f ∈ t.fields, Record.has r f = Record.has s f := by decide +kernel
  have hconditions : ∀ c ∈ t.conditions, c.verdict r = .yes → c.verdict s = .yes := by
    decide +kernel
  obtain ⟨-, -, hpasses⟩ := verdict_rises_with_conditions t hfields hconditions
  exact ⟨hfields, hconditions, by decide +kernel, by decide +kernel, hpasses⟩

/-- Where a field comes in, a rule may go down although no condition does, and up as well. -/
example :
    let a : Rule := .condition ⟨"a", .equal, .integer 1⟩
    let b : Rule := .condition ⟨"b", .equal, .integer 1⟩
    let r (m n : Nat) : Json.Members := [("a", .ofNat m), ("b", .ofNat n)]
    (joined .and a b).verdict ((r 1 2).take 1) = .yes ∧
      (joined .and a b).verdict (r 1 2) = .no ∧
      (joined .or a b).verdict ((r 2 1).take 1) = .no ∧
      (joined .or a b).verdict (r 2 1) = .yes := by
  decide +kernel

end Rule

/-! ## A single connective

The deciding verdict of AND is no and that of OR is yes. -/

/-- The verdict by which one side decides, whatever the other side is. -/
def Connective.deciding : Connective → Verdict
  | .and => .no
  | .or => .yes

namespace Verdict

/-- A connective is unknown if both sides are. -/
theorem connect_eq_unknown_iff {op : Connective} {v w : Verdict} :
    connect op v w = .unknown ↔ v = .unknown ∧ w = .unknown := by
  cases op <;> cases v <;> cases w <;> decide

/-- One side that decides is enough. -/
theorem connect_eq_deciding_iff {op : Connective} {v w : Verdict} :
    connect op v w = op.deciding ↔ v = op.deciding ∨ w = op.deciding := by
  cases op <;> cases v <;> cases w <;> decide

/-- Apart from unknown and the deciding verdict there is only one. -/
theorem eq_of_iff (op : Connective) {v w : Verdict} (hunknown : v = .unknown ↔ w = .unknown)
    (hdeciding : v = op.deciding ↔ w = op.deciding) : v = w := by
  revert hunknown hdeciding
  cases op <;> cases v <;> cases w <;> decide

end Verdict

namespace Rule

variable {ρ : Type} [Record ρ] (r : ρ)

/-- A verdict is unknown exactly if those of all conditions are, whatever the connectives. -/
theorem verdict_eq_unknown_iff {t : Rule} :
    t.verdict r = .unknown ↔ ∀ c ∈ t.conditions, c.verdict r = .unknown := by
  induction t with
  | condition c =>
    rw [conditions, List.forall_mem_singleton]
    rfl
  | joined op left right ihl ihr =>
    rw [verdict, Verdict.connect_eq_unknown_iff, ihl, ihr, conditions, List.forall_mem_append]
  | pending op left ih => rw [verdict, Verdict.connect_unknown_right, ih, conditions]

/-- The connectives of a rule are all the same. -/
def Uniform (op : Connective) (t : Rule) : Prop := ∀ o ∈ t.connectives, o = op

theorem uniform_joined_iff {op o : Connective} {left right : Rule} :
    Uniform op (joined o left right) ↔ left.Uniform op ∧ o = op ∧ right.Uniform op := by
  rw [Uniform, connectives, List.forall_mem_append, List.forall_mem_cons]
  rfl

/-- In a rule with one connective one condition that decides is enough. -/
theorem verdict_eq_deciding_iff {op : Connective} {t : Rule} (h : t.Uniform op) :
    t.verdict r = op.deciding ↔ ∃ c ∈ t.conditions, c.verdict r = op.deciding := by
  induction t with
  | condition c => simp [conditions, verdict, Condition.verdict]
  | joined o left right ihl ihr =>
    obtain ⟨hl, rfl, hr⟩ := uniform_joined_iff.1 h
    rw [verdict, Verdict.connect_eq_deciding_iff, ihl hl, ihr hr, conditions]
    simp only [List.mem_append, or_and_right, exists_or]
  | pending o left ih =>
    have hl : left.Uniform op := fun o' ho' => h o' (List.mem_append_left _ ho')
    rw [verdict, Verdict.connect_unknown_right, ih hl, conditions]

/-- **A single connective has no order.**  The verdict on a rule that has no connective but `op` is
unknown exactly if that of every condition is; otherwise, if `op` is AND, it is no exactly if some
condition's is, and if `op` is OR, it is yes exactly if some condition's is.  So it is the same for
two such rules that have the same conditions, in whatever order, brackets and repetition.  All of
this holds for rules with missing right sides too. -/
theorem verdict_of_single_connective (op : Connective) {t : Rule} (ht : t.Uniform op) :
    (t.verdict r = .unknown ↔ ∀ c ∈ t.conditions, c.verdict r = .unknown) ∧
      (op = .and → (t.verdict r = .no ↔ ∃ c ∈ t.conditions, c.verdict r = .no)) ∧
      (op = .or → (t.verdict r = .yes ↔ ∃ c ∈ t.conditions, c.verdict r = .yes)) ∧
      ∀ u : Rule, u.Uniform op → (∀ c, c ∈ t.conditions ↔ c ∈ u.conditions) →
        t.verdict r = u.verdict r := by
  have hdeciding := verdict_eq_deciding_iff r ht
  refine ⟨verdict_eq_unknown_iff r, ?_, ?_, fun u hu hsame => ?_⟩
  · rintro rfl
    exact hdeciding
  · rintro rfl
    exact hdeciding
  · refine Verdict.eq_of_iff op ?_ ?_
    · simp only [verdict_eq_unknown_iff, hsame]
    · simp only [hdeciding, verdict_eq_deciding_iff r hu, hsame]

/-- Brackets, order and repetition differ, and a field is missing: one no decides both. -/
theorem verdict_of_single_connective_of_brackets :
    let a : Rule := .condition ⟨"a", .equal, .integer 1⟩
    let b : Rule := .condition ⟨"b", .equal, .integer 1⟩
    let c : Rule := .condition ⟨"c", .equal, .integer 1⟩
    let t : Rule := .joined .and (.joined .and a b) c
    let u : Rule := .joined .and (.joined .and c b) (.joined .and b (.joined .and a c))
    let r : Json.Members := [("c", .ofNat 2), ("a", .ofNat 1)]
    t.Uniform .and ∧ u.Uniform .and ∧ (∀ d, d ∈ t.conditions ↔ d ∈ u.conditions) ∧
      t.verdict r = .no ∧ t.verdict r = u.verdict r := by
  intro a b c t u r
  have ht : t.Uniform .and := by simp [Uniform, t, a, b, c, connectives]
  have hu : u.Uniform .and := by simp [Uniform, u, a, b, c, connectives]
  have hsame : ∀ d, d ∈ t.conditions ↔ d ∈ u.conditions := by
    intro d
    simp only [t, u, a, b, c, conditions, List.mem_append, List.mem_singleton]
    grind
  obtain ⟨-, hno, -, horder⟩ := verdict_of_single_connective r .and ht
  exact ⟨ht, hu, hsame, (hno rfl).2 (by decide +kernel), horder u hu hsame⟩

end Rule

end Screening
