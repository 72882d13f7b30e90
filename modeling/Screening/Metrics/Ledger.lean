import Screening.Number.Binary64

/-!
# The ledger of requests and operations

Two kinds of figures are kept for each combination of labels that has occurred: how often, in a
`Tally`, and how long it took, in `Summaries`.  Requests are labelled by method, path and status,
operations by name and outcome; the time of an operation is kept by its name alone.
-/

set_option autoImplicit false

namespace Screening.Metrics

/-- Counts by label, in the order in which the labels came up. -/
abbrev Tally (κ : Type) := List (κ × Nat)

namespace Tally

variable {κ : Type} [DecidableEq κ]

/-- How often a label has come up. -/
def count (k : κ) : Tally κ → Nat
  | [] => 0
  | (l, n) :: rest => if l = k then n else count k rest

def bump (k : κ) : Tally κ → Tally κ
  | [] => [(k, 1)]
  | (l, n) :: rest => if l = k then (l, n + 1) :: rest else (l, n) :: bump k rest

theorem count_bump (k l : κ) (t : Tally κ) :
    count l (bump k t) = count l t + if l = k then 1 else 0 := by
  induction t with
  | nil => simp [count, bump, eq_comm]
  | cons p rest ih =>
    by_cases hm : p.1 = k <;> by_cases hl : p.1 = l <;> grind [count, bump]

end Tally

/-- How many durations there were, and their sum in seconds. -/
structure Summary where
  count : Nat
  sum : Real64
  deriving DecidableEq

def Summary.none : Summary := ⟨0, .zero⟩

def Summary.observe (seconds : Binary64) (s : Summary) : Summary :=
  ⟨s.count + 1, s.sum.add (.finite seconds)⟩

abbrev Summaries (κ : Type) := List (κ × Summary)

namespace Summaries

variable {κ : Type} [DecidableEq κ]

/-- How many durations a label has. -/
def count (k : κ) : Summaries κ → Nat
  | [] => 0
  | (l, s) :: rest => if l = k then s.count else count k rest

def observe (k : κ) (seconds : Binary64) : Summaries κ → Summaries κ
  | [] => [(k, Summary.none.observe seconds)]
  | (l, s) :: rest =>
    if l = k then (l, s.observe seconds) :: rest else (l, s) :: observe k seconds rest

theorem count_observe (k l : κ) (seconds : Binary64) (s : Summaries κ) :
    count l (observe k seconds s) = count l s + if l = k then 1 else 0 := by
  induction s with
  | nil => simp [count, observe, Summary.observe, Summary.none, eq_comm]
  | cons p rest ih =>
    by_cases hm : p.1 = k <;> by_cases hl : p.1 = l <;> grind [count, observe, Summary.observe]

end Summaries

structure RequestLabels where
  method : String
  path : String
  status : Nat
  deriving DecidableEq

structure OperationLabels where
  operation : String
  outcome : String
  deriving DecidableEq

structure Ledger where
  requests : Tally RequestLabels := []
  requestTimes : Summaries RequestLabels := []
  operations : Tally OperationLabels := []
  operationTimes : Summaries String := []
  starts : Tally String := []

namespace Ledger

def recordRequest (labels : RequestLabels) (seconds : Binary64) (l : Ledger) : Ledger :=
  { l with
    requests := l.requests.bump labels
    requestTimes := l.requestTimes.observe labels seconds }

def recordOperation (labels : OperationLabels) (seconds : Binary64) (l : Ledger) : Ledger :=
  { l with
    operations := l.operations.bump labels
    operationTimes := l.operationTimes.observe labels.operation seconds }

def recordStart (service : String) (l : Ledger) : Ledger :=
  { l with starts := l.starts.bump service }

end Ledger

end Screening.Metrics
