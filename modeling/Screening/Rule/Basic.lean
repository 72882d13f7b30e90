import Screening.Comparison
import Screening.Connective
import Screening.Literal

/-!
# Rules

A rule is a tree: conditions at the leaves, connectives above them.  A connective whose right side
has not come yet is `Rule.pending`; while a text is being read such nodes wait for their right side,
and a tree without any is `complete`.

`Rule.toText` writes a tree with brackets round every connective and a question mark where a right
side is missing.  `Rule.fields` lists what a record has to offer for the rule: each field once, in
the order of their code points.
-/

set_option autoImplicit false

namespace Screening

structure Condition where
  field : String
  comparison : Comparison
  value : Literal
  deriving DecidableEq

def Condition.toText (c : Condition) : String :=
  c.field ++ " " ++ c.comparison.symbol ++ " " ++ c.value.toText

inductive Rule where
  | condition (c : Condition)
  | joined (op : Connective) (left right : Rule)
  | pending (op : Connective) (left : Rule)
  deriving DecidableEq

namespace Rule

/-- Every connective has both sides. -/
def complete : Rule → Bool
  | condition _ => true
  | joined _ l r => l.complete && r.complete
  | pending _ _ => false

def toText : Rule → String
  | condition c => c.toText
  | joined op l r => "(" ++ l.toText ++ " " ++ op.keyword ++ " " ++ r.toText ++ ")"
  | pending op l => "(" ++ l.toText ++ " " ++ op.keyword ++ " ?)"

/-- The conditions from left to right. -/
def conditions : Rule → List Condition
  | condition c => [c]
  | joined _ l r => l.conditions ++ r.conditions
  | pending _ l => l.conditions

/-! ## Fields -/

/-- Puts a name into a list of names in rising order, unless it is there. -/
def insertField (f : String) : List String → List String
  | [] => [f]
  | g :: gs => if f < g then f :: g :: gs else if f = g then g :: gs else g :: insertField f gs

/-- The fields that the conditions name, each once, in rising order. -/
def fields (t : Rule) : List String :=
  t.conditions.foldr (fun c fs => insertField c.field fs) []

theorem mem_insertField {f g : String} {fs : List String} :
    g ∈ insertField f fs ↔ g = f ∨ g ∈ fs := by
  induction fs with
  | nil => simp [insertField]
  | cons h hs ih =>
    rw [insertField]
    split
    · simp
    · split
      · simp_all
      · simp only [List.mem_cons, ih]
        exact or_left_comm

theorem mem_fields {f : String} {t : Rule} : f ∈ t.fields ↔ ∃ c ∈ t.conditions, c.field = f := by
  rw [fields]
  induction t.conditions with
  | nil => simp
  | cons c cs ih => simp [mem_insertField, ih, eq_comm]

/-- Both rules at once: the left and the right side of one AND. -/
def combine (left right : Rule) : Rule := joined .and left right

end Rule

end Screening
