import Screening.Record
import Screening.Rule.Basic
import Screening.Verdict

/-!
# Judging a record

A number of the record is ordered against an integer literal, a string against a text literal by
code points; any other pair has no order.  Integers in signed 64-bit range are compared as they are.
Any other number goes through binary64, and then the literal does too.
-/

set_option autoImplicit false

namespace Screening

/-- The order of a number of a record against an integer literal. -/
def Json.Number.order (actual : Json.Number) (expected : Int64) : Ordering :=
  match actual.toInt64? with
  | some n => compare n.toInt expected.toInt
  | none => actual.toBinary64.order (.ofInt expected.toInt)

/-- The order of a value of a record against a literal, if they are of one kind. -/
def Literal.order? (expected : Literal) (actual : Json.Value) : Option Ordering :=
  match actual, expected with
  | .number n, integer e => some (n.order e)
  | .string s, text e => some (compare s e)
  | _, _ => none

/-- The verdict on the value of the field, or on its absence. -/
def Condition.judge (c : Condition) : Option Json.Value → Verdict
  | some actual => .ofBool (c.comparison.holds (c.value.order? actual))
  | none => .unknown

namespace Rule

variable {ρ : Type} [Record ρ]

/-- The verdict on a record.  A right side that is missing is unknown. -/
def verdict (r : ρ) : Rule → Verdict
  | condition c => c.judge (Record.get? r c.field)
  | joined op left right => .connect op (left.verdict r) (right.verdict r)
  | pending op left => .connect op (left.verdict r) .unknown

/-- Whether a record passes: it does unless the verdict is a known no. -/
def passes (t : Rule) (r : ρ) : Bool := (t.verdict r).passes

end Rule

end Screening
