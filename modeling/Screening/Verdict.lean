import Screening.Connective

/-!
# Verdicts

A condition on a field that the record lacks is `unknown`.  A connective with an unknown side is the
other side, so unknown is a unit of AND and of OR (`connect_unknown_left`, `connect_unknown_right`);
two known sides are joined as truth values.  In the end only a known `no` fails a record.
-/

set_option autoImplicit false

namespace Screening

inductive Verdict where
  | yes
  | no
  | unknown
  deriving DecidableEq

namespace Verdict

def ofBool : Bool → Verdict
  | true => yes
  | false => no

def toBool? : Verdict → Option Bool
  | yes => some true
  | no => some false
  | unknown => none

def passes (v : Verdict) : Bool := v != no

def connect (op : Connective) : Verdict → Verdict → Verdict
  | unknown, v => v
  | v, unknown => v
  | v, w => ofBool (op.apply (v == yes) (w == yes))

@[simp] theorem connect_unknown_left (op : Connective) (v : Verdict) :
    connect op unknown v = v := by
  cases v <;> rfl

@[simp] theorem connect_unknown_right (op : Connective) (v : Verdict) :
    connect op v unknown = v := by
  cases v <;> rfl

@[simp] theorem connect_ofBool (op : Connective) (a b : Bool) :
    connect op (ofBool a) (ofBool b) = ofBool (op.apply a b) := by
  cases a <;> cases b <;> rfl

end Verdict

end Screening
