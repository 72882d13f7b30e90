/-!
# Binary64 numbers

Every finite binary64 number is a whole multiple of the least positive one, `2 ^ -1074`, and the
only bounds on the multiple are that it has at most 53 significant bits and stays below `2 ^ 2098`.
`Binary64` keeps that multiple and a sign of its own, since zero has two.  Order, addition and
rounding are then arithmetic of natural numbers.

`Binary64.ofRatio?` rounds an exact quotient to the nearest such number, a tie to the one with an
even significand, and is the one place where rounding happens.
-/

set_option autoImplicit false

namespace Screening

/-- A finite binary64 number, `units * 2 ^ -1074` with the given sign. -/
structure Binary64 where
  negative : Bool
  units : Nat
  deriving DecidableEq

namespace Binary64

/-- How many units make one. -/
def one : Nat := Nat.pow 2 1074

/-- The least number of units that no finite number has. -/
def limit : Nat := Nat.pow 2 2098

/-- The nearest whole number to `num / den`, a tie to the even one. -/
def roundToEven (num den : Nat) : Nat :=
  let q := num / den
  let r := num % den
  if 2 * r < den then q else if 2 * r = den then q + q % 2 else q + 1

/-- The distance between neighbours at a number of units: one up to 53 bits, and doubling from
there. -/
def spacing (units : Nat) : Nat := Nat.pow 2 (units.log2 - 52)

/-- The nearest number of units with 53 significant bits to `num / den`. -/
def nearest (num den : Nat) : Nat :=
  let step := spacing (num / den)
  roundToEven num (den * step) * step

/-- A signed quotient rounded; nothing if it is too great for a finite number. -/
def ofRatio? (negative : Bool) (num den : Nat) : Option Binary64 :=
  let units := nearest (num * one) den
  if units < limit then some ⟨negative, units⟩ else none

/-- The nearest number to an integer of fewer than a thousand bits. -/
def ofInt (n : Int) : Binary64 := ⟨n < 0, nearest (n.natAbs * one) 1⟩

/-- The number in units, with its sign. -/
def scaled (x : Binary64) : Int := if x.negative then -x.units else x.units

def order (x y : Binary64) : Ordering := compare x.scaled y.scaled

def neg (x : Binary64) : Binary64 := { x with negative := !x.negative }

/-- The nearest whole number, a half going away from zero. -/
def roundAway (x : Binary64) : Int :=
  let n := (2 * x.units + one) / (2 * one)
  if x.negative then -n else n

instance : Inhabited Binary64 := ⟨⟨false, 0⟩⟩

end Binary64

/-- What a binary64 variable can hold besides the finite numbers. -/
inductive Real64 where
  | finite (x : Binary64)
  | infinite (negative : Bool)
  | undefined
  deriving DecidableEq

/-- The sum of two finite numbers rounded.  A sum of zero is negative if both numbers are. -/
def Binary64.add (x y : Binary64) : Real64 :=
  let sum := x.scaled + y.scaled
  let negative : Bool := if sum = 0 then x.negative && y.negative else sum < 0
  let units := nearest sum.natAbs 1
  if units < limit then .finite ⟨negative, units⟩ else .infinite negative

namespace Real64

def zero : Real64 := finite ⟨false, 0⟩

/-- By size, with the undefined one above all others. -/
def order : Real64 → Real64 → Ordering
  | finite x, finite y => x.order y
  | undefined, undefined => .eq
  | undefined, _ => .gt
  | _, undefined => .lt
  | infinite s, infinite t => compare t.toNat s.toNat
  | infinite negative, finite _ => if negative then .lt else .gt
  | finite _, infinite negative => if negative then .gt else .lt

def add : Real64 → Real64 → Real64
  | finite x, finite y => x.add y
  | infinite s, infinite t => if s = t then infinite s else undefined
  | infinite s, finite _ => infinite s
  | finite _, infinite t => infinite t
  | _, _ => undefined

end Real64

end Screening
