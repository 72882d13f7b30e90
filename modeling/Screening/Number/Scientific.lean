import Screening.Number.Binary64
import Screening.Numeral

/-!
# Reading decimal numbers

A decimal number `significand * 10 ^ exponent` becomes a binary64 number in one of two ways.

* `Scientific.toReal64` rounds once: the result is the number nearest to the decimal, infinite when
  that is too great.
* `Scientific.inTwoSteps?` rounds the significand first and scales it by a rounded power of ten
  afterwards, which can miss the nearest number by a little.  It takes a significand below
  `2 ^ 64` and refuses what is too great.

Exponents may be written with any number of digits, so both look at the size of a result before they
compute a power.
-/

set_option autoImplicit false

namespace Screening

/-- The decimal `significand * 10 ^ exponent` with a sign. -/
structure Scientific where
  negative : Bool
  significand : Nat
  exponent : Int
  deriving DecidableEq

namespace Scientific

/-- The decimal with the given digits before and behind the point. -/
def ofDigits (negative : Bool) (whole fraction : List Char) (exponent : Int) : Scientific :=
  ⟨negative, Numeral.ofDigits (whole ++ fraction), exponent - fraction.length⟩

/-- The number of decimal digits of a natural number; zero has one. -/
def digitCount (n : Nat) : Nat := (Nat.toDigits 10 n).length

def toReal64 (s : Scientific) : Real64 :=
  let size := s.exponent + digitCount s.significand
  if s.significand = 0 then .finite ⟨s.negative, 0⟩
  else if size > 400 then .infinite s.negative
  else if size < -400 then .finite ⟨s.negative, 0⟩
  else
    let num := s.significand * Nat.pow 10 s.exponent.toNat
    let den := Nat.pow 10 (-s.exponent).toNat
    match Binary64.ofRatio? s.negative num den with
    | some x => .finite x
    | none => .infinite s.negative

/-! ## In two steps -/

/-- A power of ten rounded, in units. -/
def power (e : Nat) : Nat := Binary64.nearest (Nat.pow 10 e * Binary64.one) 1

/-- A number of units divided by `10 ^ e` in steps of at most `10 ^ 308`, each one rounded. -/
def divide (units : Nat) (e : Nat) : Nat :=
  if e ≤ 308 then Binary64.nearest (units * Binary64.one) (power e)
  else if units = 0 then 0
  else divide (Binary64.nearest (units * Binary64.one) (power 308)) (e - 308)
  termination_by e

/-- The significand rounded, then multiplied or divided by a rounded power of ten. -/
def inTwoSteps? (s : Scientific) : Option Binary64 :=
  let start := Binary64.nearest (s.significand * Binary64.one) 1
  if s.exponent < 0 then some ⟨s.negative, divide start s.exponent.natAbs⟩
  else if start = 0 then some ⟨s.negative, 0⟩
  else if s.exponent > 308 then none
  else
    let units := Binary64.nearest (start * power s.exponent.toNat) Binary64.one
    if units < Binary64.limit then some ⟨s.negative, units⟩ else none

end Scientific

/-! ## Texts of numbers -/

namespace Real64

/-- A number in words, in any case. -/
def ofWord? (negative : Bool) (cs : List Char) : Option Real64 :=
  match (String.ofList cs).toLower with
  | "inf" => some (.infinite negative)
  | "infinity" => some (.infinite negative)
  | "nan" => some .undefined
  | _ => none

def exponent? : List Char → Option Int
  | [] => some 0
  | _ :: rest => Numeral.integer? rest

/-- A number: digits with at most one point among them, and an exponent or none. -/
def ofText? (text : String) : Option Real64 := do
  let (negative, rest) := match text.toList with
    | '-' :: rest => (true, rest)
    | '+' :: rest => (false, rest)
    | cs => (false, cs)
  match ofWord? negative rest with
  | some x => return x
  | none =>
    let isE (c : Char) : Bool := c == 'e' || c == 'E'
    let mantissa := rest.takeWhile (!isE ·)
    let exponent ← exponent? (rest.dropWhile (!isE ·))
    let whole := mantissa.takeWhile Char.isDigit
    let fraction ← match mantissa.dropWhile Char.isDigit with
      | [] => some []
      | '.' :: fraction => if fraction.all Char.isDigit then some fraction else none
      | _ => none
    if whole.isEmpty ∧ fraction.isEmpty then none
    else return (Scientific.ofDigits negative whole fraction exponent).toReal64

end Real64

end Screening
