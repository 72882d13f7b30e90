/-!
# Whole numbers in decimal

`Numeral.integer?` reads an optional sign and at least one ASCII digit, and nothing else: no blank,
no underscore, no other script's digits.  `Numeral.int64?` reads the same texts and keeps the values
that fit in 64 bits, so that a longer digit string is no number at all rather than a clipped one.
-/

set_option autoImplicit false

namespace Screening.Numeral

/-- The value of a run of ASCII digits read from the left. -/
def ofDigits (ds : List Char) : Nat := ds.foldl (fun n d => 10 * n + (d.toNat - '0'.toNat)) 0

def natural? (ds : List Char) : Option Nat :=
  if ds ≠ [] ∧ ds.all Char.isDigit then some (ofDigits ds) else none

def integer? : List Char → Option Int
  | '+' :: ds => (natural? ds).map Int.ofNat
  | '-' :: ds => (natural? ds).map fun n => -Int.ofNat n
  | ds => (natural? ds).map Int.ofNat

/-- The integer in 64 bits, if it fits. -/
def toInt64? (n : Int) : Option Int64 :=
  if -0x8000_0000_0000_0000 ≤ n ∧ n < 0x8000_0000_0000_0000 then some (Int64.ofInt n) else none

def int64? (s : List Char) : Option Int64 := (integer? s).bind toInt64?

/-- The value of a numeral without a minus sign, if it is at most `top`. -/
def naturalUpTo? (top : Nat) (s : List Char) : Option Nat :=
  let ds := match s with
    | '+' :: ds => ds
    | ds => ds
  (natural? ds).filter (· ≤ top)

/-- The value of a hexadecimal digit in either case. -/
def hexDigit? (c : Char) : Option Nat :=
  if c.isDigit then some (c.toNat - '0'.toNat)
  else if 'a' ≤ c ∧ c ≤ 'f' then some (c.toNat - 'a'.toNat + 10)
  else if 'A' ≤ c ∧ c ≤ 'F' then some (c.toNat - 'A'.toNat + 10)
  else none

/-- The digits of a natural number, most significant first. -/
def digits (n : Nat) : List Char := Nat.toDigits 10 n

def ofInt (n : Int) : String :=
  if n < 0 then "-" ++ String.ofList (digits n.natAbs) else String.ofList (digits n.natAbs)

end Screening.Numeral
