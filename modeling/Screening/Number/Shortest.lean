import Screening.Number.Binary64

/-!
# The shortest decimal that reads back

Of all decimals that round to a given binary64 number, the text of the number is one with the fewest
digits, and of those the nearest to it.  The decimals that round to `x` fill an interval round `x`
which reaches half way to either neighbour and takes its ends in when the significand is even.

With the place of the leading digit fixed, the decimals of `n` digits form a grid.  If the interval
holds a point of the grid it holds one of the two points next to `x`, so it is enough to look at
those, for one digit, two digits and so on; seventeen always do.

The digits say nothing about the layout.  `Shortest.positional` writes them out in place, and
`Shortest.compact` goes over to an exponent outside of `10 ^ -5` to `10 ^ 16` and keeps a fraction
on whole numbers.
-/

set_option autoImplicit false

namespace Screening

/-- The decimal `significand * 10 ^ exponent`. -/
structure Shortest where
  significand : Nat
  exponent : Int

namespace Shortest

/-- The exponent of the leading decimal digit of a positive number of units. -/
def leading (units : Nat) : Int :=
  if Binary64.one ≤ units then
    ((Nat.toDigits 10 (units / Binary64.one)).length : Int) - 1
  else
    match (List.range 324).find? fun k => Binary64.one ≤ units * Nat.pow 10 (k + 1) with
    | some k => -(k + 1 : Int)
    | none => -324

/-- Whether the decimal rounds to the number of units. -/
def readsBack (units : Nat) (d : Shortest) : Bool :=
  let step := Binary64.spacing units
  let below := if units.log2 > 52 ∧ units = Nat.pow 2 units.log2 then step / 2 else step
  let up := Nat.pow 10 d.exponent.toNat
  let down := Nat.pow 10 (-d.exponent).toNat
  let point := 4 * Binary64.one * d.significand * up
  let low := (4 * units - 2 * below) * down
  let high := (4 * units + 2 * step) * down
  if units / step % 2 = 0 then low ≤ point && point ≤ high else low < point && point < high

/-- The nearest decimal of the grid with the given exponent that reads back. -/
def onGrid? (units : Nat) (exponent : Int) : Option Shortest :=
  let num := units * Nat.pow 10 (-exponent).toNat
  let den := Binary64.one * Nat.pow 10 exponent.toNat
  let q := num / den
  let lower : Shortest := ⟨q, exponent⟩
  let upper : Shortest := ⟨q + 1, exponent⟩
  match readsBack units lower, readsBack units upper with
  | true, true =>
    let r := 2 * (num % den)
    if r < den || (r == den && q % 2 == 0) then some lower else some upper
  | true, false => some lower
  | false, true => some upper
  | false, false => none

/-- Ten as a factor of the significand moved into the exponent. -/
def trim : Nat → Shortest → Shortest
  | 0, d => d
  | fuel + 1, d =>
    if d.significand ≠ 0 ∧ d.significand % 10 = 0 then
      trim fuel ⟨d.significand / 10, d.exponent + 1⟩
    else d

/-- The shortest decimal of a positive number of units. -/
def ofUnits (units : Nat) : Shortest :=
  let e := leading units
  match (List.range 17).findSome? fun (n : Nat) => onGrid? units (e - n) with
  | some d => trim 20 d
  | none => ⟨0, 0⟩

def zeros (n : Nat) : String := String.ofList (List.replicate n '0')

/-- The digits with the point in its place and no exponent. -/
def positional (d : Shortest) : String :=
  let ds := Nat.toDigits 10 d.significand
  let point := ds.length + d.exponent
  if 0 ≤ d.exponent then String.ofList ds ++ zeros d.exponent.toNat
  else if 0 < point then
    String.ofList (ds.take point.toNat) ++ "." ++ String.ofList (ds.drop point.toNat)
  else "0." ++ zeros (-point).toNat ++ String.ofList ds

/-- The digits with an exponent when they are far from the point, and with a fraction otherwise. -/
def compact (d : Shortest) : String :=
  let ds := Nat.toDigits 10 d.significand
  let point := ds.length + d.exponent
  if 0 ≤ d.exponent ∧ point ≤ 16 then d.positional ++ ".0"
  else if -5 < point ∧ point ≤ 16 then d.positional
  else
    let e := point - 1
    let exponent :=
      (if e < 0 then "-" else "") ++ String.ofList (Nat.toDigits 10 e.natAbs)
    match ds with
    | [] => ""
    | [c] => c.toString ++ "e" ++ exponent
    | c :: rest => c.toString ++ "." ++ String.ofList rest ++ "e" ++ exponent

end Shortest

namespace Binary64

def sign (x : Binary64) : String := if x.negative then "-" else ""

/-- The shortest text in positional notation; whole numbers have no point. -/
def toPositional (x : Binary64) : String :=
  x.sign ++ if x.units = 0 then "0" else (Shortest.ofUnits x.units).positional

/-- The shortest text with an exponent where that is shorter to read; whole numbers end in `.0`. -/
def toCompact (x : Binary64) : String :=
  x.sign ++ if x.units = 0 then "0.0" else (Shortest.ofUnits x.units).compact

end Binary64

/-- The text of a number in positional notation, with words for what is not finite. -/
def Real64.toText : Real64 → String
  | finite x => x.toPositional
  | infinite negative => if negative then "-inf" else "inf"
  | undefined => "NaN"

end Screening
