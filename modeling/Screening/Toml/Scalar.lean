import Screening.Number.Scientific
import Screening.Numeral
import Screening.Toml.Text
import Screening.Settings.Setting

/-!
# Numbers, truth values and moments of TOML

These values are single words.  Whole numbers fit into 64 bits or are refused, and so is a number
with a fraction or an exponent that is too great to be finite.  Underscores may stand between two
digits.

Settings know no dates and times, so a moment is kept as text: with a `T` between date and time, a
`Z` for universal time, and a fraction of at most nine digits that does not end in zeros unless it
is a single one.
-/

set_option autoImplicit false

namespace Screening.Toml

def isWordChar (c : Char) : Bool :=
  c.isAlphanum || c == '+' || c == '-' || c == '_' || c == '.' || c == ':'

/-- Digits without the underscores between them. -/
def digits? (isDigit : Char → Bool) (cs : List Char) : Option (List Char) :=
  let groups := cs.splitOn '_'
  if groups.all fun g => !g.isEmpty && g.all isDigit then some groups.flatten else none

/-- The decimal digits of a whole part: a zero stands only by itself. -/
def wholeDigits? (cs : List Char) : Option (List Char) := do
  let ds ← digits? Char.isDigit cs
  if ds.head? = some '0' ∧ ds.length ≠ 1 then none else some ds

def splitSign : List Char → Bool × List Char
  | '-' :: rest => (true, rest)
  | '+' :: rest => (false, rest)
  | cs => (false, cs)

/-! ## Numbers -/

def inBase? (base : Nat) (cs : List Char) : Option Int := do
  let ds ← digits? (fun c => (Numeral.hexDigit? c).any (· < base)) cs
  let n : Nat := (← ds.mapM Numeral.hexDigit?).foldl (fun n d => base * n + d) 0
  return n

def wholeNumber? (cs : List Char) : Option Int :=
  match cs with
  | '0' :: 'x' :: rest => inBase? 16 rest
  | '0' :: 'o' :: rest => inBase? 8 rest
  | '0' :: 'b' :: rest => inBase? 2 rest
  | _ => do
    let (negative, rest) := splitSign cs
    let n : Int := Numeral.ofDigits (← wholeDigits? rest)
    return if negative then -n else n

def integer? (cs : List Char) : Option Setting :=
  ((wholeNumber? cs).bind Numeral.toInt64?).map fun n => .integer n.toInt

def exponent? (cs : List Char) : Option Int := do
  let (negative, rest) := splitSign cs
  let n : Int := Numeral.ofDigits (← digits? Char.isDigit rest)
  return if negative then -n else n

/-- A number with a fraction, an exponent or both, as it is written. -/
def scientific? (cs : List Char) : Option Scientific := do
  let (negative, rest) := splitSign cs
  let isE (c : Char) : Bool := c == 'e' || c == 'E'
  let mantissa := rest.takeWhile (!isE ·)
  let (whole, fraction) ← match mantissa.splitOn '.' with
    | [whole] => do pure (← wholeDigits? whole, none)
    | [whole, fraction] => do pure (← wholeDigits? whole, some (← digits? Char.isDigit fraction))
    | _ => none
  let exponent ← match rest.dropWhile (!isE ·) with
    | [] => pure none
    | _ :: e => do pure (some (← exponent? e))
  if fraction.isNone ∧ exponent.isNone then none
  else return Scientific.ofDigits negative whole (fraction.getD []) (exponent.getD 0)

/-- Such a number as a setting, unless it is too great. -/
def fractional? (cs : List Char) : Option Setting := do
  match (← scientific? cs).toReal64 with
  | .finite x => some (.real (.finite x))
  | _ => none

def real? (cs : List Char) : Option Setting :=
  match splitSign cs with
  | (negative, ['i', 'n', 'f']) => some (.real (.infinite negative))
  | (_, ['n', 'a', 'n']) => some (.real .undefined)
  | _ => fractional? cs

/-! ## Moments -/

def number? (cs : List Char) : Option Nat := Numeral.natural? cs

def isLeap (year : Nat) : Bool := year % 4 == 0 && (year % 100 != 0 || year % 400 == 0)

def daysIn (year month : Nat) : Nat :=
  if month = 2 then if isLeap year then 29 else 28
  else if month ∈ [4, 6, 9, 11] then 30
  else 31

/-- A date at the head of a word. -/
def date? : Reader (List Char)
  | a :: b :: c :: d :: '-' :: e :: f :: '-' :: g :: h :: rest => do
    let year ← number? [a, b, c, d]
    let month ← number? [e, f]
    let day ← number? [g, h]
    if 1 ≤ month ∧ month ≤ 12 ∧ 1 ≤ day ∧ day ≤ daysIn year month then
      some ([a, b, c, d, '-', e, f, '-', g, h], rest)
    else none
  | _ => none

/-- The digits of a fraction of a second as they are kept. -/
def trimFraction (ds : List Char) : List Char :=
  let kept := ((ds.take 9).reverse.dropWhile (· == '0')).reverse
  if kept.isEmpty then ['0'] else kept

/-- The seconds of a time of day, with their fraction, if there are any. -/
def seconds? : Reader (List Char)
  | ':' :: a :: b :: rest => do
    let second ← number? [a, b]
    if 60 < second then none
    else match rest with
      | '.' :: rest =>
        let ds := rest.takeWhile Char.isDigit
        if ds.isEmpty then none
        else some (':' :: a :: b :: '.' :: trimFraction ds, rest.dropWhile Char.isDigit)
      | rest => some ([':', a, b], rest)
  | [':'] => none
  | [':', _] => none
  | cs => some ([], cs)

/-- A time of day at the head of a word; the seconds may be left out. -/
def time? : Reader (List Char)
  | a :: b :: ':' :: c :: d :: rest => do
    let hour ← number? [a, b]
    let minute ← number? [c, d]
    if hour ≤ 23 ∧ minute ≤ 59 then
      let (seconds, rest) ← seconds? rest
      return (a :: b :: ':' :: c :: d :: seconds, rest)
    else none
  | _ => none

/-- A whole word as the distance from universal time, less than a day; no distance is written with
a plus sign. -/
def offset? : List Char → Option (List Char)
  | ['Z'] => some ['Z']
  | ['z'] => some ['Z']
  | [sign, a, b, ':', c, d] => do
    let hours ← number? [a, b]
    let minutes ← number? [c, d]
    if (sign = '+' ∨ sign = '-') ∧ hours ≤ 23 ∧ minutes ≤ 59 then
      some [if hours = 0 ∧ minutes = 0 then '+' else sign, a, b, ':', c, d]
    else none
  | _ => none

def moment? (word : List Char) : Option (List Char) :=
  match date? word with
  | some (date, []) => some date
  | some (date, t :: rest) => do
    if t = 'T' ∨ t = 't' ∨ t = ' ' then
      let (time, rest) ← time? rest
      let offset ← if rest.isEmpty then some [] else offset? rest
      return date ++ 'T' :: time ++ offset
    else none
  | none =>
    match time? word with
    | some (time, []) => some time
    | _ => none

/-! ## All of them -/

def ofWord? (word : List Char) : Option Setting :=
  if word = ['t', 'r', 'u', 'e'] then some (.flag true)
  else if word = ['f', 'a', 'l', 's', 'e'] then some (.flag false)
  else match integer? word with
    | some t => some t
    | none =>
      match real? word with
      | some t => some t
      | none => (moment? word).map fun m => .text (String.ofList m)

/-- The word at the head; a blank in it may part a date from a time. -/
def word (cs : List Char) : List Char × List Char :=
  let first := cs.takeWhile isWordChar
  match (date? first).map Prod.snd, cs.dropWhile isWordChar with
  | some [], ' ' :: c :: rest =>
    if c.isDigit then
      (first ++ ' ' :: (c :: rest).takeWhile isWordChar, (c :: rest).dropWhile isWordChar)
    else (first, ' ' :: c :: rest)
  | _, rest => (first, rest)

def scalar : Reader Setting := fun cs =>
  let (w, rest) := word cs
  (ofWord? w).map fun t => (t, rest)

end Screening.Toml
