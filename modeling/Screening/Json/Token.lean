import Screening.Json.Value
import Screening.Number.Scientific

/-!
# JSON tokens

The bytes of a JSON text become tokens; the first byte that starts none becomes `Token.fault`, and
reading ends there.  A token can be well formed and still hold no value: a string whose escapes or
bytes are no Unicode text, a number beyond every binary64 number.  Such tokens carry `none`, so that
a reader that only skips them need not mind.

A whole number stays exact while it fits into 64 bits.  Any other number takes as many leading
digits as stay below `2 ^ 64` for its significand; digits behind them count for their place only.
-/

set_option autoImplicit false

namespace Screening.Json

inductive Token where
  | openBracket
  | closeBracket
  | openBrace
  | closeBrace
  | comma
  | colon
  | null
  | bool (b : Bool)
  | number (n : Option Number)
  | string (s : Option String)
  | fault

namespace Token

/-! ## Strings -/

/-- A piece of a string: a byte of its text or a UTF-16 unit from an escape. -/
inductive Piece where
  | byte (b : UInt8)
  | unit (u : Nat)

def hexDigit? (b : UInt8) : Option Nat := Numeral.hexDigit? (Char.ofNat b.toNat)

def hexUnit? (a b c d : UInt8) : Option Nat := do
  return ((← hexDigit? a) * 16 + (← hexDigit? b)) * 256 + (← hexDigit? c) * 16 + (← hexDigit? d)

/-- The byte that a one-letter escape stands for. -/
def escaped? (b : UInt8) : Option UInt8 :=
  match Char.ofNat b.toNat with
  | '"' => some 0x22
  | '\\' => some 0x5C
  | '/' => some 0x2F
  | 'b' => some 0x08
  | 'f' => some 0x0C
  | 'n' => some 0x0A
  | 'r' => some 0x0D
  | 't' => some 0x09
  | _ => none

/-- The pieces up to the closing quote, newest first, and the bytes behind it. -/
def quoted (acc : List Piece) : List UInt8 → Option (List Piece × List UInt8)
  | [] => none
  | 0x22 :: rest => some (acc, rest)
  | 0x5C :: 0x75 :: a :: b :: c :: d :: rest =>
    match hexUnit? a b c d with
    | some u => quoted (.unit u :: acc) rest
    | none => none
  | 0x5C :: e :: rest =>
    match escaped? e with
    | some b => quoted (.byte b :: acc) rest
    | none => none
  | b :: rest => if b < 0x20 then none else quoted (.byte b :: acc) rest

/-- The bytes of the pieces; surrogate units have to come in pairs. -/
def decode (acc : List UInt8) : List Piece → Option (List UInt8)
  | [] => some acc.reverse
  | .byte b :: rest => decode (b :: acc) rest
  | .unit u :: rest =>
    if u < 0xD800 ∨ 0xDFFF < u then
      decode ((String.utf8EncodeChar (Char.ofNat u)).reverse ++ acc) rest
    else match rest with
      | .unit low :: rest =>
        if u < 0xDC00 ∧ 0xDC00 ≤ low ∧ low ≤ 0xDFFF then
          let c := Char.ofNat (0x10000 + (u - 0xD800) * 0x400 + (low - 0xDC00))
          decode ((String.utf8EncodeChar c).reverse ++ acc) rest
        else none
      | _ => none

def text? (pieces : List Piece) : Option String := do
  let bytes ← decode [] pieces
  String.fromUTF8? ⟨bytes.toArray⟩

/-! ## Numbers -/

def isDigit (b : UInt8) : Bool := 0x30 ≤ b && b ≤ 0x39

def digit (b : UInt8) : Nat := b.toNat - 0x30

/-- Appends digits to a significand while it stays below `2 ^ 64`; the digits left over. -/
def fit (n : Nat) : List UInt8 → Nat × List UInt8
  | [] => (n, [])
  | d :: ds =>
    let longer := 10 * n + digit d
    if longer < 0x1_0000_0000_0000_0000 then fit longer ds else (n, d :: ds)

/-- A number as it is written: its digits before and behind the point, and its exponent. -/
structure Written where
  negative : Bool
  whole : List UInt8
  fraction : Option (List UInt8)
  exponent : Option Int

def Written.value? (w : Written) : Option Number :=
  let (m, left) := fit 0 w.whole
  match w.fraction, w.exponent, left with
  | none, none, [] =>
    if w.negative then
      if m = 0 then some (.real ⟨true, 0⟩)
      else match Number.ofInt? (-m) with
        | some n => some n
        | none => some (.real (Binary64.ofInt m).neg)
    else Number.ofInt? m
  | fraction, exponent, _ =>
    let digits := fraction.getD []
    let (m, rest) := fit m digits
    let shift : Int := left.length - (digits.length - rest.length : Nat)
    (Scientific.inTwoSteps? ⟨w.negative, m, shift + exponent.getD 0⟩).map .real

def exponent? (bytes : List UInt8) : Option (Option Int × List UInt8) :=
  match bytes with
  | e :: rest =>
    if e = 0x65 ∨ e = 0x45 then
      let (negative, rest) := match rest with
        | 0x2B :: rest => (false, rest)
        | 0x2D :: rest => (true, rest)
        | rest => (false, rest)
      let ds := rest.takeWhile isDigit
      if ds.isEmpty then none
      else
        let n : Int := ds.foldl (fun n d => 10 * n + digit d) 0
        some (some (if negative then -n else n), rest.dropWhile isDigit)
    else some (none, bytes)
  | [] => some (none, [])

def fraction? (bytes : List UInt8) : Option (Option (List UInt8) × List UInt8) :=
  match bytes with
  | 0x2E :: rest =>
    let ds := rest.takeWhile isDigit
    if ds.isEmpty then none else some (some ds, rest.dropWhile isDigit)
  | _ => some (none, bytes)

/-- The number at the head; a zero before further digits is none. -/
def number? (bytes : List UInt8) : Option (Written × List UInt8) := do
  let (negative, rest) := match bytes with
    | 0x2D :: rest => (true, rest)
    | _ => (false, bytes)
  let whole := rest.takeWhile isDigit
  if whole.isEmpty ∨ (whole.head? = some 0x30 ∧ 1 < whole.length) then none
  else
    let (fraction, rest) ← fraction? (rest.dropWhile isDigit)
    let (exponent, rest) ← exponent? rest
    return (⟨negative, whole, fraction, exponent⟩, rest)

/-! ## All tokens -/

def isBlank (b : UInt8) : Bool := b == 0x20 || b == 0x0A || b == 0x0D || b == 0x09

/-- The token at the head of bytes that start with no blank. -/
def next (b : UInt8) (rest : List UInt8) : Token × List UInt8 :=
  match Char.ofNat b.toNat, rest with
  | '[', _ => (openBracket, rest)
  | ']', _ => (closeBracket, rest)
  | '{', _ => (openBrace, rest)
  | '}', _ => (closeBrace, rest)
  | ',', _ => (comma, rest)
  | ':', _ => (colon, rest)
  | 'n', 0x75 :: 0x6C :: 0x6C :: rest => (null, rest)
  | 't', 0x72 :: 0x75 :: 0x65 :: rest => (bool true, rest)
  | 'f', 0x61 :: 0x6C :: 0x73 :: 0x65 :: rest => (bool false, rest)
  | '"', _ =>
    match quoted [] rest with
    | some (pieces, rest) => (string (text? pieces.reverse), rest)
    | none => (fault, [])
  | _, _ =>
    match number? (b :: rest) with
    | some (w, rest) => (number w.value?, rest)
    | none => (fault, [])

def readFrom (acc : List Token) : Nat → List UInt8 → List Token
  | 0, _ => acc.reverse
  | _ + 1, [] => acc.reverse
  | fuel + 1, b :: rest =>
    if isBlank b then readFrom acc fuel rest
    else
      let (t, rest) := next b rest
      readFrom (t :: acc) fuel rest

/-- The tokens of a text; every step takes at least one byte. -/
def read (bytes : List UInt8) : List Token := readFrom [] bytes.length bytes

end Token

end Screening.Json
