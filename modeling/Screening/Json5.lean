import Screening.Number.Scientific
import Screening.Settings.Setting
import Screening.Text.Blank
import Screening.Text.Digit
import Screening.Text.WordChar

/-!
# JSON5

JSON for hand-written files: comments, a comma behind the last item, keys without quotes, strings in
either kind of quotes and over several lines, and numbers with a plus sign, in hexadecimal, without
a digit on one side of the point, or infinite.
-/

set_option autoImplicit false

namespace Screening.Json5

/-- The places in a text where nothing but a value may stand, and those in comments. -/
inductive Space where
  | outside
  | line
  | block

def isBreak (c : Char) : Bool := c == '\n' || c == '\r' || c == '\u2028' || c == '\u2029'

def isSpace (c : Char) : Bool := (Text.isBlank c && c != '\u0085') || c == '\uFEFF'

/-- Skips blanks and comments; nothing if a comment is not closed. -/
def skip : Space → List Char → Option (List Char)
  | .outside, '/' :: '/' :: rest => skip .line rest
  | .outside, '/' :: '*' :: rest => skip .block rest
  | .outside, c :: rest => if isSpace c then skip .outside rest else some (c :: rest)
  | .line, c :: rest => skip (if isBreak c then .outside else .line) rest
  | .block, '*' :: '/' :: rest => skip .outside rest
  | .block, _ :: rest => skip .block rest
  | .block, [] => none
  | _, [] => some []

/-! ## Strings and keys -/

def hex? (digits : List Char) : Option Nat := do
  return (← digits.mapM Numeral.hexDigit?).foldl (fun n d => 16 * n + d) 0

/-- The character of four hexadecimal digits and, if these are half of one, of the escape behind
them. -/
def unit? : List Char → Option (Char × List Char)
  | a :: b :: c :: d :: rest => do
    let n ← hex? [a, b, c, d]
    if n < 0xD800 ∨ 0xDFFF < n then return (Char.ofNat n, rest)
    else match rest with
      | '\\' :: 'u' :: e :: f :: g :: h :: rest => do
        let m ← hex? [e, f, g, h]
        if n < 0xDC00 ∧ 0xDC00 ≤ m ∧ m ≤ 0xDFFF then
          return (Char.ofNat (0x10000 + (n - 0xD800) * 0x400 + (m - 0xDC00)), rest)
        else none
      | _ => none
  | _ => none

/-- What an escape stands for; a line break behind a backslash stands for nothing. -/
def escape? : List Char → Option (List Char × List Char)
  | 'x' :: a :: b :: rest => do return ([Char.ofNat (← hex? [a, b])], rest)
  | 'u' :: rest => (unit? rest).map fun (c, rest) => ([c], rest)
  | '\r' :: '\n' :: rest => some ([], rest)
  | 'b' :: rest => some (['\x08'], rest)
  | 'f' :: rest => some (['\x0c'], rest)
  | 'n' :: rest => some (['\n'], rest)
  | 'r' :: rest => some (['\r'], rest)
  | 't' :: rest => some (['\t'], rest)
  | 'v' :: rest => some (['\x0b'], rest)
  | '0' :: rest => some (['\x00'], rest)
  | c :: rest =>
    if isBreak c then some ([], rest)
    else if c.isDigit || c == 'x' then none
    else some ([c], rest)
  | [] => none

/-- A string up to its closing quote; `acc` has the characters so far, newest first. -/
def quoted (mark : Char) (acc : List Char) : Nat → List Char → Option (String × List Char)
  | fuel + 1, c :: rest =>
    if c = mark then some (String.ofList acc.reverse, rest)
    else if c = '\\' then do
      let (cs, rest) ← escape? rest
      quoted mark (cs ++ acc) fuel rest
    else if isBreak c then none
    else quoted mark (c :: acc) fuel rest
  | _, _ => none

def isNameStart (c : Char) : Bool :=
  c == '$' || c == '_' || (Text.isWordChar c && !Text.isDigit c)

def isNameChar (c : Char) : Bool := c == '$' || Text.isWordChar c

def key? : List Char → Option (String × List Char)
  | '"' :: rest => quoted '"' [] (rest.length + 1) rest
  | '\'' :: rest => quoted '\'' [] (rest.length + 1) rest
  | c :: rest =>
    if isNameStart c then
      some (String.ofList (c :: rest.takeWhile isNameChar), rest.dropWhile isNameChar)
    else none
  | [] => none

/-! ## Numbers -/

def isNumberChar (c : Char) : Bool := c.isAlphanum || c == '+' || c == '-' || c == '.'

/-- A whole number in decimal, which has no zeros in front. -/
def isWhole : List Char → Bool
  | ['0'] => true
  | c :: rest => c.isDigit && c != '0' && rest.all Char.isDigit
  | [] => false

/-- Whether a number is written with a point or an exponent, as it has to be. -/
def isFractional (cs : List Char) : Bool :=
  let isE (c : Char) : Bool := c == 'e' || c == 'E'
  let mantissa := cs.takeWhile (!isE ·)
  let mantissaOk := match mantissa.splitOn '.' with
    | [whole] => isWhole whole
    | [[], fraction] => !fraction.isEmpty && fraction.all Char.isDigit
    | [whole, fraction] => isWhole whole && fraction.all Char.isDigit
    | _ => false
  mantissaOk && match cs.dropWhile (!isE ·) with
    | [] => true
    | _ :: '+' :: ds => !ds.isEmpty && ds.all Char.isDigit
    | _ :: '-' :: ds => !ds.isEmpty && ds.all Char.isDigit
    | _ :: ds => !ds.isEmpty && ds.all Char.isDigit

def hexadecimal? (negative : Bool) (digits : List Char) : Option Setting := do
  if digits.isEmpty ∨ negative then none
  else return .integer (← Numeral.toInt64? (← hex? digits)).toInt

/-- The number that a word is; a finite one stays finite. -/
def number? (word : List Char) : Option Setting :=
  let (negative, cs) := match word with
    | '-' :: rest => (true, rest)
    | '+' :: rest => (false, rest)
    | _ => (false, word)
  match cs with
  | '0' :: 'x' :: digits => hexadecimal? negative digits
  | '0' :: 'X' :: digits => hexadecimal? negative digits
  | _ =>
    if cs = "Infinity".toList then some (.real (.infinite negative))
    else if cs = "NaN".toList then some (.real .undefined)
    else if isWhole cs then (Numeral.int64? word).map fun n => .integer n.toInt
    else if isFractional cs then
      match Real64.ofText? (String.ofList word) with
      | some (.finite x) => some (.real (.finite x))
      | _ => none
    else none

def word? (word : List Char) : Option Setting :=
  if word = "null".toList then some .nothing
  else if word = "true".toList then some (.flag true)
  else if word = "false".toList then some (.flag false)
  else number? word

/-! ## Values -/

/-- What has been opened and is read on. -/
inductive Frame where
  | list (items : List Setting)
  | object (entries : Entries)

def Frame.close : Frame → Char
  | list _ => ']'
  | object _ => '\x7d'

def Frame.setting : Frame → Setting
  | list items => .list items
  | object es => .table es

mutual

def value : Nat → List Char → Option (Setting × List Char)
  | 0, _ => none
  | fuel + 1, cs => do
    match ← skip .outside cs with
    | '[' :: rest => container fuel (.list []) rest
    | '\x7b' :: rest => container fuel (.object []) rest
    | '"' :: rest => (quoted '"' [] (rest.length + 1) rest).map fun (s, rest) => (.text s, rest)
    | '\'' :: rest => (quoted '\'' [] (rest.length + 1) rest).map fun (s, rest) => (.text s, rest)
    | cs => (word? (cs.takeWhile isNumberChar)).map (·, cs.dropWhile isNumberChar)

/-- Reads on in something that has been opened, up to its end. -/
def container : Nat → Frame → List Char → Option (Setting × List Char)
  | 0, _, _ => none
  | fuel + 1, frame, cs => do
    let cs ← skip .outside cs
    if cs.head? = some frame.close then return (frame.setting, cs.drop 1)
    else
      let (frame, rest) ← match frame with
        | .list items => do
          let (v, rest) ← value fuel cs
          pure (Frame.list (items ++ [v]), rest)
        | .object es => do
          let (k, rest) ← key? cs
          match ← skip .outside rest with
          | ':' :: rest => do
            let (v, rest) ← value fuel rest
            pure (Frame.object (Setting.put k v es), rest)
          | _ => none
      match ← skip .outside rest with
      | ',' :: rest => container fuel frame rest
      | c :: rest => if c = frame.close then return (frame.setting, rest) else none
      | [] => none

end

end Screening.Json5

namespace Screening

/-- The entries of the object that a text holds. -/
def Setting.ofJson5? (text : String) : Option Entries := do
  let (t, rest) ← Json5.value (2 * text.length + 2) text.toList
  match t, ← Json5.skip .outside rest with
  | .table es, [] => some es
  | _, _ => none

end Screening
