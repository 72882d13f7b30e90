import Screening.Number.Scientific
import Screening.Settings.Setting
import Screening.Text.Blank
import Screening.Text.Digit
import Screening.Text.WordChar

/-!
# RON

An object notation with structures: fields with names between parentheses, maybe with the name of
the structure in front, values without names between parentheses, lists in brackets, maps in braces,
and options.  As settings, structures and maps are tables, options are what is in them, and what is
empty is `Setting.nothing`.
-/

set_option autoImplicit false

namespace Screening.Ron

/-- How many comments are open round a place; a comment to the end of the line is told apart. -/
inductive Space where
  | outside
  | line
  | block (depth : Nat)

/-- Skips blanks and comments; nothing if a comment is not closed. -/
def skip : Space → List Char → Option (List Char)
  | .outside, '/' :: '/' :: rest => skip .line rest
  | .outside, '/' :: '*' :: rest => skip (.block 0) rest
  | .outside, c :: rest => if Text.isBlank c then skip .outside rest else some (c :: rest)
  | .line, c :: rest => skip (if c = '\n' then .outside else .line) rest
  | .block n, '/' :: '*' :: rest => skip (.block (n + 1)) rest
  | .block 0, '*' :: '/' :: rest => skip .outside rest
  | .block (n + 1), '*' :: '/' :: rest => skip (.block n) rest
  | .block n, _ :: rest => skip (.block n) rest
  | .block _, [] => none
  | _, [] => some []

/-! ## Words, strings and numbers -/

def isNameStart (c : Char) : Bool := c == '_' || (Text.isWordChar c && !Text.isDigit c)

def name? : List Char → Option (List Char × List Char)
  | c :: rest =>
    if isNameStart c then some (c :: rest.takeWhile Text.isWordChar, rest.dropWhile Text.isWordChar)
    else none
  | [] => none

def numbered? (digits : List Char) : Option Char := do
  let n := (← digits.mapM Numeral.hexDigit?).foldl (fun n d => 16 * n + d) 0
  if !digits.isEmpty ∧ (n < 0xD800 ∨ (0xDFFF < n ∧ n < 0x110000)) then some (Char.ofNat n)
  else none

def escape? : List Char → Option (Char × List Char)
  | 'n' :: rest => some ('\n', rest)
  | 'r' :: rest => some ('\r', rest)
  | 't' :: rest => some ('\t', rest)
  | '0' :: rest => some ('\x00', rest)
  | '\\' :: rest => some ('\\', rest)
  | '"' :: rest => some ('"', rest)
  | '\'' :: rest => some ('\'', rest)
  | 'x' :: a :: b :: rest => do return (← numbered? [a, b], rest)
  | 'u' :: '\x7b' :: rest =>
    match rest.dropWhile (· ≠ '\x7d') with
    | _ :: more => do return (← numbered? (rest.takeWhile (· ≠ '\x7d')), more)
    | [] => none
  | _ => none

/-- A string up to its closing quote; `acc` has the characters so far, newest first. -/
def quoted (acc : List Char) : Nat → List Char → Option (String × List Char)
  | _, '"' :: rest => some (String.ofList acc.reverse, rest)
  | fuel + 1, '\\' :: rest => do
    let (c, rest) ← escape? rest
    quoted (c :: acc) fuel rest
  | fuel + 1, c :: rest => quoted (c :: acc) fuel rest
  | _, _ => none

/-- A string without escapes, up to a quote with the given number of hashes behind it. -/
def raw (hashes : Nat) (acc : List Char) : List Char → Option (String × List Char)
  | [] => none
  | c :: rest =>
    if c = '"' ∧ (List.replicate hashes '#').isPrefixOf rest then
      some (String.ofList acc.reverse, rest.drop hashes)
    else raw hashes (c :: acc) rest

/-- A string in quotes, raw or not, or a single character. -/
def string? : List Char → Option (String × List Char)
  | '"' :: rest => quoted [] (rest.length + 1) rest
  | '\'' :: '\\' :: rest => do
    match ← escape? rest with
    | (c, '\'' :: rest) => return (c.toString, rest)
    | _ => none
  | '\'' :: c :: '\'' :: rest => some (c.toString, rest)
  | 'r' :: rest =>
    let hashes := rest.takeWhile (· == '#')
    match rest.drop hashes.length with
    | '"' :: rest => raw hashes.length [] rest
    | _ => none
  | _ => none

def isNumberChar (c : Char) : Bool :=
  c.isAlphanum || c == '+' || c == '-' || c == '.' || c == '_'

def digits? (base : Nat) (cs : List Char) : Option Nat := do
  let ds := cs.filter (· ≠ '_')
  if ds.isEmpty then none
  else return (← ds.mapM fun c => (Numeral.hexDigit? c).filter (· < base)).foldl (base * · + ·) 0

def magnitude? : List Char → Option Nat
  | '0' :: 'x' :: rest => digits? 16 rest
  | '0' :: 'o' :: rest => digits? 8 rest
  | '0' :: 'b' :: rest => digits? 2 rest
  | cs => digits? 10 cs

/-- The number that a word is: a whole one in 64 bits with or without a sign, or one with a point or
an exponent. -/
def number? (word : List Char) : Option Setting :=
  let (negative, cs) := match word with
    | '-' :: rest => (true, rest)
    | '+' :: rest => (false, rest)
    | _ => (false, word)
  match magnitude? cs with
  | some n =>
    if negative then if n ≤ 0x8000_0000_0000_0000 then some (.integer (-n)) else none
    else if n ≤ 0xFFFF_FFFF_FFFF_FFFF then some (.integer n) else none
  | none =>
    if cs = "inf".toList then some (.real (.infinite negative))
    else if cs = "NaN".toList then some (.real .undefined)
    else if cs.any Char.isDigit then
      (Real64.ofText? (String.ofList (word.filter (· ≠ '_')))).map .real
    else none

/-! ## Values -/

/-- What has been opened and is read on. -/
inductive Frame where
  | list (close : Char) (items : List Setting)
  | fields (entries : Entries)
  | map (entries : Entries)

def Frame.close : Frame → Char
  | list c _ => c
  | fields _ => ')'
  | map _ => '\x7d'

/-- What a frame comes to; nothing between parentheses is no list. -/
def Frame.setting : Frame → Setting
  | list ')' [] => .nothing
  | list _ items => .list items
  | fields es => .table es
  | map es => .table es

/-- Whether the first thing between parentheses is the name of a field. -/
def namesField (cs : List Char) : Bool :=
  match (skip .outside cs).bind name? with
  | some (_, rest) => ((skip .outside rest).bind List.head?) = some ':'
  | none => false

/-- What stands between parentheses. -/
def parenthesis (cs : List Char) : Frame :=
  if namesField cs then .fields [] else .list ')' []

/-- A word that is a value by itself. -/
def word? (word : List Char) : Option Setting :=
  if word = "true".toList then some (.flag true)
  else if word = "false".toList then some (.flag false)
  else if word = "None".toList then some .nothing
  else if word = "inf".toList ∨ word = "NaN".toList then number? word
  else none

/-- What an option or a structure comes to, given its name and what is between its parentheses. -/
def named (word : List Char) : Setting → Setting
  | .list [t] => if word = "Some".toList then t else .list [t]
  | t => t

mutual

def value : Nat → List Char → Option (Setting × List Char)
  | 0, _ => none
  | fuel + 1, cs => do
    let cs ← skip .outside cs
    match cs with
    | '[' :: rest => container fuel (.list ']' []) rest
    | '\x7b' :: rest => container fuel (.map []) rest
    | '(' :: rest => container fuel (parenthesis rest) rest
    | _ =>
      match string? cs with
      | some (s, rest) => return (.text s, rest)
      | none =>
        match name? cs with
        | none => (number? (cs.takeWhile isNumberChar)).map (·, cs.dropWhile isNumberChar)
        | some (name, rest) =>
          match word? name, ← skip .outside rest with
          | some t, _ => return (t, rest)
          | none, '(' :: rest =>
            let (t, rest) ← container fuel (parenthesis rest) rest
            return (named name t, rest)
          | none, _ => return (.nothing, rest)

/-- Reads on in something that has been opened, up to its end. -/
def container : Nat → Frame → List Char → Option (Setting × List Char)
  | 0, _, _ => none
  | fuel + 1, frame, cs => do
    let cs ← skip .outside cs
    if cs.head? = some frame.close then return (frame.setting, cs.drop 1)
    else
      let (frame, rest) ← match frame with
        | .list close items => do
          let (v, rest) ← value fuel cs
          pure (Frame.list close (items ++ [v]), rest)
        | .fields es => do
          let (k, rest) ← name? cs
          match ← skip .outside rest with
          | ':' :: rest => do
            let (v, rest) ← value fuel rest
            pure (Frame.fields (Setting.put (String.ofList k) v es), rest)
          | _ => none
        | .map es => do
          match ← value fuel cs with
          | (.text k, rest) =>
            match ← skip .outside rest with
            | ':' :: rest => do
              let (v, rest) ← value fuel rest
              pure (Frame.map (Setting.put k v es), rest)
            | _ => none
          | _ => none
      match ← skip .outside rest with
      | ',' :: rest => container fuel frame rest
      | c :: rest => if c = frame.close then return (frame.setting, rest) else none
      | [] => none

end

end Screening.Ron

namespace Screening

/-- The entries of the structure or the map that a text holds. -/
def Setting.ofRon? (text : String) : Option Entries := do
  let (t, rest) ← Ron.value (2 * text.length + 2) text.toList
  match t, ← Ron.skip .outside rest with
  | .table es, [] => some es
  | _, _ => none

end Screening
