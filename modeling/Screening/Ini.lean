import Screening.Numeral
import Screening.Settings.Setting
import Screening.Text.Blank

/-!
# INI files

A file has keys with values, one to a line and parted by an equals sign or a colon, and headers in
brackets that open sections.  The keys in front of the first header are settings of their own, and
each section is a table.  All values are texts.

A comment takes a whole line and begins with its first character.  A backslash stands in front of
what would mean something else, and a value, or the first part of it, may be put between quotes.
-/

set_option autoImplicit false

namespace Screening.Ini

def isLineEnd (c : Char) : Bool := c == '\n' || c == '\r'

/-- The characters of a hexadecimal escape. -/
def numbered? (digits : List Char) : Option Char := do
  let n := (← digits.mapM Numeral.hexDigit?).foldl (fun n d => 16 * n + d) 0
  if n < 0xD800 ∨ 0xDFFF < n then some (Char.ofNat n) else none

/-- What a character behind a backslash stands for; a line break stands for nothing. -/
def escaped : Char → List Char
  | '0' => ['\x00']
  | 'a' => ['\x07']
  | 'b' => ['\x08']
  | 't' => ['\t']
  | 'r' => ['\r']
  | 'n' => ['\n']
  | '\n' => []
  | c => [c]

/-- Reads up to a character that stops it, or with `toEnd` up to the end of the file at the latest;
`acc` has the characters so far, newest first. -/
def textUntil (stops : Char → Bool) (toEnd : Bool) (acc : List Char) :
    List Char → Option (List Char × List Char)
  | [] => if toEnd then some (acc.reverse, []) else none
  | '\\' :: 'x' :: a :: b :: c :: d :: rest => do
    textUntil stops toEnd ((← numbered? [a, b, c, d]) :: acc) rest
  | '\\' :: c :: rest =>
    if c = 'x' then none else textUntil stops toEnd ((escaped c).reverse ++ acc) rest
  | c :: rest =>
    if stops c then some (acc.reverse, c :: rest)
    else if c = '\\' then none
    else textUntil stops toEnd (c :: acc) rest

def trimEnd (cs : List Char) : List Char := (cs.reverse.dropWhile Text.isBlank).reverse

def trim (cs : List Char) : List Char := trimEnd (cs.dropWhile Text.isBlank)

/-- The value of a line: parts between quotes as they are, and the rest of the line without the
blanks at its end, and without those in front if it is all of the value. -/
def valueFrom (first : Bool) (acc : List Char) : Nat → List Char → Option (List Char × List Char)
  | 0, _ => none
  | fuel + 1, cs =>
    match cs with
    | [] => some (acc, [])
    | c :: rest =>
      if c == '"' || c == '\'' then do
        let (part, rest) ← textUntil (· == c) false [] rest
        valueFrom false (acc ++ part) fuel (rest.drop 1)
      else do
        let (part, rest) ← textUntil isLineEnd true [] (c :: rest)
        return (acc ++ (if first then trim part else trimEnd part), rest)

/-- What has been read of a file: the settings, and the section that is open, if there is one. -/
structure Reading where
  entries : Entries := []
  current : Option (String × Entries) := none

namespace Reading

def close (r : Reading) : Entries :=
  match r.current with
  | some (name, es) => Setting.put name (.table es) r.entries
  | none => r.entries

def openSection (name : String) (r : Reading) : Reading := ⟨r.close, some (name, [])⟩

def write (key value : String) (r : Reading) : Reading :=
  match r.current with
  | some (name, es) => { r with current := some (name, Setting.put key (.text value) es) }
  | none => { r with entries := Setting.put key (.text value) r.entries }

end Reading

/-- Skips blanks; `lineStart` tells whether the place is at the start of a line. -/
def skipBlanks (lineStart : Bool) : List Char → Bool × List Char
  | c :: rest => if Text.isBlank c then skipBlanks (c == '\n') rest else (lineStart, c :: rest)
  | [] => (lineStart, [])

/-- Reads a file from some place on; `key` waits for its value. -/
def readFrom (r : Reading) (key : String) (lineStart : Bool) : Nat → List Char → Option Entries
  | 0, _ => none
  | fuel + 1, cs =>
    match skipBlanks lineStart cs with
    | (_, []) => some r.close
    | (lineStart, c :: rest) =>
      if c == ';' || c == '#' then
        if lineStart then
          readFrom r key true fuel ((rest.dropWhile (· ≠ '\n')).drop 1)
        else none
      else if c == '[' then do
        let (name, rest) ← textUntil (· == ']') false [] rest
        readFrom (r.openSection (String.ofList (trim name))) key false fuel (rest.drop 1)
      else if c == '=' || c == ':' then
        if key.isEmpty then none
        else do
          let start := rest.dropWhile fun c => Text.isBlank c && !isLineEnd c
          let (value, rest) ← valueFrom true [] (start.length + 1) start
          readFrom (r.write key (String.ofList value)) "" false fuel rest
      else do
        let (name, rest) ← textUntil (fun c => c == '=' || c == ':') false [] (c :: rest)
        readFrom r (String.ofList (trim name)) false fuel rest

end Screening.Ini

namespace Screening

def Setting.ofIni? (text : String) : Option Entries :=
  Ini.readFrom {} "" true (text.length + 1) text.toList

end Screening
