import Screening.Numeral

/-!
# Blanks, keys and strings of TOML

Each reader takes the characters from some place on and hands back what it has read with the
characters behind it.  Control characters other than the tab are nowhere allowed, and a line ends in
a line feed that may have a carriage return in front.  A string over several lines keeps its line
breaks as they are.
-/

set_option autoImplicit false

namespace Screening.Toml

/-- Reads something from the head of the characters and hands back those behind it. -/
abbrev Reader (α : Type) := List Char → Option (α × List Char)

def isBlank (c : Char) : Bool := c == ' ' || c == '\t'

def isControl (c : Char) : Bool := (c.toNat < 0x20 && c != '\t') || c.toNat == 0x7F

def skipBlanks (cs : List Char) : List Char := cs.dropWhile isBlank

/-- What follows blanks and a comment and the end of the line; nothing if something else comes
first. -/
def lineEnd (inComment : Bool) : List Char → Option (List Char)
  | [] => some []
  | '\n' :: rest => some rest
  | '\r' :: '\n' :: rest => some rest
  | c :: rest =>
    if inComment then (if isControl c then none else lineEnd true rest)
    else if c = '#' then lineEnd true rest
    else if isBlank c then lineEnd false rest
    else none

/-- What follows blanks, comments and line breaks. -/
def skipBreaks (inComment : Bool) : List Char → Option (List Char)
  | [] => some []
  | '\n' :: rest => skipBreaks false rest
  | '\r' :: '\n' :: rest => skipBreaks false rest
  | c :: rest =>
    if inComment then (if isControl c then none else skipBreaks true rest)
    else if c = '#' then skipBreaks true rest
    else if isBlank c then skipBreaks false rest
    else some (c :: rest)

/-! ## Strings -/

/-- The character that a one-letter escape stands for. -/
def escaped? (c : Char) : Option Char :=
  match c with
  | 'b' => some '\x08'
  | 't' => some '\t'
  | 'n' => some '\n'
  | 'f' => some '\x0c'
  | 'r' => some '\r'
  | 'e' => some '\x1b'
  | '"' => some '"'
  | '\\' => some '\\'
  | _ => none

/-- The character with the given hexadecimal digits, if they name one. -/
def numbered? (digits : List Char) : Option Char := do
  let n := (← digits.mapM Numeral.hexDigit?).foldl (fun n d => 16 * n + d) 0
  if n < 0xD800 ∨ (0xDFFF < n ∧ n < 0x110000) then some (Char.ofNat n) else none

/-- A string up to its closing quote; `acc` has the characters so far, newest first. -/
def basic (acc : List Char) : Reader String
  | [] => none
  | '"' :: rest => some (String.ofList acc.reverse, rest)
  | '\\' :: 'x' :: a :: b :: rest =>
    match numbered? [a, b] with
    | some x => basic (x :: acc) rest
    | none => none
  | '\\' :: 'u' :: a :: b :: c :: d :: rest =>
    match numbered? [a, b, c, d] with
    | some x => basic (x :: acc) rest
    | none => none
  | '\\' :: 'U' :: a :: b :: c :: d :: e :: f :: g :: h :: rest =>
    match numbered? [a, b, c, d, e, f, g, h] with
    | some x => basic (x :: acc) rest
    | none => none
  | '\\' :: e :: rest =>
    match escaped? e with
    | some x => basic (x :: acc) rest
    | none => none
  | c :: rest => if isControl c then none else basic (c :: acc) rest

def literal (acc : List Char) : Reader String
  | [] => none
  | '\'' :: rest => some (String.ofList acc.reverse, rest)
  | c :: rest => if isControl c then none else literal (c :: acc) rest

/-! ## Strings over several lines -/

/-- A string over several lines up to its closing quotes, in front of which two more may stand.  A
backslash at the end of a line takes away everything up to the next character that is neither blank
nor break: `folding` tells that such a stretch is being left out, and whether a break was in it. -/
def longBasic (acc : List Char) (folding : Option Bool) : Reader String
  | [] => none
  | '\r' :: '\n' :: rest =>
    match folding with
    | some _ => longBasic acc (some true) rest
    | none => longBasic ('\n' :: '\r' :: acc) none rest
  | '\n' :: rest =>
    match folding with
    | some _ => longBasic acc (some true) rest
    | none => longBasic ('\n' :: acc) none rest
  | c :: rest =>
    if folding.isSome && isBlank c then longBasic acc folding rest
    else if folding = some false then none
    else match c, rest with
      | '"', '"' :: '"' :: '"' :: '"' :: rest =>
        some (String.ofList ('"' :: '"' :: acc).reverse, rest)
      | '"', '"' :: '"' :: '"' :: rest => some (String.ofList ('"' :: acc).reverse, rest)
      | '"', '"' :: '"' :: rest => some (String.ofList acc.reverse, rest)
      | '\\', 'x' :: a :: b :: rest =>
        match numbered? [a, b] with
        | some x => longBasic (x :: acc) none rest
        | none => none
      | '\\', 'u' :: a :: b :: c :: d :: rest =>
        match numbered? [a, b, c, d] with
        | some x => longBasic (x :: acc) none rest
        | none => none
      | '\\', 'U' :: a :: b :: c :: d :: e :: f :: g :: h :: rest =>
        match numbered? [a, b, c, d, e, f, g, h] with
        | some x => longBasic (x :: acc) none rest
        | none => none
      | '\\', e :: rest =>
        if isBlank e then longBasic acc (some false) rest
        else if e = '\n' || e = '\r' then longBasic acc (some false) (e :: rest)
        else match escaped? e with
          | some x => longBasic (x :: acc) none rest
          | none => none
      | c, rest => if isControl c then none else longBasic (c :: acc) none rest
  termination_by cs => cs.length

def longLiteral (acc : List Char) : Reader String
  | [] => none
  | '\'' :: '\'' :: '\'' :: '\'' :: '\'' :: rest =>
    some (String.ofList ('\'' :: '\'' :: acc).reverse, rest)
  | '\'' :: '\'' :: '\'' :: '\'' :: rest => some (String.ofList ('\'' :: acc).reverse, rest)
  | '\'' :: '\'' :: '\'' :: rest => some (String.ofList acc.reverse, rest)
  | '\r' :: '\n' :: rest => longLiteral ('\n' :: '\r' :: acc) rest
  | c :: rest =>
    if isControl c && c != '\n' then none else longLiteral (c :: acc) rest

/-- A line break right behind the opening quotes is not part of the string. -/
def dropBreak : List Char → List Char
  | '\n' :: rest => rest
  | '\r' :: '\n' :: rest => rest
  | cs => cs

/-- A string of any of the four kinds; nothing if none starts here. -/
def string? : Reader String
  | '"' :: '"' :: '"' :: rest => longBasic [] none (dropBreak rest)
  | '\'' :: '\'' :: '\'' :: rest => longLiteral [] (dropBreak rest)
  | '"' :: rest => basic [] rest
  | '\'' :: rest => literal [] rest
  | _ => none

/-! ## Keys -/

def isKeyChar (c : Char) : Bool := c.isAlphanum || c == '_' || c == '-'

def simpleKey : Reader String
  | '"' :: rest => basic [] rest
  | '\'' :: rest => literal [] rest
  | cs =>
    let name := cs.takeWhile isKeyChar
    if name.isEmpty then none else some (String.ofList name, cs.dropWhile isKeyChar)

/-- Keys with dots between them, blanks round each; the last one is kept apart. -/
def dottedKeys (cs : List Char) : Option ((List String × String) × List Char) :=
  match simpleKey (skipBlanks cs) with
  | none => none
  | some (k, rest) =>
    match skipBlanks rest with
    | '.' :: more =>
      if more.length < cs.length then do
        let ((path, last), rest) ← dottedKeys more
        return ((k :: path, last), rest)
      else none
    | rest => some (([], k), rest)
  termination_by cs.length

/-- How many keys a dotted key may be made of. -/
def keyLimit : Nat := 80

def dottedKey (cs : List Char) : Option ((List String × String) × List Char) :=
  (dottedKeys cs).filter fun ((path, _), _) => path.length < keyLimit

end Screening.Toml
