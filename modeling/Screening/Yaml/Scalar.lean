import Screening.Number.Scientific
import Screening.Settings.Setting

/-!
# Scalars of YAML

A scalar is written plainly, between quotes of either kind, or as a block of lines.  Only what is
written plainly can be anything but a text.  Where a scalar goes on over several lines, a single
break is read as a blank, and of several breaks one is left out.

Readers take a `Place`, which knows its column, and hand back the place behind what they have read.
-/

set_option autoImplicit false

namespace Screening.Yaml

/-- A place in a text: its column and the characters from there on. -/
structure Place where
  col : Nat
  cs : List Char

def isBlank (c : Char) : Bool := c == ' ' || c == '\t'

/-- Whether the characters begin with a blank or a break, or there are none. -/
def endsWord (cs : List Char) : Bool := cs.head?.all fun c => isBlank c || c == '\n'

/-- Skips blanks, breaks and comments; `broke` tells of a break on the way, and a comment begins
only at the start of a line or behind a blank. -/
def skipFrom (inComment fresh broke : Bool) (col : Nat) : List Char → Bool × Place
  | [] => (broke, ⟨col, []⟩)
  | c :: rest =>
    if c == '\n' then skipFrom false true true 0 rest
    else if inComment then skipFrom true fresh broke (col + 1) rest
    else if isBlank c then skipFrom false true broke (col + 1) rest
    else if c == '#' && fresh then skipFrom true fresh broke (col + 1) rest
    else (broke, ⟨col, c :: rest⟩)

def skip (p : Place) : Bool × Place := skipFrom false (p.col == 0) false p.col p.cs

/-! ## Plain scalars -/

def isFlowMark (c : Char) : Bool := ",[]\x7b\x7d".toList.contains c

/-- Whether a colon in front of these characters parts a key from its value. -/
def partsKey (flow : Bool) (cs : List Char) : Bool :=
  endsWord cs || (flow && cs.head?.any isFlowMark)

/-- What a plain scalar may reach to on one line; `fresh` tells of a blank just before. -/
def plainReach (flow fresh : Bool) : List Char → List Char
  | [] => []
  | c :: rest =>
    if c == '\n' || (c == '#' && fresh) || (c == ':' && partsKey flow rest) ||
        (flow && isFlowMark c) then []
    else c :: plainReach flow (isBlank c) rest

def trimEnd (cs : List Char) : List Char := (cs.reverse.dropWhile isBlank).reverse

/-- The part of a plain scalar that is on one line, and the place behind it. -/
def plainLine (flow : Bool) (p : Place) : List Char × Place :=
  let part := trimEnd (plainReach flow false p.cs)
  (part, ⟨p.col + part.length, p.cs.drop part.length⟩)

def startsPlain (flow : Bool) : List Char → Bool
  | c :: rest =>
    if c == '-' || c == '?' || c == ':' then
      !(endsWord rest || (flow && rest.head?.any isFlowMark))
    else !",[]\x7b\x7d#&*!|>'\"%@\x60".toList.contains c
  | [] => false

/-- Counts breaks up to the next line that holds something, and has the place where that begins. -/
def breaks (count col : Nat) : List Char → Nat × Place
  | c :: rest =>
    if c == '\n' then breaks (count + 1) 0 rest
    else if isBlank c then breaks count (col + 1) rest
    else (count, ⟨col, c :: rest⟩)
  | [] => (count, ⟨col, []⟩)

/-- What so many breaks inside of a scalar stand for. -/
def folded (count : Nat) : List Char :=
  if count = 1 then [' '] else List.replicate (count - 1) '\n'

/-- A plain scalar, whose further lines begin at column `least` or behind it. -/
def plain (flow : Bool) (least : Nat) (acc : List Char) : Nat → Place → List Char × Place
  | 0, p => (acc, p)
  | fuel + 1, p =>
    let (part, q) := plainLine flow p
    let acc := acc ++ part
    match breaks 0 q.col q.cs with
    | (0, _) => (acc, q)
    | (n, r) =>
      if r.col < least || r.cs.isEmpty || r.cs.head? == some '#' ||
          (flow && r.cs.head?.any isFlowMark) then (acc, q)
      else plain flow least (acc ++ folded n) fuel r

/-! ## Quoted scalars -/

def hex? (digits : List Char) : Option Char := do
  let n := (← digits.mapM Numeral.hexDigit?).foldl (fun n d => 16 * n + d) 0
  if n < 0xD800 ∨ (0xDFFF < n ∧ n < 0x110000) then some (Char.ofNat n) else none

def escape? : List Char → Option (Char × List Char)
  | '0' :: rest => some ('\x00', rest)
  | 'a' :: rest => some ('\x07', rest)
  | 'b' :: rest => some ('\x08', rest)
  | 't' :: rest => some ('\t', rest)
  | '\t' :: rest => some ('\t', rest)
  | 'n' :: rest => some ('\n', rest)
  | 'v' :: rest => some ('\x0b', rest)
  | 'f' :: rest => some ('\x0c', rest)
  | 'r' :: rest => some ('\r', rest)
  | 'e' :: rest => some ('\x1b', rest)
  | ' ' :: rest => some (' ', rest)
  | '"' :: rest => some ('"', rest)
  | '/' :: rest => some ('/', rest)
  | '\\' :: rest => some ('\\', rest)
  | 'N' :: rest => some ('\u0085', rest)
  | '_' :: rest => some ('\u00a0', rest)
  | 'L' :: rest => some ('\u2028', rest)
  | 'P' :: rest => some ('\u2029', rest)
  | 'x' :: a :: b :: rest => do return (← hex? [a, b], rest)
  | 'u' :: a :: b :: c :: d :: rest => do return (← hex? [a, b, c, d], rest)
  | 'U' :: a :: b :: c :: d :: e :: f :: g :: h :: rest => do
    return (← hex? [a, b, c, d, e, f, g, h], rest)
  | _ => none

/-- A scalar up to its closing quote. -/
def quoted (mark : Char) (acc : List Char) : Nat → Place → Option (List Char × Place)
  | 0, _ => none
  | fuel + 1, ⟨col, cs⟩ =>
    match cs with
    | [] => none
    | c :: rest =>
      if c = mark then
        match mark, rest with
        | '\'', '\'' :: rest => quoted mark (acc ++ ['\'']) fuel ⟨col + 2, rest⟩
        | _, _ => some (acc, ⟨col + 1, rest⟩)
      else if c = '\\' && mark = '"' then
        match rest with
        | '\n' :: rest =>
          let (n, p) := breaks 1 0 rest
          quoted mark (acc ++ List.replicate (n - 1) '\n') fuel p
        | _ => do
          let (x, more) ← escape? rest
          quoted mark (acc ++ [x]) fuel ⟨col + 1 + rest.length - more.length, more⟩
      else if isBlank c || c == '\n' then
        let (n, p) := breaks 0 col cs
        if n = 0 then quoted mark (acc ++ [c]) fuel ⟨col + 1, rest⟩
        else quoted mark (acc ++ folded n) fuel p
      else quoted mark (acc ++ [c]) fuel ⟨col + 1, rest⟩

/-! ## Blocks of lines -/

/-- The lines of a block: those that begin at column `indent` or behind it, and empty ones. -/
def blockLines (indent : Nat) (acc : List (List Char)) :
    Nat → List Char → List (List Char) × Place
  | 0, cs => (acc.reverse, ⟨0, cs⟩)
  | fuel + 1, cs =>
    let margin := (cs.takeWhile (· == ' ')).length
    let line := cs.takeWhile (· ≠ '\n')
    if cs.isEmpty || (margin < indent && margin < line.length) then (acc.reverse, ⟨0, cs⟩)
    else blockLines indent (line.drop indent :: acc) fuel (cs.drop (line.length + 1))

/-- Joins lines with the breaks between them folded; lines that begin with a blank keep theirs. -/
def foldLines : List (List Char) → List Char
  | [] => []
  | [l] => l
  | l :: m :: rest =>
    let kept := l.head?.any isBlank || m.head?.any isBlank
    if l.isEmpty || kept then l ++ '\n' :: foldLines (m :: rest)
    else if m.isEmpty then l ++ foldLines (m :: rest)
    else l ++ ' ' :: foldLines (m :: rest)

/-- A block of lines behind the mark that opens it.  It ends in a single break; with `-` in none,
and with `+` in all that it has. -/
def block? (literal : Bool) (least : Nat) (p : Place) : Option (List Char × Place) :=
  let signs := p.cs.takeWhile fun c => c == '+' || c == '-' || c.isDigit
  let after := (p.cs.drop signs.length).dropWhile isBlank
  let body? : Option (List Char) := match after with
    | [] => some []
    | '\n' :: rest => some rest
    | '#' :: rest => some ((rest.dropWhile (· ≠ '\n')).drop 1)
    | _ => none
  body?.map fun body =>
    let (_, content) := breaks 0 0 body
    let indent := match signs.find? Char.isDigit with
      | some d => least - 1 + (d.toNat - '0'.toNat)
      | none => max least content.col
    let (ls, q) := blockLines indent [] (body.length + 1) body
    let lines := (ls.reverse.dropWhile List.isEmpty).reverse
    let text := if literal then (lines.intersperse ['\n']).flatten else foldLines lines
    let ending := List.replicate (ls.length - lines.length) '\n'
    let last := if lines.isEmpty then [] else ['\n']
    let text :=
      if signs.contains '-' then text
      else if signs.contains '+' then text ++ last ++ ending
      else text ++ last
    (text, q)

/-! ## Values -/

def radix? (base : Nat) (digits : List Char) : Option Int := do
  if digits.isEmpty then none
  else
    let ds ← digits.mapM fun c => (Numeral.hexDigit? c).filter (· < base)
    let n : Nat := ds.foldl (fun n d => base * n + d) 0
    return (← Numeral.toInt64? n).toInt

def whole? : List Char → Option Int
  | '0' :: 'x' :: rest => radix? 16 rest
  | '0' :: 'o' :: rest => radix? 8 rest
  | cs => (Numeral.int64? cs).map Int64.toInt

/-- Ways to write numbers that are known as such, but have no place among settings. -/
def unbounded : List String :=
  [".inf", ".Inf", ".INF", "+.inf", "+.Inf", "+.INF", "-.inf", "-.Inf", "-.INF",
   ".nan", ".NAN"]

/-- What a plain scalar stands for. -/
def ofPlain? (cs : List Char) : Option Setting :=
  let s := String.ofList cs
  if s = "" ∨ s = "~" ∨ s = "null" then some .nothing
  else if s = "true" then some (.flag true)
  else if s = "false" then some (.flag false)
  else if s ∈ unbounded then none
  else if s = "NaN" then some (.real .undefined)
  else match whole? cs with
    | some n => some (.integer n)
    | none =>
      match Real64.ofText? s with
      | some x => some (if cs.any Char.isDigit then .real x else .text s)
      | none => some (.text s)

end Screening.Yaml
