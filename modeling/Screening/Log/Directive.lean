import Screening.Log.Activity
import Screening.Number.Scientific
import Screening.Number.Shortest
import Screening.Pattern.Reading
import Screening.Text.Alphanumeric

/-!
# Directives on what is written

A directive sets how chatty something may be: the targets that begin with a given text, and of these
only what lies in spans of a given name, or with a given field, or with a given value in the field.
What it does not name it leaves open.

A directive is written `target[span{field=value}]=level`.  Brackets, braces and the equals sign
before a value are left out with what they go with, and without a level everything is written.  A
level by itself is a directive on everything.
-/

set_option autoImplicit false

namespace Screening.Log

/-- The least urgent level that is let through; nothing is let through if there is none. -/
abbrev Threshold := Option Level

namespace Threshold

def all : List Threshold :=
  [none, some .error, some .warn, some .info, some .debug, some .trace]

def name : Threshold → String
  | none => "off"
  | some l => l.name.toLower

def rank : Threshold → Nat
  | none => 0
  | some l => l.rank

/-- Whether a level is let through. -/
def admits (t : Threshold) (l : Level) : Bool := l.rank ≤ rank t

/-- The most chatty of some thresholds. -/
def highest (ts : List Threshold) : Threshold :=
  ts.foldl (fun s t => if rank s < rank t then t else s) none

/-- The threshold of a word in any case, or of its number from 0 to 5. -/
def ofWord? (word : String) : Option Threshold :=
  match Numeral.naturalUpTo? 5 word.toList with
  | some n => all.find? (rank · = n)
  | none => all.find? (name · = word.toLower)

end Threshold

def optionOrder {α : Type} (order : α → α → Ordering) : Option α → Option α → Ordering
  | none, none => .eq
  | none, some _ => .lt
  | some _, none => .gt
  | some a, some b => order a b

/-! ## Values of fields -/

/-- What the value of a field is to be: a truth value, a number, or a text that fits a pattern. -/
inductive Sought where
  | flag (b : Bool)
  | real (x : Real64)
  | signed (n : Int)
  | unsigned (n : Nat)
  | pattern (text : String) (p : Pattern)
  deriving DecidableEq

namespace Sought

/-- The first kind that the text can be read as; nothing if it is not even a pattern. -/
def ofText? (text : String) : Option Sought :=
  if text = "true" then some (flag true)
  else if text = "false" then some (flag false)
  else match Numeral.naturalUpTo? 0xFFFF_FFFF_FFFF_FFFF text.toList with
    | some n => some (unsigned n)
    | none =>
      match Numeral.int64? text.toList with
      | some n => some (signed n.toInt)
      | none =>
        match Real64.ofText? text with
        | some x => some (real x)
        | none => (Pattern.ofText? text).map (pattern text)

def toText : Sought → String
  | flag b => if b then "true" else "false"
  | real x => x.toText
  | signed n => Numeral.ofInt n
  | unsigned n => Numeral.ofInt n
  | pattern text _ => text

/-- The place of a kind in the order of values. -/
def kind : Sought → Nat
  | flag _ => 0
  | real _ => 1
  | signed _ => 2
  | unsigned _ => 3
  | pattern _ _ => 4

def order : Sought → Sought → Ordering
  | flag a, flag b => compare a.toNat b.toNat
  | real x, real y => x.order y
  | signed m, signed n => compare m n
  | unsigned m, unsigned n => compare m n
  | pattern s _, pattern t _ => compare s t
  | v, w => compare v.kind w.kind

/-- Whether a field has the value that is sought. -/
def fits : Sought → FieldValue → Bool
  | flag b, .flag c => b = c
  | unsigned n, .count m => n = m
  | pattern _ p, .quoted s => p.fits s
  | pattern _ p, .bare s => p.fits s
  | _, _ => false

end Sought

structure FieldTest where
  name : String
  value : Option Sought
  deriving DecidableEq

namespace FieldTest

/-- Reads a field and its value; what follows a second equals sign is passed over. -/
def ofText? (cs : List Char) : Option FieldTest :=
  match cs.splitOn '=' with
  | name :: value :: _ => do return ⟨String.ofList name, ← Sought.ofText? (String.ofList value)⟩
  | _ => some ⟨String.ofList cs, none⟩

def toText (f : FieldTest) : String :=
  match f.value with
  | some v => f.name ++ "=" ++ v.toText
  | none => f.name

/-- A test for a value is greater than one for the field alone. -/
def order (f g : FieldTest) : Ordering :=
  (compare f.value.isSome.toNat g.value.isSome.toNat).then <|
    (compare f.name g.name).then (optionOrder Sought.order f.value g.value)

end FieldTest

/-! ## Directives -/

structure Directive where
  target : Option String := none
  span : Option String := none
  field : Option FieldTest := none
  threshold : Threshold
  deriving DecidableEq

namespace Directive

/-- Whether a directive names more than a target. -/
def isNarrow (d : Directive) : Bool := d.span.isSome || d.field.isSome

/-- Whether a directive can be judged by target and names of fields alone. -/
def isGeneral (d : Directive) : Bool := d.span.isNone && d.field.all (·.value.isNone)

/-- How specific a directive is: by the length of its target in bytes, then by whether it names a
span and a field, and between equals by what it names. -/
def order (d e : Directive) : Ordering :=
  let size (d : Directive) : Nat := match d.target with
    | some t => t.utf8ByteSize + 1
    | none => 0
  (compare (size d) (size e)).then <|
    (compare d.span.isSome.toNat e.span.isSome.toNat).then <|
    (compare d.field.isSome.toNat e.field.isSome.toNat).then <|
    (optionOrder compare d.target e.target).then <|
    (optionOrder compare d.span e.span).then (optionOrder FieldTest.order d.field e.field)

def fitsTarget (d : Directive) (target : String) : Bool :=
  d.target.all fun t => t.toList.isPrefixOf target.toList

def fitsField (d : Directive) (names : List String) : Bool := d.field.all (names.contains ·.name)

/-! ## As text -/

def isTargetStart (c : Char) : Bool := c == '-' || c == ':' || c == '_' || Text.isAlphanumeric c

/-- What is behind so many bytes; nothing if they end inside of a character. -/
def dropBytes : Nat → List Char → Option (List Char)
  | 0, cs => some cs
  | n, c :: cs => if c.utf8Size ≤ n then dropBytes (n - c.utf8Size) cs else none
  | _, [] => none

def byteCount (cs : List Char) : Nat := cs.foldl (fun n c => n + c.utf8Size) 0

/-- What is between two places given in bytes. -/
def slice (cs : List Char) (first last : Nat) : Option (List Char) := do
  let rest ← dropBytes first cs
  let after ← dropBytes (last - first) rest
  return rest.take (rest.length - after.length)

/-- Where the parts of a directive lie in its text, in bytes: a first and a last place for each, and
for the level only the first, since it is last. -/
structure Layout where
  target : Option (Nat × Nat) := none
  span : Option (Nat × Nat) := none
  field : Option (Nat × Nat) := none
  level : Option Nat := none

/-- What may follow a closing bracket: nothing or a level. -/
def levelFrom? (l : Layout) (start : Nat) : List Char → Option Layout
  | [] => some l
  | '=' :: _ => some { l with level := some (start + 1) }
  | _ => none

/-- Finds the parts in brackets; `start` is the place behind the opening one. -/
def bracketsFrom? (l : Layout) (start : Nat) (cs : List Char) : Option Layout :=
  let span := cs.takeWhile fun c => c ≠ ']' && c ≠ '\x7b'
  let stop := start + byteCount span
  match cs.drop span.length with
  | ']' :: rest => levelFrom? { l with span := some (start, stop) } (stop + 1) rest
  | '\x7b' :: rest =>
    let l := if span.isEmpty then l else { l with span := some (start, stop) }
    let field := rest.takeWhile (· ≠ '\x7d')
    let last := stop + 1 + byteCount field
    match rest.drop field.length with
    | '\x7d' :: ']' :: rest =>
      if field.isEmpty then none
      else levelFrom? { l with field := some (stop + 1, last) } (last + 2) rest
    | _ => none
  | _ => none

/-- Finds the parts of a directive, if it has its form; there are none to be found in one that is a
single name or level. -/
def Layout.of? : List Char → Option (Option Layout)
  | '[' :: rest => (bracketsFrom? {} 1 rest).map some
  | c :: rest =>
    let name := (c :: rest).takeWhile fun c => c ≠ '=' && c ≠ '['
    let last := byteCount name
    if !isTargetStart c then none
    else match (c :: rest).drop name.length with
      | '=' :: _ => some (some { target := some (0, last), level := some (last + 1) })
      | '[' :: rest => (bracketsFrom? { target := some (0, last) } (last + 1) rest).map some
      | _ => some none
  | [] => none

/-- Reads a directive.  Its form is looked for in the text without the blanks round it, but its
parts are cut out of the whole text at the places found; so blanks in front shift them. -/
def ofText? (text : String) : Option Directive := do
  let cs := text.toList
  let inner := ((cs.dropWhile Text.isBlank).reverse.dropWhile Text.isBlank).reverse
  match ← Layout.of? inner with
  | none =>
    return match Threshold.ofWord? text with
      | some t => { threshold := t }
      | none => { target := text, threshold := some .trace }
  | some l =>
    let target ← l.target.mapM fun (first, last) => slice cs first last
    let span ← l.span.mapM fun (first, last) => slice cs first last
    let field ← l.field.mapM fun (first, last) => do
      FieldTest.ofText? (← slice cs first last)
    let word := String.ofList (← dropBytes (l.level.getD (byteCount cs)) cs)
    let threshold ← if word.isEmpty then some (some .trace) else Threshold.ofWord? word
    return { target := target.map String.ofList, span := span.map String.ofList, field, threshold }

/-- The part in brackets, if there is something to put there. -/
def brackets (d : Directive) : String :=
  if d.isNarrow then
    let field := match d.field with
      | some f => "\x7b" ++ f.toText ++ "\x7d"
      | none => ""
    "[" ++ d.span.getD "" ++ field ++ "]"
  else ""

def toText (d : Directive) : String :=
  let level := Threshold.name d.threshold
  if d.target.isNone && !d.isNarrow then level
  else d.target.getD "" ++ d.brackets ++ "=" ++ level

end Directive

end Screening.Log
