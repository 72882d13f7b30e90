import Screening.Numeral
import Screening.Settings.Setting

/-!
# Paths to settings

A setting is named by a path: a word, then more words with a dot in front and places in brackets, as
in `routes[0].host`.  A word leads into a table and a place into a list; a place below zero counts
from the end.  A name that is no path stands for itself, as a single word.

Writing at a path makes room for it.  What is no table where a word leads, or no list where a place
does, gives way to an empty one, and a list is filled up with `Setting.nothing` as far as the place:
behind its last item or, for a place counted from the end, in front of its first.
-/

set_option autoImplicit false

namespace Screening

inductive Step where
  | word (w : String)
  | place (i : Int)
  deriving DecidableEq

namespace Setting

/-! ## Reading a path -/

def isWordChar (c : Char) : Bool := c.isAlphanum || c == '_' || c == '-'

def isBlank (c : Char) : Bool := c == ' ' || c == '\t'

/-- The number of a place; blanks may stand round it. -/
def place? (cs : List Char) : Option Int := do
  let number := ((cs.dropWhile isBlank).reverse.dropWhile isBlank).reverse
  if number.head? = some '+' then none
  else return (← Numeral.int64? number).toInt

/-- The step at the head of the characters, and what is behind it. -/
def step? : List Char → Option (Step × List Char)
  | '.' :: rest =>
    let w := rest.takeWhile isWordChar
    if w.isEmpty then none else some (.word (String.ofList w), rest.dropWhile isWordChar)
  | '[' :: rest =>
    match rest.dropWhile (· ≠ ']') with
    | _ :: more => (place? (rest.takeWhile (· ≠ ']'))).map fun i => (.place i, more)
    | [] => none
  | _ => none

def steps? (cs : List Char) : Option (List Step) :=
  if cs.isEmpty then some []
  else match step? cs with
    | some (s, rest) =>
      if rest.length < cs.length then (steps? rest).map (s :: ·) else none
    | none => none
  termination_by cs.length

/-- The path that a name stands for. -/
def path (name : String) : List Step :=
  (steps? ('.' :: name.toList)).getD [.word name]

/-! ## Writing at a path -/

/-- Changes the item at a place. -/
def alterAt (i : Int) (f : Setting → Setting) (ts : List Setting) : List Setting :=
  let back := (-i).toNat
  let ts := List.replicate (back - ts.length) nothing ++ ts
  let n := if i < 0 then ts.length - back else i.toNat
  let ts := ts ++ List.replicate (n + 1 - ts.length) nothing
  ts.modify n f

/-- Lays a setting over what there is at the end of a path. -/
def layAt (t : Setting) : List Step → Option Setting → Setting
  | [], below => t.layOver below
  | .word w :: path, below =>
    let es := (below.map entries).getD []
    table (put w (t.layAt path (find? w es)) es)
  | .place i :: path, below =>
    list (alterAt i (fun u => t.layAt path (some u)) ((below.map items).getD []))

end Setting

end Screening
