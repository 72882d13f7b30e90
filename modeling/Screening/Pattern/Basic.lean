import Screening.Pattern.CharSet

/-!
# Patterns and the texts they fit

A pattern is looked for from the start of a text on.  Where it has a choice it tries the
alternatives in order, the longer repetition before the shorter unless the pattern asks for the
opposite, and what it finds first counts: a text fits if that leaves nothing of the text over.  So
`a|ab` does not fit `ab`, while `ab|a` does.

`Pattern.ends` has the places where a pattern can come to its end, in the order in which they are
tried.  A place that has come up before need not be tried again.
-/

set_option autoImplicit false

namespace Screening

/-- A condition on a place in a text.  Lines end in a line feed, or for `returns` in a carriage
return, a line feed or both. -/
inductive Anchor where
  | textStart
  | textEnd
  | lineStart (returns : Bool)
  | lineEnd (returns : Bool)
  | wordEdge
  | noWordEdge
  deriving DecidableEq

inductive Pattern where
  | empty
  | one (s : CharSet)
  | place (a : Anchor)
  | seq (p q : Pattern)
  | alt (p q : Pattern)
  | optional (greedy : Bool) (p : Pattern)
  | many (greedy : Bool) (p : Pattern)
  deriving DecidableEq

/-- A place in a text: the character in front of it and those behind it. -/
structure Cursor where
  before : Option Char
  rest : List Char

namespace Anchor

/-- Whether a character is one of an ASCII word. -/
def inWord (c : Char) : Bool := c.isAlphanum || c == '_'

def atWordEdge (k : Cursor) : Bool := k.before.any inWord != k.rest.head?.any inWord

def holds (k : Cursor) : Anchor → Bool
  | textStart => k.before.isNone
  | textEnd => k.rest.isEmpty
  | lineStart false => k.before.isNone || k.before == some '\n'
  | lineEnd false => k.rest.isEmpty || k.rest.head? == some '\n'
  | lineStart true =>
    k.before.isNone || k.before == some '\n' ||
      (k.before == some '\r' && k.rest.head? != some '\n')
  | lineEnd true =>
    k.rest.isEmpty || k.rest.head? == some '\r' ||
      (k.rest.head? == some '\n' && k.before != some '\r')
  | wordEdge => atWordEdge k
  | noWordEdge => !atWordEdge k

end Anchor

namespace Pattern

/-- Drops the places that have come up before. -/
def distinct (ks : List Cursor) : List Cursor :=
  ks.eraseDupsBy fun k l => k.rest.length == l.rest.length

/-- In which order the ends with and without a repetition are tried. -/
def ordered (greedy : Bool) (further : List Cursor) (k : Cursor) : List Cursor :=
  distinct (if greedy then further ++ [k] else k :: further)

/-- The ends of a repetition, given those of a single round; a round over nothing is the last. -/
def manyEnds (round : Cursor → List Cursor) (greedy : Bool) : Nat → Cursor → List Cursor
  | 0, k => [k]
  | fuel + 1, k =>
    let further := (round k).flatMap fun e =>
      if e.rest.length < k.rest.length then manyEnds round greedy fuel e else [k]
    ordered greedy further k

def ends : Pattern → Cursor → List Cursor
  | empty, k => [k]
  | one s, k =>
    match k.rest with
    | c :: rest => if s.has c then [⟨some c, rest⟩] else []
    | [] => []
  | place a, k => if a.holds k then [k] else []
  | seq p q, k => distinct ((p.ends k).flatMap q.ends)
  | alt p q, k => distinct (p.ends k ++ q.ends k)
  | optional greedy p, k => ordered greedy (p.ends k) k
  | many greedy p, k => manyEnds p.ends greedy (k.rest.length + 1) k

def fits (p : Pattern) (text : String) : Bool :=
  match p.ends ⟨none, text.toList⟩ with
  | k :: _ => k.rest.isEmpty
  | [] => false

end Pattern

end Screening
