import Screening.Lexeme
import Screening.Rule.Basic
import Screening.Rule.Error

/-!
# Assembling a rule from its lexemes

Reading goes from left to right over two stacks.  `parts` holds lexemes that no condition has taken
up yet, opening brackets among them; `trees` holds the trees built so far, of which those ending in
a pending connective wait for a right side.  `depth` counts the brackets still open.

Three things are worth knowing before reading the steps.

* A condition is made from the three topmost parts, whatever they are: only the middle one is looked
  at, and an opening bracket can end up as a field.
* A connective takes the condition or tree finished last as its left side, so there is no precedence
  between AND and OR.  A closing bracket completes the newest pending connective, which need not
  stand inside the same brackets.
* A closing bracket that meets no tree at all makes a tree of the comparison before it and leaves
  its opening bracket lying among the parts.

Once a text has ended with a single complete tree, parts left over behind it are not looked at.
-/

set_option autoImplicit false

namespace Screening

/-- What a lexeme does to the reading of a rule. -/
inductive Token where
  | opening
  | closing
  | connective (op : Connective)
  | part (lexeme : String)
  deriving DecidableEq

def Token.ofLexeme (lexeme : String) : Token :=
  if lexeme = "(" then .opening
  else if lexeme = ")" then .closing
  else match Connective.ofKeyword? lexeme with
    | some op => .connective op
    | none => .part lexeme

/-- The state of a reading; both stacks have their newest entry first. -/
structure Assembly where
  parts : List String := []
  trees : List Rule := []
  depth : Nat := 0
  deriving DecidableEq

namespace Assembly

/-- Makes a condition of the three newest parts and hands back the parts below; nothing if there are
fewer. -/
def condense : List String → Except RuleError (Option (Rule × List String))
  | value :: symbol :: field :: below =>
    match Comparison.ofSymbol? symbol with
    | some c => .ok (some (.condition ⟨field, c, .coerce value⟩, below))
    | none => .error (.unsupportedComparison symbol)
  | _ => .ok none

/-- The tree finished last: a condition still among the parts, else the newest tree. -/
def take (missing : Malformation) (a : Assembly) : Except RuleError (Rule × Assembly) := do
  match ← condense a.parts with
  | some (t, below) => return (t, { a with parts := below })
  | none =>
    match a.trees with
    | t :: older => return (t, { a with trees := older })
    | [] => throw (.malformed missing)

/-- Gives the newest tree, a pending connective, its right side. -/
def attach (right : Rule) (a : Assembly) : Except RuleError Assembly :=
  match a.trees with
  | .pending op left :: older => .ok { a with trees := .joined op left right :: older }
  | _ => .error (.malformed .nothingPending)

/-- Takes the opening bracket off the parts. -/
def dropOpening (a : Assembly) : Except RuleError Assembly :=
  match a.parts with
  | part :: below =>
    if part = "(" then .ok { a with parts := below } else .error (.unbalanced .noOpeningBefore)
  | [] => .error (.unbalanced .noOpeningBefore)

/-- Closes a bracket of a reading whose depth has been lowered already. -/
def close (a : Assembly) : Except RuleError Assembly := do
  if a.trees.isEmpty then
    let (t, a) ← a.take .emptyGroup
    return { a with trees := t :: a.trees }
  else
    let (right, a) ← a.take .noRightSideBeforeClosing
    let a ← a.attach right
    a.dropOpening

def step (a : Assembly) : Token → Except RuleError Assembly
  | .opening => .ok { a with parts := "(" :: a.parts, depth := a.depth + 1 }
  | .closing =>
    match a.depth with
    | 0 => .error (.unbalanced .strayClosing)
    | depth + 1 => close { a with depth := depth }
  | .connective op => do
    let (left, a) ← a.take .noLeftSide
    return { a with trees := .pending op left :: a.trees }
  | .part lexeme => .ok { a with parts := lexeme :: a.parts }

/-- The one complete tree that a reading has come to, if it has. -/
def sole? (a : Assembly) : Option Rule :=
  match a.trees with
  | [t] => if t.complete then some t else none
  | _ => none

/-- Makes a condition of the last parts: the right side of the newest tree, or the only tree. -/
def settle (a : Assembly) : Except RuleError Assembly := do
  match ← condense a.parts with
  | none => return a
  | some (t, below) =>
    if a.trees.isEmpty then return { a with parts := below, trees := [t] }
    else attach t { a with parts := below }

/-- The end of a reading that is not yet down to one complete tree. -/
def conclude (a : Assembly) : Except RuleError Rule := do
  let a ← a.settle
  match a.parts.reverse.find? (· ≠ "(") with
  | some lexeme => throw (.malformed (.leftover lexeme))
  | none =>
    match a.trees with
    | [t] => if t.complete then return t else throw (.malformed .noRightSide)
    | ts => throw (.malformed (.rootCount ts.length))

def finish (a : Assembly) : Except RuleError Rule :=
  if a.depth ≠ 0 then .error (.malformed (.unclosed a.depth))
  else match a.sole? with
    | some t => .ok t
    | none => a.conclude

end Assembly

/-- Reads a rule from its lexemes; the first step that fails decides. -/
def Rule.ofLexemes (ls : List String) : Except RuleError Rule := do
  let a ← ls.foldlM (fun (a : Assembly) l => a.step (.ofLexeme l)) {}
  a.finish

/-- Reads a rule from its text. -/
def Rule.read (text : String) : Except RuleError Rule := ofLexemes (lexemes text)

/-- Reads every text and joins the rules by AND from the left; the first text that does not read
decides. -/
def Rule.readAll : List String → Except RuleError Rule
  | [] => .error .noRules
  | r :: rs => do
    let first ← read r
    rs.foldlM (fun t s => return combine t (← read s)) first

end Screening
