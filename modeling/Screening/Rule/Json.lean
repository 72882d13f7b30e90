import Screening.Json.Value
import Screening.Rule.Basic

/-!
# Rules as JSON

A condition is written `type`, `field`, `operator`, `value` and a connective `type`, `operator`,
`left`, `right`, where a missing right side is null.  Reading is wider than writing:

* a node may be an object, its keys in any order and among others, or an array of the tag and then
  every field in order;
* an object may leave out `right` when there is none;
* an operator may be an object with the symbol as its only key and nothing as the value;
* below the root the tag may be the number of the kind of node.

An integer literal is a number in signed 64-bit range written as an integer; nothing else that is
no string is a literal.
-/

set_option autoImplicit false

namespace Screening

open Json (Value Number)

/-! ## Writing -/

def Literal.toJson : Literal → Value
  | integer n => .ofInt64 n
  | text s => .string s

namespace Rule

def toJson : Rule → Value
  | condition c => .object
      [("type", .string "operand"), ("field", .string c.field),
       ("operator", .string c.comparison.symbol), ("value", c.value.toJson)]
  | joined op left right => .object
      [("type", .string "operator"), ("operator", .string op.keyword),
       ("left", left.toJson), ("right", right.toJson)]
  | pending op left => .object
      [("type", .string "operator"), ("operator", .string op.keyword),
       ("left", left.toJson), ("right", .null)]

end Rule

/-! ## Reading -/

def Literal.ofJson? : Value → Option Literal
  | .number n => n.toInt64?.map .integer
  | .string s => some (.text s)
  | _ => none

/-- Where a value stands: a document of its own, or a part of a tree, which is read more widely. -/
inductive Place where
  | root
  | inside

/-- The name that a value gives: a string, or an object with the name as its only key. -/
def nameOf? (place : Place) : Value → Option String
  | .string s => some s
  | .object [(s, .null)] => some s
  | .object [(s, .object [])] =>
    match place with
    | .inside => some s
    | .root => none
  | _ => none

/-- A comparison and its two sides, given as the values of the three fields. -/
def Condition.ofParts? (place : Place) (field operator value : Value) : Option Condition :=
  match field with
  | .string field => do
    let comparison ← Comparison.ofSymbol? (← nameOf? place operator)
    let value ← Literal.ofJson? value
    return ⟨field, comparison, value⟩
  | _ => none

/-- A condition by itself: an object of its fields, or an array of them in order. -/
def Condition.ofJson? : Value → Option Condition
  | .object ms => do
    ofParts? .root (← ms.lookup "field") (← ms.lookup "operator") (← ms.lookup "value")
  | .array [field, operator, value] => ofParts? .root field operator value
  | _ => none

namespace Rule

inductive Kind where
  | condition
  | connective

/-- The kind of node that a tag names. -/
def Kind.ofTag? (place : Place) : Value → Option Kind
  | .string "operand" => some condition
  | .string "operator" => some connective
  | .number (.integer n _) =>
    match place with
    | .root => none
    | .inside => if n = 0 then some condition else if n = 1 then some connective else none
  | _ => none

def connectiveOf? (v : Value) : Option Connective := do Connective.ofKeyword? (← nameOf? .inside v)

mutual

/-- The tree that a value stands for. -/
def ofJson? (place : Place) : Value → Option Rule
  | .object ms => do
    match ← Kind.ofTag? place (← ms.lookup "type") with
    | .condition =>
      return .condition (← Condition.ofParts? .inside
        (← ms.lookup "field") (← ms.lookup "operator") (← ms.lookup "value"))
    | .connective =>
      let op ← connectiveOf? (← ms.lookup "operator")
      let left ← childOf? "left" ms
      match ms.lookup "right" with
      | none => return .pending op left
      | some .null => return .pending op left
      | some _ => return .joined op left (← childOf? "right" ms)
  | .array [tag, first, second, third] => do
    match ← Kind.ofTag? place tag with
    | .condition => return .condition (← Condition.ofParts? .inside first second third)
    | .connective =>
      let op ← connectiveOf? first
      let left ← ofJson? .inside second
      let right := ofJson? .inside third
      match third with
      | .null => return .pending op left
      | _ => return .joined op left (← right)
  | _ => none

/-- The tree under the first member with a given key. -/
def childOf? (key : String) : List (String × Value) → Option Rule
  | [] => none
  | (k, v) :: rest => if key = k then ofJson? .inside v else childOf? key rest

end

end Rule

end Screening
