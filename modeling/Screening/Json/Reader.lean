import Screening.Json.Token

/-!
# Reading JSON values

A value is read from tokens by a machine that keeps the containers it is inside of, innermost first,
and what may come next.  It stops with the token that completes the value and hands back the tokens
behind it, so the same machine reads a whole text and a value in the middle of one.

A reading either keeps the value, and then refuses tokens that hold none and containers nested
deeper than it has room for, or skips it and minds neither.
-/

set_option autoImplicit false

namespace Screening.Json

namespace Reader

/-- A container being read, newest item first. -/
inductive Frame where
  | array (items : List Value)
  | object (members : List (String × Value))
  | member (members : List (String × Value)) (key : String)

/-- What may come next. -/
inductive Expect where
  | value
  | itemOrEnd
  | keyOrEnd
  | key
  | colon
  | commaOrEnd

inductive State where
  | reading (frames : List Frame) (expect : Expect)
  | done (v : Value)

/-- How a value is read: kept, with room for so many nested containers, or skipped. -/
inductive Mode where
  | keep (room : Nat)
  | skip

/-- Whether one more container may be opened inside of the given ones. -/
def Mode.admits : Mode → List Frame → Bool
  | keep room, frames => frames.length < room
  | skip, _ => true

/-- What a token holds; a skipped token may hold nothing. -/
def Mode.held {α : Type} (mode : Mode) (standIn : α) (held : Option α) : Option α :=
  match mode, held with
  | _, some a => some a
  | skip, none => some standIn
  | keep _, none => none

/-- Hands a value to the innermost container. -/
def deliver (v : Value) : List Frame → Option State
  | [] => some (.done v)
  | .array items :: outer => some (.reading (.array (v :: items) :: outer) .commaOrEnd)
  | .member members key :: outer =>
    some (.reading (.object ((key, v) :: members) :: outer) .commaOrEnd)
  | .object _ :: _ => none

/-- The members of an object in order, a key written twice with its last value. -/
def collect (newestFirst : List (String × Value)) : List (String × Value) :=
  newestFirst.foldr (fun (k, v) ms => Members.put k v ms) []

def finish : List Frame → Token → Option State
  | .array items :: outer, .closeBracket => deliver (.array items.reverse) outer
  | .object members :: outer, .closeBrace => deliver (.object (collect members)) outer
  | _, _ => none

def start (mode : Mode) (frames : List Frame) : Token → Option State
  | .null => deliver .null frames
  | .bool b => deliver (.bool b) frames
  | .number n => do
    let zero : Number := .real ⟨false, 0⟩
    deliver (.number (← mode.held zero n)) frames
  | .string s => do deliver (.string (← mode.held "" s)) frames
  | .openBracket =>
    if mode.admits frames then some (.reading (.array [] :: frames) .itemOrEnd) else none
  | .openBrace =>
    if mode.admits frames then some (.reading (.object [] :: frames) .keyOrEnd) else none
  | _ => none

def name (mode : Mode) : List Frame → Token → Option State
  | .object members :: outer, .string s => do
    return .reading (.member members (← mode.held "" s) :: outer) .colon
  | _, _ => none

def step (mode : Mode) (frames : List Frame) : Expect → Token → Option State
  | .value, t => start mode frames t
  | .itemOrEnd, .closeBracket => finish frames .closeBracket
  | .itemOrEnd, t => start mode frames t
  | .keyOrEnd, .closeBrace => finish frames .closeBrace
  | .keyOrEnd, t => name mode frames t
  | .key, t => name mode frames t
  | .colon, .colon => some (.reading frames .value)
  | .colon, _ => none
  | .commaOrEnd, .comma =>
    match frames with
    | .array _ :: _ => some (.reading frames .value)
    | .object _ :: _ => some (.reading frames .key)
    | _ => none
  | .commaOrEnd, t => finish frames t

def run (mode : Mode) (frames : List Frame) (expect : Expect) :
    List Token → Option (Value × List Token)
  | [] => none
  | t :: rest =>
    match step mode frames expect t with
    | none => none
    | some (.done v) => some (v, rest)
    | some (.reading frames expect) => run mode frames expect rest

/-- The value at the head of the tokens. -/
def take (mode : Mode) (ts : List Token) : Option (Value × List Token) := run mode [] .value ts

/-- How many containers may be nested in each other. -/
def depth : Nat := 127

end Reader

/-- The value of a text that holds one value and nothing else but blanks. -/
def Value.ofBytes? (bytes : List UInt8) : Option Value :=
  match Reader.take (.keep Reader.depth) (Token.read bytes) with
  | some (v, []) => some v
  | _ => none

def Value.ofText? (text : String) : Option Value := ofBytes? text.toUTF8.toList

end Screening.Json
