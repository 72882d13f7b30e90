import Screening.Json.Reader

/-!
# The bodies of requests

A body is read token by token, and the first fault decides how it is refused: the body is not JSON
(`Fault.unreadable`), or it is and has the wrong shape (`Fault.misshapen`).  What stands behind the
first fault is not looked at.

A payload is written as an object of its fields or as an array of them in order.  Fields left out
keep their defaults.  Members of other names are skipped unread; a field written twice is a wrong
shape, an array with an element too many is no JSON of ours.
-/

set_option autoImplicit false

namespace Screening.Http

open Json (Token Value)

inductive Fault where
  | unreadable
  | misshapen
  deriving DecidableEq

/-- Reads something from the head of the tokens and hands back the tokens behind it. -/
abbrev Decoder (α : Type) := List Token → Except Fault (α × List Token)

namespace Decoder

/-- The fault of tokens at whose head something else was to come: a sound beginning of some value
has the wrong shape, anything else is unreadable. -/
def mismatch : List Token → Fault
  | .null :: _ => .misshapen
  | .bool _ :: _ => .misshapen
  | .number (some _) :: _ => .misshapen
  | .string (some _) :: _ => .misshapen
  | .openBracket :: _ => .misshapen
  | .openBrace :: _ => .misshapen
  | _ => .unreadable

def text : Decoder String
  | .string (some s) :: rest => .ok (s, rest)
  | ts => .error (mismatch ts)

/-- The items of a list of texts and its closing bracket; `acc` has the items so far, newest
first. -/
def textsFrom (acc : List String) : Decoder (List String)
  | .string (some s) :: .comma :: rest => textsFrom (s :: acc) rest
  | .string (some s) :: .closeBracket :: rest => .ok ((s :: acc).reverse, rest)
  | .string (some _) :: _ => .error .unreadable
  | ts => .error (mismatch ts)

def texts : Decoder (List String)
  | .openBracket :: .closeBracket :: rest => .ok ([], rest)
  | .openBracket :: rest => textsFrom [] rest
  | ts => .error (mismatch ts)

/-- Any value, which stands one container deep. -/
def value : Decoder Value := fun ts =>
  match Json.Reader.take (.keep (Json.Reader.depth - 1)) ts with
  | some r => .ok r
  | none => .error .unreadable

/-- Passes over a value. -/
def skip : Decoder Unit := fun ts =>
  match Json.Reader.take .skip ts with
  | some (_, rest) => .ok ((), rest)
  | none => .error .unreadable

def colon : Decoder Unit
  | .colon :: rest => .ok ((), rest)
  | _ => .error .unreadable

def key : Decoder String
  | .string (some s) :: rest => .ok (s, rest)
  | _ => .error .unreadable

end Decoder

/-- A field of a payload: its name and how it is read into the payload. -/
structure Field (σ : Type) where
  name : String
  read : σ → Decoder σ

def Field.of {σ α : Type} (name : String) (d : Decoder α) (set : σ → α → σ) : Field σ :=
  ⟨name, fun s ts => do
    let (a, rest) ← d ts
    return (set s a, rest)⟩

namespace Payload

variable {σ : Type}

/-- One member, given the names of the fields seen before; the names afterwards and the payload. -/
def member (fields : List (Field σ)) (seen : List String) (s : σ) :
    Decoder (List String × σ) := fun ts => do
  let (key, rest) ← Decoder.key ts
  match fields.find? (·.name = key) with
  | some f =>
    if key ∈ seen then throw .misshapen
    else
      let (_, rest) ← Decoder.colon rest
      let (s, rest) ← f.read s rest
      return ((key :: seen, s), rest)
  | none =>
    let (_, rest) ← Decoder.colon rest
    let (_, rest) ← Decoder.skip rest
    return ((seen, s), rest)

/-- The members of an object and its closing brace. -/
def members (fields : List (Field σ)) (seen : List String) (s : σ) (ts : List Token) :
    Except Fault (σ × List Token) :=
  match member fields seen s ts with
  | .error e => .error e
  | .ok ((seen, s), .comma :: rest) =>
    if rest.length < ts.length then members fields seen s rest else .error .unreadable
  | .ok ((_, s), .closeBrace :: rest) => .ok (s, rest)
  | .ok _ => .error .unreadable
  termination_by ts.length

/-- The elements behind the first one and the closing bracket. -/
def elements (s : σ) : List (Field σ) → Decoder σ
  | _, .closeBracket :: rest => .ok (s, rest)
  | f :: fs, .comma :: rest => do
    let (s, rest) ← f.read s rest
    elements s fs rest
  | _, _ => .error .unreadable

def payload (fields : List (Field σ)) (s : σ) : Decoder σ
  | .openBrace :: .closeBrace :: rest => .ok (s, rest)
  | .openBrace :: rest => members fields [] s rest
  | .openBracket :: .closeBracket :: rest => .ok (s, rest)
  | .openBracket :: rest => elements s fields (.comma :: rest)
  | ts => .error (Decoder.mismatch ts)

/-- The payload of a body which holds that and nothing else. -/
def ofBody (fields : List (Field σ)) (s : σ) (body : List UInt8) : Except Fault σ :=
  match payload fields s (Token.read body) with
  | .ok (s, []) => .ok s
  | .ok (_, _ :: _) => .error .unreadable
  | .error e => .error e

end Payload

/-! ## The three payloads -/

structure CreateRequest where
  rule : String := ""

structure CombineRequest where
  rules : List String := []

structure EvaluateRequest where
  rule : String := ""
  data : Value := .null

def CreateRequest.ofBody (body : List UInt8) : Except Fault CreateRequest :=
  Payload.ofBody [.of "rule" Decoder.text fun s rule => { s with rule }] {} body

def CombineRequest.ofBody (body : List UInt8) : Except Fault CombineRequest :=
  Payload.ofBody [.of "rules" Decoder.texts fun s rules => { s with rules }] {} body

def EvaluateRequest.ofBody (body : List UInt8) : Except Fault EvaluateRequest :=
  Payload.ofBody
    [.of "rule" Decoder.text fun s rule => { s with rule },
     .of "data" Decoder.value fun s data => { s with data }] {} body

end Screening.Http
