import Screening.Http.MediaType
import Screening.Http.Message

/-!
# Request identifiers

Every exchange has an identifier.  A client may send one; otherwise a random UUID is made.  Of
several identifiers sent the first one alone is looked at, even if it does not serve and a later one
would.

The randomness comes from outside.  `Uuid` holds the random bits and nothing else, so every value of
it is written as a UUID of version 4.

The identifier goes back to the client in a header of the response.  It is left out if it cannot
stand there, which never happens: what is taken for an identifier is always fit to be written
(`writeTo_ofRequest`).
-/

set_option autoImplicit false

namespace Screening.Http

/-- The random bits of a UUID of version 4. -/
structure Uuid where
  high : BitVec 48
  middle : BitVec 12
  low : BitVec 62
  deriving DecidableEq

namespace Uuid

/-- All bits, with the version and the variant in their places. -/
def bits (u : Uuid) : BitVec 128 := u.high ++ 4#4 ++ u.middle ++ 2#2 ++ u.low

/-- Hexadecimal digits `start` to `start + count`, of thirty-two. -/
def digits (u : Uuid) (start count : Nat) : List Char :=
  (List.range count).map fun i =>
    Nat.digitChar (u.bits.toNat / Nat.pow 16 (31 - (start + i)) % 16)

def toText (u : Uuid) : String :=
  String.ofList (u.digits 0 8 ++ '-' :: u.digits 8 4 ++ '-' :: u.digits 12 4 ++
    '-' :: u.digits 16 4 ++ '-' :: u.digits 20 12)

end Uuid

inductive RequestId where
  | sent (text : String)
  | generated (u : Uuid)
  deriving DecidableEq

namespace RequestId

def header : String := "x-request-id"

def toText : RequestId → String
  | sent text => text
  | generated u => u.toText

/-- The identifier that a request sends, if it serves as one. -/
def sent? (r : Request) : Option String :=
  ((r.header? header).bind headerText?).filter (· ≠ "")

/-- The identifier of the exchange that a request opens. -/
def ofRequest (fresh : Uuid) (r : Request) : RequestId :=
  match sent? r with
  | some text => sent text
  | none => generated fresh

/-- Writes the identifier into the header of a response, if it can stand there. -/
def writeTo (id : RequestId) (a : Response) : Response :=
  if isHeaderValue id.toText then a.setHeader header id.toText else a

/-! ## What is read can be written -/

theorem isHeaderChar_of_visible {b : UInt8} (h : Visible b) :
    isHeaderChar (Char.ofNat b.toNat) = true := by
  have hsmall : ∀ n < 127, 32 ≤ n ∨ n = 9 → isHeaderChar (Char.ofNat n) = true := by decide
  rcases h with ⟨hlow, hhigh⟩ | htab
  · exact hsmall _ hhigh (.inl hlow)
  · rw [htab]
    rfl

theorem isHeaderValue_of_headerText? {value : List UInt8} {text : String}
    (h : headerText? value = some text) : isHeaderValue text = true := by
  obtain ⟨hvisible, rfl⟩ := headerText?_eq_some_iff.1 h
  rw [isHeaderValue, String.toList_ofList, List.all_map, List.all_eq_true]
  intro b hb
  exact isHeaderChar_of_visible (hvisible b hb)

theorem isHeaderChar_digitChar : ∀ d < 16, isHeaderChar (Nat.digitChar d) = true := by decide

theorem isHeaderValue_toText (u : Uuid) : isHeaderValue u.toText = true := by
  have hdigits (start count : Nat) : (u.digits start count).all isHeaderChar = true := by
    rw [Uuid.digits, List.all_map, List.all_eq_true]
    exact fun i _ => isHeaderChar_digitChar _ (Nat.mod_lt _ (by decide))
  simp [isHeaderValue, Uuid.toText, hdigits, isHeaderChar]

theorem isHeaderValue_ofRequest (fresh : Uuid) (r : Request) :
    isHeaderValue (ofRequest fresh r).toText = true := by
  rw [ofRequest]
  split
  · rename_i text htext
    obtain ⟨htext, -⟩ := Option.filter_eq_some_iff.1 htext
    obtain ⟨value, -, hvalue⟩ := Option.bind_eq_some_iff.1 htext
    exact isHeaderValue_of_headerText? hvalue
  · exact isHeaderValue_toText fresh

theorem writeTo_ofRequest (fresh : Uuid) (r : Request) (a : Response) :
    (ofRequest fresh r).writeTo a = a.setHeader header (ofRequest fresh r).toText :=
  if_pos (isHeaderValue_ofRequest fresh r)

end RequestId

end Screening.Http
