import Screening.Json.Reader
import Std.Data.HashMap

/-!
# Records

A rule asks one thing of a record: the value of a field, if the field is there.  Field names are
matched letter by letter, and only against the fields of the record itself; a dot in a name leads
nowhere.

Members in order, a hash map, a JSON value and a `Context` all serve as records.  A JSON value that
is no object has no fields.
-/

set_option autoImplicit false

namespace Screening

class Record (ρ : Type) where
  get? : ρ → String → Option Json.Value

namespace Record

def has {ρ : Type} [Record ρ] (r : ρ) (field : String) : Bool := (get? r field).isSome

instance : Record Json.Members where
  get? members field := members.lookup field

instance : Record (Std.HashMap String Json.Value) where
  get? map field := map.get? field

instance : Record Json.Value where
  get?
    | .object members, field => get? (ρ := Json.Members) members field
    | _, _ => none

end Record

/-- The data that a rule is to be judged on. -/
structure Context where
  data : Json.Value

def Context.ofText? (text : String) : Option Context := (Json.Value.ofText? text).map .mk

instance : Record Context where
  get? c := Record.get? c.data

end Screening
