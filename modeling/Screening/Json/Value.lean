import Screening.Number.Binary64
import Screening.Numeral

/-!
# JSON values

A number is an exact integer while it fits into 64 bits, signed or unsigned, and a binary64 number
otherwise; which of the two it is depends on how it is written, and `1.0` is no integer.  An object
is the list of its members.  `Value.put` keeps its keys distinct: writing a key again replaces the
value in place.
-/

set_option autoImplicit false

namespace Screening.Json

inductive Number where
  | integer (n : Int) (inRange : -0x8000_0000_0000_0000 ≤ n ∧ n < 0x1_0000_0000_0000_0000)
  | real (x : Binary64)
  deriving DecidableEq

namespace Number

def ofInt? (n : Int) : Option Number :=
  if h : -0x8000_0000_0000_0000 ≤ n ∧ n < 0x1_0000_0000_0000_0000 then some (integer n h) else none

theorem int64_inRange (n : Int64) :
    -0x8000_0000_0000_0000 ≤ n.toInt ∧ n.toInt < 0x1_0000_0000_0000_0000 := by
  have := n.le_toInt
  have := n.toInt_lt
  omega

def ofInt64 (n : Int64) : Number := integer n.toInt (int64_inRange n)

/-- The number as a signed 64-bit integer, if it is one. -/
def toInt64? : Number → Option Int64
  | integer n _ => Numeral.toInt64? n
  | real _ => none

/-- The nearest binary64 number. -/
def toBinary64 : Number → Binary64
  | integer n _ => .ofInt n
  | real x => x

end Number

inductive Value where
  | null
  | bool (b : Bool)
  | number (n : Number)
  | string (s : String)
  | array (items : List Value)
  | object (members : List (String × Value))

abbrev Members := List (String × Value)

/-- Writes a member: in place if the key is there, at the end if not. -/
def Members.put (key : String) (value : Value) : Members → Members
  | [] => [(key, value)]
  | (k, v) :: rest =>
    if k = key then (key, value) :: rest else (k, v) :: Members.put key value rest

def Members.remove (key : String) (members : Members) : Members :=
  members.filter fun m => m.1 ≠ key

theorem lookup_put (key : String) (v : Value) (members : Members) (k : String) :
    (members.put key v).lookup k = if k = key then some v else members.lookup k := by
  induction members with
  | nil => grind [Members.put]
  | cons m rest ih => grind [Members.put]

theorem lookup_remove (key : String) (members : Members) (k : String) :
    (members.remove key).lookup k = if k = key then none else members.lookup k := by
  induction members with
  | nil => grind [Members.remove]
  | cons m rest ih => grind [Members.remove]

/-- Of members with distinct names, those that are found are those that are there. -/
theorem lookup_eq_some_iff_mem {members : Members} (h : (members.map Prod.fst).Nodup) {k : String}
    {v : Value} : members.lookup k = some v ↔ (k, v) ∈ members := by
  induction members with
  | nil => simp
  | cons m rest ih =>
    obtain ⟨name, w⟩ := m
    rw [List.map_cons, List.nodup_cons] at h
    rw [List.lookup_cons]
    by_cases hk : k = name
    · subst hk
      have hrest (u : Value) : (k, u) ∉ rest := fun hu => h.1 (List.mem_map.2 ⟨_, hu, rfl⟩)
      simp [hrest, eq_comm]
    · rw [beq_eq_false_iff_ne.2 hk]
      simp [hk, ih h.2]

namespace Value

def ofInt64 (n : Int64) : Value := number (.ofInt64 n)

/-- A count as a number; counts stay far below the bound. -/
def ofNat (n : Nat) : Value :=
  match Number.ofInt? n with
  | some k => number k
  | none => null

instance : Inhabited Value := ⟨null⟩

end Value

end Screening.Json
