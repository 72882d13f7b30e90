import Screening.Number.Binary64

/-!
# Single settings and tables of them

Files and variables give settings: values of a few kinds, lists, and tables that hold settings in
their turn.  One setting is laid over another by `Setting.layOver`: where both are tables the two
are joined key by key, and anywhere else the one on top stays.
-/

set_option autoImplicit false

namespace Screening

inductive Setting where
  | nothing
  | text (s : String)
  | integer (n : Int)
  | real (x : Real64)
  | flag (b : Bool)
  | list (items : List Setting)
  | table (entries : List (String × Setting))

/-- Settings by their keys. -/
abbrev Entries := List (String × Setting)

namespace Setting

instance : Inhabited Setting := ⟨table []⟩

/-- The entries of a table; any other setting has none. -/
def entries : Setting → Entries
  | table es => es
  | _ => []

/-- The items of a list; any other setting has none. -/
def items : Setting → List Setting
  | list ts => ts
  | _ => []

/-- Writes an entry: in place if the key is there, at the end if not. -/
def put (key : String) (value : Setting) : Entries → Entries
  | [] => [(key, value)]
  | (k, v) :: rest => if k = key then (key, value) :: rest else (k, v) :: put key value rest

/-- The entry under a key. -/
def find? (key : String) : Entries → Option Setting
  | [] => none
  | (k, t) :: rest => if k = key then some t else find? key rest

mutual

/-- Lays a setting over what there is. -/
def layOver : Setting → Option Setting → Setting
  | table es, below => table (entriesOver es ((below.map entries).getD []))
  | t, _ => t

/-- Lays entries over others one after the other. -/
def entriesOver : Entries → Entries → Entries
  | [], below => below
  | (k, t) :: rest, below => entriesOver rest (put k (t.layOver (find? k below)) below)

end

/-! ## Looking up -/

theorem find?_put (k l : String) (t : Setting) (es : Entries) :
    find? l (put k t es) = if l = k then some t else find? l es := by
  induction es with
  | nil => simp [find?, put, eq_comm]
  | cons e rest ih =>
    by_cases hk : e.1 = k <;> by_cases hl : e.1 = l <;> grind [find?, put]

theorem find?_of_notMem {k : String} {es : Entries} (h : k ∉ es.map Prod.fst) :
    find? k es = none := by
  induction es with
  | nil => rfl
  | cons e rest ih =>
    rw [List.map_cons, List.mem_cons, not_or] at h
    rw [find?, if_neg (Ne.symm h.1), ih h.2]

theorem lookup_singleton (n : String) (e : String × Setting) :
    [e].lookup n = if n = e.1 then some e.2 else none := by
  rw [List.lookup_cons]
  by_cases hn : n = e.1
  · rw [if_pos hn, hn, beq_self_eq_true]
  · rw [if_neg hn, beq_eq_false_iff_ne.2 hn]
    rfl

/-- Where no key stands twice it is the same to look from the back and from the front. -/
theorem lookup_reverse {n : String} {es : Entries} (h : (es.map Prod.fst).Nodup) :
    es.reverse.lookup n = find? n es := by
  induction es with
  | nil => rfl
  | cons e rest ih =>
    obtain ⟨hkey, hrest⟩ := List.nodup_cons.1 h
    rw [List.reverse_cons, List.lookup_append, ih hrest, lookup_singleton, find?]
    by_cases he : e.1 = n
    · rw [if_pos he.symm, if_pos he, ← he, find?_of_notMem hkey, Option.none_or]
    · rw [if_neg (Ne.symm he), if_neg he, Option.or_none]

end Setting

end Screening
