import Screening.Settings.Setting

/-!
# Tables while they are being written

A TOML document does not write its tables one after the other: headers and dotted keys lead into
tables that earlier lines have begun.  Which of them a line may still add to depends on how they
came about, so the tables of a draft remember their `Origin`.

* A header opens a table that is new, or has only been implied by longer headers so far.
* A dotted key goes through tables that are no header's own, and adds to them; into a list of tables
  it only goes to get further, and does not add to the last table itself.
* A double header appends to a list of tables; such a list is entered by way of its last table.
* Values, inline tables among them, are sealed.
-/

set_option autoImplicit false

namespace Screening.Toml

/-- How a table came about. -/
inductive Origin where
  | implied
  | header
  | dotted
  deriving DecidableEq

inductive Node where
  | sealed (t : Setting)
  | table (origin : Origin) (entries : List (String × Node))
  | tables (earlier : List Setting) (last : List (String × Node))

abbrev Draft := List (String × Node)

mutual

/-- What a node comes to; of a list of tables the last one is kept apart. -/
def Node.toSetting : Node → Setting
  | .sealed t => t
  | .table _ es => .table (toEntries es)
  | .tables earlier last => .list (earlier ++ [.table (toEntries last)])

def toEntries : List (String × Node) → Entries
  | [] => []
  | (k, n) :: rest => (k, n.toSetting) :: toEntries rest

end

namespace Draft

def has (key : String) (d : Draft) : Bool := d.any fun e => e.1 = key

/-- Changes what is under a key, or puts something there. -/
def alter (key : String) (f : Option Node → Option Node) : Draft → Option Draft
  | [] => do return [(key, ← f none)]
  | (k, n) :: rest => do
    if k = key then return (k, ← f (some n)) :: rest
    else return (k, n) :: (← alter key f rest)

/-- Changes the table that the keys of a header lead to; tables missing on the way are implied. -/
def within (change : Draft → Option Draft) : List String → Draft → Option Draft
  | [], d => change d
  | k :: ks, d => d.alter k fun
    | none => do return .table .implied (← within change ks [])
    | some (.table origin inner) => do return .table origin (← within change ks inner)
    | some (.tables earlier last) => do return .tables earlier (← within change ks last)
    | some (.sealed _) => none

/-- Opens the table of a header; `path` leads to the table that `key` stands in. -/
def openTable (path : List String) (key : String) : Draft → Option Draft :=
  within (alter key fun
    | none => some (.table .header [])
    | some (.table .implied inner) => some (.table .header inner)
    | _ => none) path

/-- Opens one more table in the list of a double header. -/
def openNext (path : List String) (key : String) : Draft → Option Draft :=
  within (alter key fun
    | none => some (.tables [] [])
    | some (.tables earlier last) => some (.tables (earlier ++ [.table (toEntries last)]) [])
    | _ => none) path

/-- Writes a value under a dotted key that has not been written before. -/
def assign (value : Setting) : List String → Draft → Option Draft
  | [], _ => none
  | [key], d => if d.has key then none else some (d ++ [(key, .sealed value)])
  | k :: ks, d => d.alter k fun
    | none => do return .table .dotted (← assign value ks [])
    | some (.tables earlier last) =>
      if ks.length = 1 then none else do return .tables earlier (← assign value ks last)
    | some (.table .header _) => none
    | some (.table origin inner) => do return .table origin (← assign value ks inner)
    | some (.sealed _) => none

end Draft

end Screening.Toml
