/-!
# The six comparisons

A condition compares a value of the record with a literal of the rule.  What it learns of the two
is at most an ordering, seen from the record's side; values of different kinds have none.
`Comparison.holds` says which orderings satisfy which comparison: without an ordering only
`!=` holds.
-/

set_option autoImplicit false

namespace Screening

inductive Comparison where
  | less
  | atMost
  | greater
  | atLeast
  | equal
  | unequal
  deriving DecidableEq

namespace Comparison

def all : List Comparison := [less, atMost, greater, atLeast, equal, unequal]

/-- How the comparison is written in a rule. -/
def symbol : Comparison → String
  | less => "<"
  | atMost => "<="
  | greater => ">"
  | atLeast => ">="
  | equal => "="
  | unequal => "!="

def ofSymbol? (s : String) : Option Comparison := all.find? fun c => c.symbol == s

/-- Whether an ordering of the record's value against the literal satisfies the comparison. -/
def holds : Comparison → Option Ordering → Bool
  | less, o => o == some .lt
  | atMost, o => o == some .lt || o == some .eq
  | greater, o => o == some .gt
  | atLeast, o => o == some .gt || o == some .eq
  | equal, o => o == some .eq
  | unequal, o => o != some .eq

@[simp] theorem ofSymbol?_symbol (c : Comparison) : ofSymbol? c.symbol = some c := by
  cases c <;> decide

theorem symbol_of_ofSymbol? {s : String} {c : Comparison} (h : ofSymbol? s = some c) :
    c.symbol = s := by
  simpa using List.find?_some h

end Comparison

end Screening
