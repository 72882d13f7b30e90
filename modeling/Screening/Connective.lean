/-!
# The two connectives

Keywords are upper case; `and` written in lower case is an ordinary word.
-/

set_option autoImplicit false

namespace Screening

inductive Connective where
  | and
  | or
  deriving DecidableEq

namespace Connective

def keyword : Connective → String
  | and => "AND"
  | or => "OR"

def ofKeyword? (s : String) : Option Connective :=
  if s = "AND" then some and else if s = "OR" then some or else none

def apply : Connective → Bool → Bool → Bool
  | and, a, b => a && b
  | or, a, b => a || b

theorem ofKeyword?_eq_some_iff {s : String} {op : Connective} :
    ofKeyword? s = some op ↔ s = op.keyword := by
  cases op <;> rw [ofKeyword?] <;> split <;> simp_all [keyword]

end Connective

end Screening
