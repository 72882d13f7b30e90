import Screening.Number.Scientific
import Screening.Settings.Setting

/-!
# Settings from variables

A variable whose name begins with `RULE_`, in any case, gives a setting.  The rest of its name in
lower case is the name of the setting, with two underscores for each dot.  Its value is a truth
value, a whole number or a number if it reads as one, and a text otherwise.
-/

set_option autoImplicit false

namespace Screening

namespace Setting

/-- Reads pairs of underscores as dots. -/
def dotted : List Char → List Char
  | '_' :: '_' :: rest => '.' :: dotted rest
  | c :: rest => c :: dotted rest
  | [] => []

/-- The name of the setting that a variable gives, if it gives one. -/
def ofVariable? (name : String) : Option String :=
  match name.toLower.toList with
  | 'r' :: 'u' :: 'l' :: 'e' :: '_' :: rest => some (String.ofList (dotted rest))
  | _ => none

/-! ## Values -/

def ofText (text : String) : Setting :=
  if text.toLower = "true" then .flag true
  else if text.toLower = "false" then .flag false
  else match Numeral.int64? text.toList with
    | some n => .integer n.toInt
    | none =>
      match Real64.ofText? text with
      | some x => .real x
      | none => .text text

end Setting

end Screening
