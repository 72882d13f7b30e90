import Screening.Numeral

/-!
# Literals

A literal is a 64-bit integer or a text.  `Literal.coerce` decides which one a lexeme of a rule
stands for, and `Literal.toText` writes a literal so that `coerce` finds it again: integers bare,
texts in single quotes.
-/

set_option autoImplicit false

namespace Screening

inductive Literal where
  | integer (n : Int64)
  | text (s : String)
  deriving DecidableEq

namespace Literal

/-- The inside of a text that begins and ends with a single quote of its own; any other text as it
stands. -/
def unquote : List Char → List Char
  | '\'' :: r => if r.getLast? = some '\'' then r.dropLast else '\'' :: r
  | s => s

/-- A decimal integer in 64-bit range is that integer; anything else is text, less one pair of
quotes. -/
def coerce (lexeme : String) : Literal :=
  match Numeral.int64? lexeme.toList with
  | some n => integer n
  | none => text (String.ofList (unquote lexeme.toList))

def toText : Literal → String
  | integer n => Numeral.ofInt n.toInt
  | text s => "'" ++ s ++ "'"

end Literal

end Screening
