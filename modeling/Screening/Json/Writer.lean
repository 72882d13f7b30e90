import Screening.Json.Value
import Screening.Numeral
import Screening.Number.Shortest

/-!
# Writing JSON values

Values are written without blanks.  Strings escape the quote, the backslash and the control
characters below the space, five of them by a letter; everything else stands for itself.  A binary64
number is the shortest one that reads back and never looks like an integer.
-/

set_option autoImplicit false

namespace Screening.Json

namespace Writer

/-- The four hexadecimal digits of an escape. -/
def hex4 (n : Nat) : String :=
  String.ofList ([n / 4096, n / 256, n / 16, n].map fun d => Nat.digitChar (d % 16))

def escape (c : Char) : String :=
  match c with
  | '"' => "\\\""
  | '\\' => "\\\\"
  | '\x08' => "\\b"
  | '\x0c' => "\\f"
  | '\n' => "\\n"
  | '\r' => "\\r"
  | '\t' => "\\t"
  | c => if c.toNat < 0x20 then "\\u" ++ hex4 c.toNat else c.toString

def quote (s : String) : String := s.foldl (fun t c => t ++ escape c) "\"" ++ "\""

/-- Puts commas between texts. -/
def commas : List String → String
  | [] => ""
  | t :: ts => ts.foldl (fun acc t => acc ++ "," ++ t) t

end Writer

def Number.toText : Number → String
  | integer n _ => Numeral.ofInt n
  | real x => x.toCompact

mutual

def Value.toText : Value → String
  | .null => "null"
  | .bool b => if b then "true" else "false"
  | .number n => n.toText
  | .string s => Writer.quote s
  | .array items => "[" ++ Writer.commas (itemTexts items) ++ "]"
  | .object members => "\x7b" ++ Writer.commas (memberTexts members) ++ "\x7d"

def itemTexts : List Value → List String
  | [] => []
  | v :: vs => v.toText :: itemTexts vs

def memberTexts : List (String × Value) → List String
  | [] => []
  | (k, v) :: ms => (Writer.quote k ++ ":" ++ v.toText) :: memberTexts ms

end

end Screening.Json
