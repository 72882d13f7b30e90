import Screening.Text.Hidden

/-!
# Text between quotes

A text is put between quotes so that its end can be seen.  Quotes and backslashes in it have a
backslash in front; line breaks, tabs and the zero character are written by a letter or a digit, and
every other character that would not show is written by its number.
-/

set_option autoImplicit false

namespace Screening.Text

def escaped (c : Char) : List Char :=
  match c with
  | '"' => ['\\', '"']
  | '\\' => ['\\', '\\']
  | '\n' => ['\\', 'n']
  | '\r' => ['\\', 'r']
  | '\t' => ['\\', 't']
  | '\x00' => ['\\', '0']
  | c => if isHidden c then "\\u\x7b".toList ++ Nat.toDigits 16 c.toNat ++ ['\x7d'] else [c]

def quote (s : String) : String := String.ofList ('"' :: s.toList.flatMap escaped ++ ['"'])

end Screening.Text
