import Screening.Text.Blank
import Screening.Text.Digit
import Screening.Text.WordChar

/-!
# Sets of characters in patterns

A set is kept as it is put together, and `CharSet.has` says what is in it.  Where case does not
matter the letters of ASCII count in both cases.
-/

set_option autoImplicit false

namespace Screening

inductive CharSet where
  | nothing
  | range (first last : Char)
  | digit
  | blank
  | word
  | not (s : CharSet)
  | union (s t : CharSet)
  | inter (s t : CharSet)
  | anyCase (s : CharSet)
  deriving DecidableEq

namespace CharSet

def swapCase (c : Char) : Char := if c.isUpper then c.toLower else c.toUpper

def has : CharSet → Char → Bool
  | nothing, _ => false
  | range first last, c => first ≤ c && c ≤ last
  | digit, c => Text.isDigit c
  | blank, c => Text.isBlank c
  | word, c => Text.isWordChar c
  | not s, c => !s.has c
  | union s t, c => s.has c || t.has c
  | inter s t, c => s.has c && t.has c
  | anyCase s, c => s.has c || s.has (swapCase c)

def single (c : Char) : CharSet := range c c

def all : CharSet := not nothing

def ofRanges (rs : List (Char × Char)) : CharSet :=
  rs.foldl (fun s (first, last) => s.union (range first last)) nothing

def diff (s t : CharSet) : CharSet := s.inter t.not

def symmDiff (s t : CharSet) : CharSet := (s.diff t).union (t.diff s)

/-! ## Sets with names -/

/-- The sets of ASCII characters that have names. -/
def named : List (String × List (Char × Char)) :=
  [("alnum", [('0', '9'), ('A', 'Z'), ('a', 'z')]),
   ("alpha", [('A', 'Z'), ('a', 'z')]),
   ("ascii", [('\x00', '\x7f')]),
   ("blank", [('\t', '\t'), (' ', ' ')]),
   ("cntrl", [('\x00', '\x1f'), ('\x7f', '\x7f')]),
   ("digit", [('0', '9')]),
   ("graph", [('!', '~')]),
   ("lower", [('a', 'z')]),
   ("print", [(' ', '~')]),
   ("punct", [('!', '/'), (':', '@'), ('[', '\x60'), ('\x7b', '~')]),
   ("space", [('\t', '\r'), (' ', ' ')]),
   ("upper", [('A', 'Z')]),
   ("word", [('0', '9'), ('A', 'Z'), ('_', '_'), ('a', 'z')]),
   ("xdigit", [('0', '9'), ('A', 'F'), ('a', 'f')])]

def ofName? (name : String) : Option CharSet := (named.lookup name).map ofRanges

end CharSet

end Screening
