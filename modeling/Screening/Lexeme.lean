/-!
# Lexemes of a rule text

A rule text is read from the left, one lexeme at a time.  `Lexeme.reach` says how many characters at
the head of a text form one: the first fixed lexeme that the text starts with, else a quoted text up
to its closing quote, else a run of ASCII word characters.  Where nothing is reached the character
is dropped and reading goes on behind it, so blanks, unknown signs and a quote that is never closed
leave no trace.

The fixed lexemes come before words and need no boundary behind them: `ORDER` reads as `OR`, `DER`.
Double quotes are made single before anything is read.

`Lexeme.scan` carries the number of characters that still belong to the lexeme just read, which
makes it plain recursion on the text; `scan_eq_scan_drop` trades that number for a shorter text.
-/

set_option autoImplicit false

namespace Screening

namespace Lexeme

/-- An ASCII letter, digit or underscore. -/
def isWordChar (c : Char) : Bool := c.isAlphanum || c == '_'

/-- Every double quote as a single one. -/
def singleQuoted (rule : String) : String := rule.map fun c => if c = '"' then '\'' else c

/-- The lexemes of fixed spelling, in the order in which they are tried. -/
def fixed : List (List Char) :=
  [['<', '='], ['>', '='], ['!', '='], ['=', '>'], ['A', 'N', 'D'], ['O', 'R'],
   ['('], [')'], ['<'], ['>'], ['=']]

/-- The length of a quoted text or word at the head. -/
def freeReach : List Char → Nat
  | '\'' :: r => if '\'' ∈ r then (r.takeWhile (· ≠ '\'')).length + 2 else 0
  | cs => (cs.takeWhile isWordChar).length

/-- The length of the lexeme at the head of a text; zero if there is none. -/
def reach (cs : List Char) : Nat :=
  match fixed.find? (·.isPrefixOf cs) with
  | some w => w.length
  | none => freeReach cs

/-- The lexemes of a text whose first `n` characters belong to a lexeme already read. -/
def scan : List Char → Nat → List (List Char)
  | [], _ => []
  | _ :: r, n + 1 => scan r n
  | c :: r, 0 =>
    match reach (c :: r) with
    | 0 => scan r 0
    | n + 1 => (c :: r).take (n + 1) :: scan r n

theorem scan_eq_scan_drop (cs : List Char) (n : Nat) : scan cs n = scan (cs.drop n) 0 := by
  induction cs generalizing n with
  | nil => simp [scan]
  | cons c r ih => cases n with
    | zero => rfl
    | succ n => rw [scan, List.drop_succ_cons, ih]

end Lexeme

/-- The lexemes of a rule text in order. -/
def lexemes (rule : String) : List String :=
  (Lexeme.scan (Lexeme.singleQuoted rule).toList 0).map String.ofList

end Screening
