import Screening.Numeral
import Screening.Pattern.Basic

/-!
# Reading patterns

Patterns are written in the common notation: `.` and sets in brackets, groups in parentheses, `|`
between alternatives, `?`, `*` and `+` behind what is repeated with one more `?` to prefer fewer
rounds, `^` and `$` for the ends, and a backslash in front of what would mean something else.  A
group may begin with flags, and flags may stand by themselves.

Left out, and refused, are counted repetitions, properties of characters by name, and edges of words
other than ASCII words.
-/

set_option autoImplicit false

namespace Screening.Pattern

/-- What the flags in force say. -/
structure Modes where
  caseless : Bool := false
  multiline : Bool := false
  dotAll : Bool := false
  swapped : Bool := false
  spaced : Bool := false
  returns : Bool := false
  ascii : Bool := false

def Modes.set (m : Modes) (on : Bool) : Char → Option Modes
  | 'i' => some { m with caseless := on }
  | 'm' => some { m with multiline := on }
  | 's' => some { m with dotAll := on }
  | 'U' => some { m with swapped := on }
  | 'x' => some { m with spaced := on }
  | 'R' => some { m with returns := on }
  | 'u' => some { m with ascii := !on }
  | _ => none

/-- Skips blanks and comments where they do not count. -/
def skipSpace (inComment : Bool) : List Char → List Char
  | [] => []
  | c :: rest =>
    if inComment then skipSpace (c != '\n') rest
    else if c == '#' then skipSpace true rest
    else if Text.isBlank c then skipSpace false rest
    else c :: rest

def skip (m : Modes) (cs : List Char) : List Char := if m.spaced then skipSpace false cs else cs

/-! ## Single characters -/

/-- What a backslash and the characters behind it stand for. -/
inductive Atom where
  | char (c : Char)
  | set (s : CharSet)
  | anchor (a : Anchor)

def numbered? (digits : List Char) : Option Char := do
  let n := (← digits.mapM Numeral.hexDigit?).foldl (fun n d => 16 * n + d) 0
  if n < 0xD800 ∨ (0xDFFF < n ∧ n < 0x110000) then some (Char.ofNat n) else none

/-- The class with the given letter, of which a capital stands for the complement. -/
def class? (m : Modes) (c : Char) : Option CharSet := do
  let s ← match c.toLower with
    | 'd' => if m.ascii then CharSet.ofName? "digit" else some .digit
    | 's' => if m.ascii then CharSet.ofName? "space" else some .blank
    | 'w' => if m.ascii then CharSet.ofName? "word" else some .word
    | _ => none
  if c.isUpper then (if m.ascii then none else some s.not) else some s

def letterEscape? (m : Modes) : Char → Option Atom
  | 'a' => some (.char '\x07')
  | 'f' => some (.char '\x0c')
  | 't' => some (.char '\t')
  | 'n' => some (.char '\n')
  | 'r' => some (.char '\r')
  | 'v' => some (.char '\x0b')
  | 'A' => some (.anchor .textStart)
  | 'z' => some (.anchor .textEnd)
  | 'b' => if m.ascii then some (.anchor .wordEdge) else none
  | 'B' => if m.ascii then some (.anchor .noWordEdge) else none
  | c => (class? m c).map .set

/-- Reads on behind a backslash. -/
def escape? (m : Modes) : List Char → Option (Atom × List Char)
  | 'x' :: a :: b :: rest => do return (.char (← numbered? [a, b]), rest)
  | 'u' :: a :: b :: c :: d :: rest => do return (.char (← numbered? [a, b, c, d]), rest)
  | 'U' :: a :: b :: c :: d :: e :: f :: g :: h :: rest => do
    return (.char (← numbered? [a, b, c, d, e, f, g, h]), rest)
  | c :: rest =>
    if c.isAlphanum then (letterEscape? m c).map (·, rest)
    else if c.toNat < 128 && c != '<' && c != '>' then some (.char c, rest)
    else none
  | [] => none

/-! ## Sets in brackets -/

inductive SetOp where
  | inter
  | diff
  | symmDiff

def folded (m : Modes) (s : CharSet) : CharSet := if m.caseless then s.anyCase else s

/-- Joins the set so far with what stands in front of it. -/
def joined (m : Modes) (s : CharSet) : Option (SetOp × CharSet) → CharSet
  | none => s
  | some (.inter, left) => (folded m left).inter (folded m s)
  | some (.diff, left) => (folded m left).diff (folded m s)
  | some (.symmDiff, left) => (folded m left).symmDiff (folded m s)

def closed (m : Modes) (negated : Bool) (s : CharSet) : Option CharSet :=
  if negated then (if m.ascii then none else some (folded m s).not) else some (folded m s)

/-- The name of a set behind its opening bracket, as in `[:alpha:]`. -/
def namedSet? (cs : List Char) : Option (CharSet × List Char) := do
  let (negated, rest) ← match cs with
    | ':' :: '^' :: rest => some (true, rest)
    | ':' :: rest => some (false, rest)
    | _ => none
  match rest.dropWhile (· ≠ ':') with
  | ':' :: ']' :: more => do
    let s ← CharSet.ofName? (String.ofList (rest.takeWhile (· ≠ ':')))
    return (if negated then s.not else s, more)
  | _ => none

/-- Dashes at the start of a set stand for themselves. -/
def leadingDashes (m : Modes) (s : CharSet) : Nat → List Char → CharSet × List Char
  | fuel + 1, '-' :: rest => leadingDashes m (s.union (.single '-')) fuel (skip m rest)
  | _, cs => (s, cs)

/-- What follows an opening bracket up to the first item: whether the set is negated, and the
characters that stand for themselves there. -/
def openSet (m : Modes) (cs : List Char) : Bool × CharSet × List Char :=
  let (negated, rest) := match skip m cs with
    | '^' :: rest => (true, skip m rest)
    | rest => (false, rest)
  match rest with
  | ']' :: more => (negated, .single ']', more)
  | _ => (negated, leadingDashes m .nothing rest.length rest)

def setAtom? (m : Modes) : List Char → Option (Atom × List Char)
  | '\\' :: rest => escape? m rest
  | c :: rest => some (.char c, rest)
  | [] => none

/-- A character, a class or a range in a set. -/
def setItem? (m : Modes) (cs : List Char) : Option (CharSet × List Char) := do
  let (first, rest) ← setAtom? m cs
  let alone : Option (CharSet × List Char) := match first with
    | .char c => some (.single c, rest)
    | .set s => some (s, rest)
    | .anchor _ => none
  match skip m rest with
  | '-' :: more =>
    match skip m more with
    | ']' :: _ => alone
    | '-' :: _ => alone
    | more =>
      match first, ← setAtom? m more with
      | .char a, (.char b, rest) => if a ≤ b then some (.range a b, rest) else none
      | _, _ => none
  | _ => alone

/-- The rest of a set up to its closing bracket; `s` has the items so far. -/
def setRest (m : Modes) (negated : Bool) (left : Option (SetOp × CharSet)) (s : CharSet) :
    Nat → List Char → Option (CharSet × List Char)
  | 0, _ => none
  | fuel + 1, cs =>
    match skip m cs with
    | [] => none
    | ']' :: rest => do return (← closed m negated (joined m s left), rest)
    | '[' :: rest =>
      match namedSet? rest with
      | some (t, rest) => setRest m negated left (s.union t) fuel rest
      | none => do
        let (inverted, t, rest) := openSet m rest
        let (t, rest) ← setRest m inverted none t fuel rest
        setRest m negated left (s.union t) fuel rest
    | '&' :: '&' :: rest => setRest m negated (some (.inter, joined m s left)) .nothing fuel rest
    | '-' :: '-' :: rest => setRest m negated (some (.diff, joined m s left)) .nothing fuel rest
    | '~' :: '~' :: rest =>
      setRest m negated (some (.symmDiff, joined m s left)) .nothing fuel rest
    | rest => do
      let (t, rest) ← setItem? m rest
      setRest m negated left (s.union t) fuel rest

/-! ## Groups -/

/-- How a group begins: with flags for what follows it, or with modes for what is in it. -/
inductive Opening where
  | flags (m : Modes)
  | group (m : Modes)

/-- Reads flags up to the end that they apply to; `seen` has those read so far, newest first. -/
def flags? (m : Modes) (on : Bool) (seen : List Char) : List Char → Option (Opening × List Char)
  | ':' :: rest => if seen.head? = some '-' then none else some (.group m, rest)
  | ')' :: rest => if seen.isEmpty || seen.head? = some '-' then none else some (.flags m, rest)
  | c :: rest =>
    if seen.contains c then none
    else if c = '-' then flags? m false (c :: seen) rest
    else match m.set on c with
      | some m => flags? m on (c :: seen) rest
      | none => none
  | [] => none

/-- Whether a group may have a name. -/
def isGroupName (cs : List Char) : Bool :=
  match cs with
  | c :: rest =>
    (c == '_' || (Text.isWordChar c && !Text.isDigit c)) &&
      rest.all fun c => Text.isWordChar c || "_.[]".toList.contains c
  | [] => false

def groupName? (m : Modes) (cs : List Char) : Option (Opening × List Char) :=
  match cs.dropWhile (· ≠ '>') with
  | _ :: rest => if isGroupName (cs.takeWhile (· ≠ '>')) then some (.group m, rest) else none
  | [] => none

/-- Reads on behind an opening parenthesis. -/
def opening? (m : Modes) : List Char → Option (Opening × List Char)
  | '?' :: 'P' :: '<' :: rest => groupName? m rest
  | '?' :: '<' :: '=' :: _ => none
  | '?' :: '<' :: '!' :: _ => none
  | '?' :: '<' :: rest => groupName? m rest
  | '?' :: rest => flags? m true [] rest
  | cs => some (.group m, cs)

/-! ## Whole patterns -/

def ofAtom (m : Modes) : Atom → Pattern
  | .char c => one (folded m (.single c))
  | .set s => one s
  | .anchor a => place a

/-- The items of a sequence, newest first; flags are items without a pattern. -/
def sequence (items : List (Option Pattern)) : Pattern :=
  match items.filterMap id with
  | [] => empty
  | last :: before => before.foldl (fun p q => seq q p) last

/-- The alternatives of a group, newest first. -/
def choice : List Pattern → Pattern
  | [] => empty
  | last :: before => before.foldl (fun p q => alt q p) last

def repeated (mark : Char) (greedy : Bool) (p : Pattern) : Pattern :=
  if mark = '?' then optional greedy p
  else if mark = '*' then many greedy p
  else seq p (many greedy p)

def plain? (m : Modes) : List Char → Option (Pattern × List Char)
  | '.' :: rest =>
    if m.ascii then none
    else if m.dotAll then some (one .all, rest)
    else if m.returns then some (one (CharSet.ofRanges [('\n', '\n'), ('\r', '\r')]).not, rest)
    else some (one (CharSet.single '\n').not, rest)
  | '^' :: rest => some (place (if m.multiline then .lineStart m.returns else .textStart), rest)
  | '$' :: rest => some (place (if m.multiline then .lineEnd m.returns else .textEnd), rest)
  | '\\' :: rest => (escape? m rest).map fun (a, rest) => (ofAtom m a, rest)
  | c :: rest => some (ofAtom m (.char c), rest)
  | [] => none

/-- Reads up to the end of a group, with the alternatives in front and the items of this one so
far. -/
def group (m : Modes) (before : List Pattern) (items : List (Option Pattern)) :
    Nat → List Char → Option (Pattern × List Char)
  | 0, _ => none
  | fuel + 1, cs =>
    match skip m cs with
    | [] => some (choice (sequence items :: before), [])
    | ')' :: rest => some (choice (sequence items :: before), ')' :: rest)
    | '|' :: rest => group m (sequence items :: before) [] fuel rest
    | '(' :: rest => do
      match ← opening? m (skip m rest) with
      | (.flags m, rest) => group m before (none :: items) fuel rest
      | (.group inner, rest) =>
        match ← group inner [] [] fuel rest with
        | (p, ')' :: rest) => group m before (some p :: items) fuel rest
        | _ => none
    | '[' :: rest => do
      let (negated, s, rest) := openSet m rest
      let (s, rest) ← setRest m negated none s fuel rest
      group m before (some (one s) :: items) fuel rest
    | '{' :: _ => none
    | c :: rest =>
      if c == '?' || c == '*' || c == '+' then
        match items with
        | some p :: items =>
          let (lazy, rest) : Bool × List Char := match rest with
            | '?' :: rest => (true, rest)
            | rest => (false, rest)
          group m before (some (repeated c (lazy == m.swapped) p) :: items) fuel rest
        | _ => none
      else do
        let (p, rest) ← plain? m (c :: rest)
        group m before (some p :: items) fuel rest

def ofText? (text : String) : Option Pattern :=
  let cs := text.toList
  match group {} [] [] (cs.length + 1) cs with
  | some (p, []) => some p
  | _ => none

end Screening.Pattern
