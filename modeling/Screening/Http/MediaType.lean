/-!
# Media types

A media type is two tokens with a slash between them, then parameters.  Reading one here answers a
single question: whether it is a kind of JSON, that is `application/json`, or an `application` type
whose name ends in `+json`.  A text that is no media type at all is none.

Parameters are checked for their form alone: `name=value` with a token or a quoted text as the
value, separated by semicolons, blanks allowed in front of a name.
-/

set_option autoImplicit false

namespace Screening.Http

structure MediaType where
  type : String
  subtype : String
  deriving DecidableEq

namespace MediaType

def isTokenChar (c : Char) : Bool :=
  c.isAlphanum || "!#$%&'*+-.^_\x60|~".toList.contains c

def isQuotable (c : Char) : Bool := 31 < c.toNat && c.toNat != 127

/-- How far a list of parameters has been read.  A quoted value holds at least one character, which
may be a quote. -/
inductive Place where
  | start
  | name
  | valueStart
  | value
  | quotedStart
  | quoted
  | afterQuoted

def Place.next? : Place → Char → Option Place
  | start, c => if c = ' ' then some start else if isTokenChar c then some name else none
  | name, c => if c = '=' then some valueStart else if isTokenChar c then some name else none
  | valueStart, c =>
    if c = '"' then some quotedStart else if isTokenChar c then some value else none
  | value, c => if c = ';' then some start else if isTokenChar c then some value else none
  | quotedStart, c => if isQuotable c then some quoted else none
  | quoted, c => if c = '"' then some afterQuoted else if isQuotable c then some quoted else none
  | afterQuoted, c => if c = ';' then some start else if c = ' ' then some afterQuoted else none

/-- Whether parameters may end here. -/
def Place.closed : Place → Bool
  | start => true
  | valueStart => true
  | value => true
  | afterQuoted => true
  | _ => false

def parametersOk (cs : List Char) : Bool :=
  match cs.foldlM Place.next? .start with
  | some p => p.closed
  | none => false

def ofText? (text : List Char) : Option MediaType :=
  match text.dropWhile isTokenChar with
  | '/' :: rest =>
    let type := text.takeWhile isTokenChar
    let subtype := rest.takeWhile isTokenChar
    let ends : Bool := match rest.dropWhile isTokenChar with
      | [] => true
      | c :: parameters => c == ';' && parametersOk parameters
    if type.isEmpty || subtype.isEmpty || !ends then none
    else some ⟨(String.ofList type).toLower, (String.ofList subtype).toLower⟩
  | _ => none

/-- The name in front of the last plus sign and the suffix behind it; a plus sign at the start
belongs to the name. -/
def split (m : MediaType) : String × Option String :=
  let reversed := m.subtype.toList.reverse
  let suffix := reversed.takeWhile (· ≠ '+')
  match reversed.dropWhile (· ≠ '+') with
  | '+' :: c :: name =>
    (String.ofList (c :: name).reverse, some (String.ofList suffix.reverse))
  | _ => (m.subtype, none)

def isJson (m : MediaType) : Bool :=
  let (name, suffix) := m.split
  m.type = "application" && (name = "json" || suffix = some "json")

end MediaType

/-- A header value as text, if it holds nothing but visible ASCII characters, blanks and tabs. -/
def headerText? (value : List UInt8) : Option String :=
  if value.all fun b => (32 ≤ b && b < 127) || b == 9 then
    some (String.ofList (value.map fun b => Char.ofNat b.toNat))
  else none

/-- A visible ASCII character, a blank or a tab. -/
def Visible (b : UInt8) : Prop := 32 ≤ b.toNat ∧ b.toNat < 127 ∨ b.toNat = 9

theorem headerText?_eq_some_iff {value : List UInt8} {text : String} :
    headerText? value = some text ↔
      (∀ b ∈ value, Visible b) ∧ String.ofList (value.map fun b => Char.ofNat b.toNat) = text := by
  have hvisible : (value.all fun b => (32 ≤ b && b < 127) || b == 9) = true ↔
      ∀ b ∈ value, Visible b := by
    simp [Visible, UInt8.le_iff_toNat_le, UInt8.lt_iff_toNat_lt, ← UInt8.toNat_inj]
  rw [headerText?]
  split
  · rename_i h
    rw [Option.some.injEq, and_iff_right (hvisible.1 h)]
  · rename_i h
    exact iff_of_false (by simp) fun hv => h (hvisible.2 hv.1)

end Screening.Http
