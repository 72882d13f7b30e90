import Screening.Log.Directive

/-!
# Which lines are written

A filter is a list of directives with commas between them.  Two kinds of questions are put to it,
and each has directives of its own.

* What may be written anywhere?  The general directives answer, and the first one that fits decides:
  they are kept so that more specific ones come first.
* What may be written while certain spans last?  The narrow directives answer.  A span that one of
  them describes is always there, and while it lasts what it contains may be as chatty as the
  directives say that describe it to the last value.

Of two directives on the same thing the later one stays.  A directive that names a field but no
value is both general and narrow, and the filter has it twice when it is written out.
-/

set_option autoImplicit false

namespace Screening.Log

/-- A filter has its directives in the order in which they are given. -/
structure Filter where
  given : List Directive
  deriving DecidableEq

namespace Filter

def insert (d : Directive) : List Directive → List Directive
  | [] => [d]
  | e :: es =>
    match d.order e with
    | .eq => d :: es
    | .gt => d :: e :: es
    | .lt => e :: insert d es

/-- The directives, more specific ones first, without those that later ones replace. -/
def sorted (ds : List Directive) : List Directive := ds.foldl (fun es d => insert d es) []

def narrow (f : Filter) : List Directive := f.given.filter (·.isNarrow)

def general (f : Filter) : List Directive :=
  f.given.filter (!·.isNarrow) ++ f.narrow.filter (·.isGeneral)

def only (l : Level) : Filter := ⟨[{ threshold := some l }]⟩

/-- Reads a filter; nothing between commas is passed over. -/
def ofText? (text : String) : Option Filter := do
  let pieces := (text.toList.splitOn ',').filter (· ≠ [])
  return ⟨← pieces.mapM fun cs => Directive.ofText? (String.ofList cs)⟩

def toText (f : Filter) : String :=
  ",".intercalate ((sorted f.general ++ sorted f.narrow).map Directive.toText)

/-- The first of two texts that reads as a filter; where neither does, everything from information
on is written. -/
def choose (override? : Option String) (level : String) : Filter :=
  match override?.bind ofText? with
  | some f => f
  | none => (ofText? level).getD (only .info)

/-! ## What is let through -/

/-- The most chatty level that a filter may ever let through; as long as values of fields are not
known, anything may turn out to be wanted. -/
def ceiling (f : Filter) : Threshold :=
  if f.narrow.any fun d => d.field.any (·.value.isSome) then some .trace
  else Threshold.highest (f.given.map Directive.threshold)

/-- What the general directives say. -/
def admitsAnywhere (f : Filter) (l : Level) (fits : Directive → Bool) : Bool :=
  ((sorted f.general).find? fits).any fun d => Threshold.admits d.threshold l

/-- What the narrow directives say, given what the spans allow that last. -/
def admitsWithin (f : Filter) (lasting : List Threshold) (l : Level) : Bool :=
  Threshold.admits (Threshold.highest (f.narrow.map Directive.threshold)) l &&
    lasting.any (Threshold.admits · l)

def admitsEvent (f : Filter) (lasting : List Threshold) (e : Event) : Bool :=
  Threshold.admits f.ceiling e.level &&
    (f.admitsAnywhere e.level (fun d => d.fitsTarget e.target && d.fitsField e.fieldNames) ||
      f.admitsWithin lasting e.level)

/-- The narrow directives that describe a span, whatever the values of its fields. -/
def describing (f : Filter) (s : Span) : List Directive :=
  (sorted f.narrow).filter fun d =>
    d.fitsTarget s.target && d.span.all (· = s.name) && d.fitsField s.fieldNames

/-- Whether a span has the field and the value of a test from the start. -/
def passes (s : Span) (t : FieldTest) : Bool :=
  t.value.all fun v => s.fields.any fun (name, value) => name = t.name && v.fits value

def admitsSpan (f : Filter) (lasting : List Threshold) (s : Span) : Bool :=
  Threshold.admits f.ceiling s.level &&
    (!(f.describing s).isEmpty || f.admitsAnywhere s.level (·.fitsTarget s.target) ||
      f.admitsWithin lasting s.level)

/-- What a span allows while it lasts; nothing is said of a span that no directive describes. -/
def allowance? (f : Filter) (s : Span) : Option Threshold :=
  match f.describing s with
  | [] => none
  | ds =>
    some <| Threshold.highest <| (ds.filter fun d => d.field.all (passes s)).map Directive.threshold

end Filter

end Screening.Log
