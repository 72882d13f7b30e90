/-!
# What a run leaves in the log

Work is reported by events, which happen at a moment, and by spans, which last while other things
happen inside of them.  An `Activity` is one or the other, so what a piece of work reports is a tree
whose order is the order in time.  Some fields of a span are known only when it closes; its activity
has them as `late`, as far as they are kept.

Nothing here says how a line looks or which lines are written at all; that is the business of
`Screening.Log.Filter` and `Screening.Log.Line`.
-/

set_option autoImplicit false

namespace Screening.Log

inductive Level where
  | error
  | warn
  | info
  | debug
  | trace
  deriving DecidableEq

def Level.name : Level → String
  | error => "ERROR"
  | warn => "WARN"
  | info => "INFO"
  | debug => "DEBUG"
  | trace => "TRACE"

/-- How chatty a level is: the less urgent, the greater. -/
def Level.rank : Level → Nat
  | error => 1
  | warn => 2
  | info => 3
  | debug => 4
  | trace => 5

/-- The value of a field.  A `quoted` text shows where it begins and ends; a `bare` one does
not. -/
inductive FieldValue where
  | count (n : Nat)
  | flag (b : Bool)
  | quoted (s : String)
  | bare (s : String)
  deriving DecidableEq

abbrev Fields := List (String × FieldValue)

structure Event where
  level : Level
  target : String
  message : String
  fields : Fields
  deriving DecidableEq

/-- The names of an event's fields, among which its message counts as one. -/
def Event.fieldNames (e : Event) : List String := "message" :: e.fields.map Prod.fst

/-- A span; `awaited` are the names of the fields that it does not have from the start. -/
structure Span where
  level : Level
  target : String
  name : String
  fields : Fields
  awaited : List String := []
  deriving DecidableEq

def Span.fieldNames (s : Span) : List String := s.fields.map Prod.fst ++ s.awaited

inductive Activity where
  | event (e : Event)
  | span (s : Span) (late : Fields) (inside : List Activity)

mutual

/-- The events in order of time. -/
def Activity.events : Activity → List Event
  | .event e => [e]
  | .span _ _ inside => eventsOf inside

def eventsOf : List Activity → List Event
  | [] => []
  | a :: rest => a.events ++ eventsOf rest

end

end Screening.Log
