import Screening.Json.Value
import Screening.Log.Filter
import Screening.Numeral
import Screening.Text.Quoted

/-!
# The lines of the log

What a filter lets through becomes entries: events, and spans when they close, each with the spans
round it.  A span that the filter holds back is as good as not there, and its contents belong to the
spans further out.  What a span allows is at the filter's disposal as long as the span lasts.

An entry is written as text or as JSON.  Text is for reading, and only events are written; in JSON
the close of a span is an entry as well, and every entry tells which thread wrote it.  Work may go
on on another thread at any time, so that is not settled by the activity, and the threads of the
lines are given from outside.  Time stamps and the times that spans take are left to whoever keeps
the log.
-/

set_option autoImplicit false

namespace Screening.Log

open Json (Value)

/-- Something to be written; `around` are the spans round it from the outside in. -/
inductive Entry where
  | event (around : List Span) (e : Event)
  | closed (around : List Span) (s : Span)

mutual

/-- The entries of an activity, given the spans round it and what they allow; a span closes with all
of its fields. -/
def Activity.entries (f : Filter) (around : List Span) (lasting : List Threshold) :
    Activity → List Entry
  | .event e => if f.admitsEvent lasting e then [.event around e] else []
  | .span s late inside =>
    if f.admitsSpan lasting s then
      entriesOf f (around ++ [s]) (lasting ++ (f.allowance? s).toList) inside ++
        [.closed around { s with fields := s.fields ++ late }]
    else entriesOf f around lasting inside

def entriesOf (f : Filter) (around : List Span) (lasting : List Threshold) :
    List Activity → List Entry
  | [] => []
  | a :: rest => a.entries f around lasting ++ entriesOf f around lasting rest

end

/-! ## As text -/

def FieldValue.toText : FieldValue → String
  | count n => String.ofList (Numeral.digits n)
  | flag b => if b then "true" else "false"
  | quoted s => Text.quote s
  | bare s => s

def fieldText (field : String × FieldValue) : String := field.1 ++ "=" ++ field.2.toText

def Span.toText (s : Span) : String :=
  if s.fields.isEmpty then s.name
  else s.name ++ "\x7b" ++ " ".intercalate (s.fields.map fieldText) ++ "\x7d"

def Event.toText (around : List Span) (e : Event) : String :=
  let spans := if around.isEmpty then "" else ":".intercalate (around.map Span.toText) ++ ": "
  e.level.name ++ " " ++ spans ++ e.target ++ ": " ++
    " ".intercalate (e.message :: e.fields.map fieldText)

/-! ## As JSON -/

def FieldValue.toJson : FieldValue → Value
  | count n => .ofNat n
  | flag b => .bool b
  | quoted s => .string s
  | bare s => .string s

def fieldMembers (fields : Fields) : List (String × Value) := fields.map fun (k, v) => (k, v.toJson)

def Span.toJson (s : Span) : Value := .object (fieldMembers s.fields ++ [("name", .string s.name)])

def threadText (thread : Nat) : String :=
  "ThreadId(" ++ String.ofList (Numeral.digits thread) ++ ")"

/-- The members that every entry has. -/
def entryMembers (thread : Nat) (l : Level) (target message : String) (fields : Fields) :
    List (String × Value) :=
  [("level", .string l.name),
   ("fields", .object (("message", .string message) :: fieldMembers fields)),
   ("target", .string target), ("threadId", .string (threadText thread))]

/-- An entry tells of the innermost span and of all the spans that it lies in, unless it lies in
none; a span that closes is itself the innermost and does not lie in itself. -/
def Entry.toJson (thread : Nat) : Entry → Value
  | event around e =>
    let spans := match around.getLast? with
      | some s => [("span", s.toJson), ("spans", .array (around.map Span.toJson))]
      | none => []
    .object (entryMembers thread e.level e.target e.message e.fields ++ spans)
  | closed around s =>
    .object (entryMembers thread s.level s.target "close" [] ++
      [("span", s.toJson), ("spans", .array (around.map Span.toJson))])

/-! ## Both -/

inductive Format where
  | text
  | json
  deriving DecidableEq

inductive Line where
  | text (s : String)
  | json (v : Value)

def Line.format : Line → Format
  | text _ => .text
  | json _ => .json

/-- The line that an entry makes on a thread, if it makes one. -/
def Entry.line? (thread : Nat) : Format → Entry → Option Line
  | .text, event around e => some (.text (e.toText around))
  | .text, closed _ _ => none
  | .json, e => some (.json (e.toJson thread))

/-- What decides on the lines of a process. -/
structure Logger where
  filter : Filter
  format : Format
  deriving DecidableEq

/-- Writes an entry behind the lines that are there; `threadOf` has the thread of every line by its
number. -/
def Logger.add (l : Logger) (threadOf : Nat → Nat) (lines : List Line) (e : Entry) : List Line :=
  lines ++ (e.line? (threadOf lines.length) l.format).toList

/-- Writes the entries of an activity. -/
def Logger.write (l : Logger) (threadOf : Nat → Nat) (lines : List Line) (a : Activity) :
    List Line :=
  (a.entries l.filter [] []).foldl (l.add threadOf) lines

end Screening.Log
