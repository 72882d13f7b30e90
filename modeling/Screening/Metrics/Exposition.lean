import Screening.Metrics.Ledger
import Screening.Number.Shortest

/-!
# The ledger as text

Each family of figures is a list of samples `name{label="value",…} figure`, preceded by a line on
what it means, where that has been said, and one on its kind, and followed by a blank line.  A
family without a sample is left out.  Counters come before summaries; beyond that the order of the
families, and of the labels in one, means nothing.

A summary has, for each label, some quantiles of the durations besides their sum and their number.
The quantiles are estimated from the durations of the last minutes, and how that is done is not laid
down: the estimate is given from outside.  Where none is given it is zero, as it is when the last
duration lies far enough back.

In a label value the quote, the backslash and the line break are written with a backslash in front.
A backslash that already stands in front of a quote or another backslash is taken for such an escape
and is not doubled.
-/

set_option autoImplicit false

namespace Screening.Metrics

/-- Writes out a label value; `held` says that a backslash has been read and not yet written. -/
def escapeFrom (held : Bool) : List Char → List Char
  | [] => if held then ['\\', '\\'] else []
  | '\n' :: rest => '\\' :: 'n' :: escapeFrom held rest
  | '"' :: rest => '\\' :: '"' :: escapeFrom false rest
  | '\\' :: rest => if held then '\\' :: '\\' :: escapeFrom false rest else escapeFrom true rest
  | c :: rest => (if held then ['\\', '\\'] else []) ++ c :: escapeFrom false rest

def escape (s : String) : String := String.ofList (escapeFrom false s.toList)

structure Sample where
  name : String
  labels : List (String × String)
  figure : String

def Sample.toLine (s : Sample) : String :=
  let label (l : String × String) := l.1 ++ "=\"" ++ escape l.2 ++ "\""
  s.name ++ "\x7b" ++ ",".intercalate (s.labels.map label) ++ "\x7d " ++ s.figure

inductive Kind where
  | counter
  | summary

def Kind.name : Kind → String
  | counter => "counter"
  | summary => "summary"

structure Family where
  name : String
  kind : Kind
  meaning : Option String
  samples : List Sample

def natText (n : Nat) : String := String.ofList (Nat.toDigits 10 n)

def RequestLabels.pairs (l : RequestLabels) : List (String × String) :=
  [("method", l.method), ("path", l.path), ("status", natText l.status)]

def OperationLabels.pairs (l : OperationLabels) : List (String × String) :=
  [("operation", l.operation), ("outcome", l.outcome)]

def counter {κ : Type} (name : String) (meaning : Option String)
    (pairs : κ → List (String × String)) (t : Tally κ) : Family :=
  ⟨name, .counter, meaning, t.map fun (k, n) => ⟨name, pairs k, natText n⟩⟩

/-- The quantiles that a summary has. -/
def quantiles : List String := ["0", "0.5", "0.9", "0.95", "0.99", "0.999", "1"]

/-- What is taken for a quantile of the summary of a name and labels. -/
abbrev Estimate := String → List (String × String) → String → Real64

def noEstimate : Estimate := fun _ _ _ => .zero

/-- The samples that a summary has for one label. -/
def summarySamples (estimate : Estimate) (name : String) (labels : List (String × String))
    (s : Summary) : List Sample :=
  (quantiles.map fun q =>
    ⟨name, labels ++ [("quantile", q)], (estimate name labels q).toText⟩) ++
  [⟨name ++ "_sum", labels, s.sum.toText⟩, ⟨name ++ "_count", labels, natText s.count⟩]

def summary {κ : Type} (estimate : Estimate) (name : String) (meaning : Option String)
    (pairs : κ → List (String × String)) (t : Summaries κ) : Family :=
  ⟨name, .summary, meaning, t.flatMap fun (k, s) => summarySamples estimate name (pairs k) s⟩

/-- The lines of a family. -/
def Family.lines (f : Family) : List String :=
  (f.meaning.map fun meaning => "# HELP " ++ f.name ++ " " ++ meaning).toList ++
    ("# TYPE " ++ f.name ++ " " ++ f.kind.name) :: f.samples.map Sample.toLine ++ [""]

namespace Ledger

def families (l : Ledger) (estimate : Estimate := noEstimate) : List Family :=
  [counter "http_requests_total" "Total number of HTTP requests" RequestLabels.pairs l.requests,
   counter "rule_operations_total" "Total number of rule create/combine/evaluate operations"
     OperationLabels.pairs l.operations,
   counter "service_starts_total" none (fun service => [("service", service)]) l.starts,
   summary estimate "http_request_duration_seconds" "HTTP request duration in seconds"
     RequestLabels.pairs l.requestTimes,
   summary estimate "rule_operation_duration_seconds" "Rule operation duration in seconds"
     (fun operation => [("operation", operation)]) l.operationTimes]

def samples (l : Ledger) (estimate : Estimate := noEstimate) : List Sample :=
  (l.families estimate).flatMap Family.samples

/-- The lines of the text, given what the quantiles are estimated at. -/
def exposition (l : Ledger) (estimate : Estimate := noEstimate) : List String :=
  ((l.families estimate).filter fun f => !f.samples.isEmpty).flatMap Family.lines

end Ledger

end Screening.Metrics
