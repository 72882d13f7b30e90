import Screening.Http.Service
import Screening.Log.Line
import Screening.Metrics.Exposition
import Screening.Settings.Basic

/-!
# The running service and what can be seen of it

Starting to watch the service gives it a logger and, if that is wanted, a ledger with a server that
shows it.  The logger and the ledger are for good.  The server stops when the guard that comes with
it is dropped, which ends the watch.

Setting up takes several steps, each of which can fail, and a failure undoes nothing of the steps
before it.  The logger comes first, and as there is never a second one, an attempt to begin again
fails before it has changed anything (`Daemon.watch_of_logger`).

Before it is watched the service works as well as after; it just leaves no trace.
-/

set_option autoImplicit false

namespace Screening

open Http (Circumstances Exchange Request Response)
open Log (Activity Line Logger)
open Metrics (Estimate Ledger)

/-- What stops when the watch ends: the server of the figures, if there is one. -/
structure Guard where
  serving : Bool
  deriving DecidableEq

/-- The process; of its guards the newest comes first.  `threadOf` has the thread on which each line
of the log is written, by the number of the line, and stays as it is. -/
structure Daemon where
  logger : Option Logger := none
  ledger : Option Ledger := none
  guards : List Guard := []
  lines : List Line := []
  threadOf : Nat → Nat := fun _ => 1

/-- Why the watch does not begin. -/
inductive StartError where
  | hasLogger
  | hasLedger
  | portTaken
  deriving DecidableEq

/-- A part of setting up.  What it has changed stays, even where it fails. -/
abbrev Setup (α : Type) := EStateM StartError Daemon α

namespace Daemon

/-- Writes what an activity leaves in the log. -/
def report (a : Activity) (p : Daemon) : Daemon :=
  match p.logger with
  | some l => { p with lines := l.write p.threadOf p.lines a }
  | none => p

def note (target message : String) (fields : Log.Fields) : Activity :=
  .event ⟨.info, target, message, fields⟩

def setupTarget : String := "rule_shared::observability"

def serverTarget : String := "rule_shared::observability::metrics"

/-- What tells that the watch has begun. -/
def started (o : Observability) : Activity :=
  note setupTarget "Observability initialized"
    [("service", .bare o.serviceName), ("metrics_enabled", .flag o.metricsEnabled),
     ("metrics_port", .count o.metricsPort.toNat)]

def listening (o : Observability) : Activity :=
  note serverTarget
    ("Metrics server listening on 0.0.0.0:" ++
      String.ofList (Numeral.digits o.metricsPort.toNat)) []

def shuttingDown : Activity := note setupTarget "Shutting down observability..." []

def loggerOf (override? : Option String) (o : Observability) : Logger :=
  ⟨Log.Filter.choose override? o.logLevel, if o.jsonLogs then .json else .text⟩

/-! ## Setting up -/

def setLogger (l : Logger) : Setup Unit := do
  if (← get).logger.isSome then throw .hasLogger
  modify fun p => { p with logger := some l }

def setLedger (l : Ledger) : Setup Unit := do
  if (← get).ledger.isSome then throw .hasLedger
  modify fun p => { p with ledger := some l }

/-- Begins to count, and has the figures shown at their port if it is free. -/
def startServer (free : UInt16 → Bool) (o : Observability) : Setup Unit := do
  setLedger {}
  modify fun p => { p with ledger := p.ledger.map (·.recordStart o.serviceName) }
  unless free o.metricsPort do throw .portTaken
  modify (report (listening o))

/-- Begins the watch; `override?` goes before the level that the settings ask for. -/
def watch (free : UInt16 → Bool) (override? : Option String) (o : Observability) : Setup Unit := do
  setLogger (loggerOf override? o)
  modify (report (started o))
  if o.metricsEnabled then startServer free o
  modify fun p => { p with guards := ⟨o.metricsEnabled⟩ :: p.guards }

/-- Begins the watch where every port is free. -/
def start (override? : Option String) (o : Observability) (p : Daemon) : Option Daemon :=
  match watch (fun _ => true) override? o p with
  | .ok _ q => some q
  | .error _ _ => none

/-! ## Running -/

/-- Drops the newest guard, if there is one.  The logger and the ledger stay. -/
def stop (p : Daemon) : Option Daemon :=
  match p.guards with
  | _ :: older => some { p.report shuttingDown with guards := older }
  | [] => none

/-- Serves a request: the exchange is reported and, where there is a ledger, counted. -/
def serve (c : Circumstances) (r : Request) (p : Daemon) : Exchange × Daemon :=
  let x := Exchange.of c.fresh r
  (x, { p with ledger := p.ledger.map (x.count c.times) }.report x.activity)

/-- What the server of the figures answers to a GET of a path. -/
def answer (path : String) (l : Ledger) (estimate : Estimate := Metrics.noEstimate) : Response :=
  if path = "/metrics" then .of 200 (.text (String.join ((l.exposition estimate).map (· ++ "\n"))))
  else if path = "/health" then .of 200 (.text "OK")
  else .of 404 .nothing

/-- The answer to a GET of a path, if there is a server. -/
def scrape (path : String) (p : Daemon) (estimate : Estimate := Metrics.noEstimate) :
    Option Response :=
  if p.guards.any (·.serving) then p.ledger.map (answer path · estimate) else none

/-! ## Once and no more -/

theorem watch_of_logger (free : UInt16 → Bool) (override? : Option String) (o : Observability)
    {p : Daemon} {l : Logger} (h : p.logger = some l) :
    watch free override? o p = .error .hasLogger p := by
  obtain ⟨logger, ledger, guards, lines, threadOf⟩ := p
  obtain rfl : logger = some l := h
  rfl

theorem bind_of_ok {α β : Type} {x : Setup α} {f : α → Setup β} {a : α} {p q : Daemon}
    (h : x p = .ok a q) : (x >>= f) p = f a q := by
  show EStateM.bind x f p = f a q
  rw [EStateM.bind, h]

theorem startServer_of_free {free : UInt16 → Bool} {o : Observability} {p : Daemon}
    (h : free o.metricsPort = true) (hledger : p.ledger = none) :
    startServer free o p = .ok ()
      (report (listening o) { p with ledger := some (Ledger.recordStart o.serviceName {}) }) := by
  obtain ⟨logger, ledger, guards, lines, threadOf⟩ := p
  obtain rfl : ledger = none := hledger
  simp only [startServer, h, if_true]
  rfl

section New

variable {free : UInt16 → Bool} (override? : Option String) {o : Observability}
  (threadOf : Nat → Nat)

/-- Where nothing has been set up before, the watch begins if its port is free. -/
theorem watch_of_new (h : o.metricsEnabled = true → free o.metricsPort = true) :
    watch free override? o { threadOf } = .ok () {
      logger := some (loggerOf override? o)
      ledger := if o.metricsEnabled then some (Ledger.recordStart o.serviceName {}) else none
      guards := [⟨o.metricsEnabled⟩]
      lines := (started o :: if o.metricsEnabled then [listening o] else []).foldl
        ((loggerOf override? o).write threadOf) []
      threadOf } := by
  cases henabled : o.metricsEnabled with
  | false =>
    simp only [watch, henabled, Bool.false_eq_true, if_false, List.foldl_cons, List.foldl_nil]
    rfl
  | true =>
    simp only [watch, henabled, if_true, List.foldl_cons, List.foldl_nil]
    refine (bind_of_ok rfl).trans <| (bind_of_ok rfl).trans <|
      (bind_of_ok (startServer_of_free (h henabled) rfl)).trans ?_
    rfl

/-- Where the port is taken the watch does not begin, but logger and ledger are there, and with them
the reason why no other attempt will succeed. -/
theorem watch_of_taken (henabled : o.metricsEnabled = true) (h : free o.metricsPort = false) :
    watch free override? o { threadOf } = .error .portTaken {
      logger := some (loggerOf override? o)
      ledger := some (Ledger.recordStart o.serviceName {})
      lines := (loggerOf override? o).write threadOf [] (started o)
      threadOf } := by
  simp only [watch, startServer, henabled, h, if_true]
  rfl

end New

end Daemon

end Screening
