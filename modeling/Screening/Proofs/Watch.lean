import Screening.Daemon
import Screening.Proofs.Bookkeeping
import Screening.Proofs.Figures

/-!
# Watching once

Whatever happens to a process, in whatever order, the first attempt to watch it succeeds and none
after that (`watch_first_and_only`).

Up to the first attempt nothing leaves a trace, so the process that is going to be watched is a new
one (`run_of_unwatched`).  From then on there is a logger, and `run_of_logger` gives the whole state
after any number of steps in terms of the steps alone: the logger is the first one, the ledger has
counted the requests and nothing else, every step that drops a guard takes one off, and the log
holds the activities one behind the other.  An attempt to begin again is a step that occurs in none
of these.

What can be seen of the state from outside is put together in `Watched`.

* The logger does what the first settings ask: `Log.Logger.Obeys` says for each of them what it
  comes to, and there is just one logger like that (`Log.obeys_iff`).  So every line is of the
  format that they ask for, and what is held back is held back by their level or by the text that
  goes before it.
* The server of the figures answers until the guard is dropped.  Of the text that it shows only so
  much is said as is settled: it comes in lines, and the one line about the number of starts names
  the first service and says that there has been one.  What other figures come to is up to an
  estimate that is given from outside, and none of this depends on it.

The threads that lines are written on are not settled either, and are given from outside for a whole
run at once.
-/

set_option autoImplicit false

namespace Screening.Log

/-! ## The logger -/

/-- What the settings ask of a logger, and the text that goes before them if it reads as a
filter. -/
structure Logger.Obeys (override? : Option String) (o : Observability) (l : Logger) : Prop where
  /-- Lines are JSON if the settings ask for that, and texts otherwise. -/
  format : l.format = if o.jsonLogs then .json else .text
  /-- A text that goes before the settings is the filter if it reads as one. -/
  override : ∀ text f, override? = some text → Filter.ofText? text = some f → l.filter = f
  /-- Otherwise the level in the settings is the filter, if it reads as one. -/
  level : (∀ text, override? = some text → Filter.ofText? text = none) →
    ∀ f, Filter.ofText? o.logLevel = some f → l.filter = f
  /-- If neither does, everything from information on is written. -/
  neither : (∀ text, override? = some text → Filter.ofText? text = none) →
    Filter.ofText? o.logLevel = none → l.filter = ⟨[{ threshold := some .info }]⟩

/-- There is one logger that does what is asked of it. -/
theorem obeys_iff {override? : Option String} {o : Observability} {l : Logger} :
    l.Obeys override? o ↔ l = Daemon.loggerOf override? o := by
  obtain ⟨filter, format⟩ := l
  rw [Daemon.loggerOf, Filter.choose, Logger.mk.injEq]
  cases hoverride : override?.bind Filter.ofText? with
  | some f =>
    obtain ⟨text, htext, hf⟩ := Option.bind_eq_some_iff.1 hoverride
    -- Here the text that goes before the settings reads as a filter, so the other two cases do not
    -- arise.
    have hnot : ¬ ∀ text, override? = some text → Filter.ofText? text = none := fun h =>
      Option.some_ne_none f (hf.symm.trans (h text htext))
    constructor
    · exact fun h => ⟨h.override text f htext hf, h.format⟩
    · rintro ⟨rfl, rfl⟩
      refine ⟨rfl, fun text' f' htext' hf' => ?_, fun h => absurd h hnot, fun h => absurd h hnot⟩
      obtain rfl := Option.some.inj (htext.symm.trans htext')
      exact Option.some.inj (hf.symm.trans hf')
  | none =>
    have hnone := Option.bind_eq_none_iff.1 hoverride
    constructor
    · intro h
      refine ⟨?_, h.format⟩
      cases hlevel : Filter.ofText? o.logLevel with
      | some f => exact h.level hnone f hlevel
      | none => exact h.neither hnone hlevel
    · rintro ⟨rfl, rfl⟩
      refine ⟨rfl, fun text f htext hf => ?_, fun _ f hf => by rw [hf]; rfl,
        fun _ hlevel => by rw [hlevel]; rfl⟩
      exact absurd (hf.symm.trans (hnone text htext)) (Option.some_ne_none f)

/-- A line is of the format that it is written in. -/
theorem format_of_line? {e : Entry} {thread : Nat} {format : Format} {line : Line}
    (h : e.line? thread format = some line) : line.format = format := by
  cases format <;> cases e <;> cases h <;> rfl

section Format

variable {l : Logger} (threadOf : Nat → Nat) {lines : List Line}
  (h : ∀ line ∈ lines, line.format = l.format)

include h

/-- A logger has one format for all of its lines. -/
theorem format_write (a : Activity) :
    ∀ line ∈ l.write threadOf lines a, line.format = l.format := by
  rw [Logger.write]
  generalize a.entries l.filter [] [] = entries
  induction entries generalizing lines with
  | nil => exact h
  | cons e rest ih =>
    refine ih fun line hline => ?_
    obtain hline | hline := List.mem_append.1 hline
    · exact h line hline
    · exact format_of_line? (Option.mem_toList.1 hline)

theorem format_foldl_write (as : List Activity) :
    ∀ line ∈ as.foldl (l.write threadOf) lines, line.format = l.format := by
  induction as generalizing lines with
  | nil => exact h
  | cons a rest ih => exact ih (format_write threadOf h a)

end Format

end Screening.Log

namespace Screening.Daemon

open Http (Circumstances Exchange Request)
open Log (Activity Line Logger)
open Metrics (Begins Ledger OneLine Sample)

/-! ## Steps

A process may be watched, a guard may be dropped, an operation may be carried out and a request may
be served.  A step that cannot be made leaves the process as it is. -/

/-- What may happen to a process; of an operation nothing but its activity matters here. -/
inductive Step where
  | start (override? : Option String) (o : Observability)
  | stop
  | operate (a : Activity)
  | serve (c : Circumstances) (r : Request)

namespace Step

@[simp] def isStart : Step → Bool
  | start _ _ => true
  | _ => false

@[simp] def isStop : Step → Bool
  | stop => true
  | _ => false

/-- The request that a step serves. -/
@[simp] def request? : Step → Option (Circumstances × Request)
  | serve c r => some (c, r)
  | _ => none

/-- What a step leaves in the log of a process that has a logger, given the number of its guards. -/
@[simp] def activity? (guards : Nat) : Step → Option Activity
  | start _ _ => none
  | stop => if guards = 0 then none else some shuttingDown
  | operate a => some a
  | serve c r => some (Exchange.of c.fresh r).activity

end Step

variable (free : UInt16 → Bool)

/-- The process after a step.  A step that fails may have changed it all the same. -/
def after (p : Daemon) : Step → Daemon
  | .start override? o =>
    match watch free override? o p with
    | .ok _ q => q
    | .error _ q => q
  | .stop => p.stop.getD p
  | .operate a => p.report a
  | .serve c r => (p.serve c r).2

def run (p : Daemon) (steps : List Step) : Daemon := steps.foldl (after free) p

/-- The activities that steps leave in the log, given the number of guards. -/
def activities (guards : Nat) : List Step → List Activity
  | [] => []
  | s :: rest => (s.activity? guards).toList ++ activities (guards - if s.isStop then 1 else 0) rest

section Runs

variable (threadOf : Nat → Nat)

/-! ## Before the first attempt -/

/-- Nothing but an attempt to watch it changes a process that is not watched. -/
theorem after_of_unwatched {s : Step} (h : s.isStart = false) :
    after free { threadOf } s = { threadOf } := by
  cases s with
  | start override? o => cases h
  | stop => rfl
  | operate a => rfl
  | serve c r => rfl

/-- As long as there has been no attempt the process is as new. -/
theorem run_of_unwatched {steps : List Step} (h : ∀ s ∈ steps, s.isStart = false) :
    run free { threadOf } steps = { threadOf } := by
  induction steps with
  | nil => rfl
  | cons s rest ih =>
    obtain ⟨hs, hrest⟩ := List.forall_mem_cons.1 h
    rw [run, List.foldl_cons, after_of_unwatched free threadOf hs]
    exact ih hrest

/-! ## After the first attempt -/

/-- A step of a process that has a logger. -/
theorem after_of_logger (l : Logger) (ledger : Option Ledger) (guards : List Guard)
    (lines : List Line) (s : Step) :
    after free ⟨some l, ledger, guards, lines, threadOf⟩ s =
      ⟨some l, ledger.map fun figures => (Http.serve figures s.request?.toList).2,
        guards.drop (if s.isStop then 1 else 0),
        (s.activity? guards.length).toList.foldl (l.write threadOf) lines, threadOf⟩ := by
  cases s with
  | start override? o =>
    rw [after, watch_of_logger free override? o rfl]
    simp [Http.serve]
  | stop => cases guards <;> simp [after, stop, report, Http.serve]
  | operate a => simp [after, report, Http.serve]
  | serve c r => simp [after, serve, report, Http.serve]

/-- Any number of steps of a process that has a logger.  The induction is on the steps; what has
been counted and written so far is carried along. -/
theorem run_of_logger (l : Logger) (ledger : Option Ledger) (guards : List Guard)
    (lines : List Line) (steps : List Step) :
    run free ⟨some l, ledger, guards, lines, threadOf⟩ steps =
      ⟨some l, ledger.map fun figures => (Http.serve figures (steps.filterMap Step.request?)).2,
        guards.drop (steps.countP Step.isStop),
        (activities guards.length steps).foldl (l.write threadOf) lines, threadOf⟩ := by
  induction steps generalizing ledger guards lines with
  | nil => simp [run, activities, Http.serve]
  | cons s rest ih =>
    have hrequests : (s :: rest).filterMap Step.request?
        = s.request?.toList ++ rest.filterMap Step.request? := by
      cases s <;> rfl
    rw [run, List.foldl_cons, after_of_logger, ← run, ih, hrequests, List.countP_cons, activities,
      List.length_drop, List.foldl_append, List.drop_drop, Option.map_map,
      Nat.add_comm (List.countP _ _)]
    simp only [Function.comp_def, Http.serve_append]

end Runs

/-- Serving requests does not count as a start. -/
theorem starts_serve (l : Ledger) (requests : List (Circumstances × Request)) :
    (Http.serve l requests).2.starts = l.starts := by
  induction requests generalizing l with
  | nil => rfl
  | cons p rest ih =>
    rw [Http.serve_cons, ih, Exchange.count]
    cases (Exchange.of p.1.fresh p.2).operation <;> rfl

/-! ## The first attempt and the others

What `run_of_logger` says about the state is put in terms of what can be seen. -/

/-- The process is watched with some settings, and these steps have been made since. -/
structure Watched (threadOf : Nat → Nat) (override? : Option String) (o : Observability)
    (steps : List Step) (p : Daemon) : Prop where
  /-- There is a logger, it is the one that the first settings ask for, and it has written what the
  first attempt and the steps report. -/
  logs : ∃ l : Logger, l.Obeys override? o ∧ p.logger = some l ∧
    p.lines = (started o :: (if o.metricsEnabled then [listening o] else []) ++
      activities 1 steps).foldl (l.write threadOf) []
  /-- Every line is in the format of the first settings. -/
  format : ∀ line ∈ p.lines, line.format = if o.jsonLogs then .json else .text
  /-- There is one guard until one is dropped. -/
  guards : p.guards = if steps.any Step.isStop then [] else [⟨o.metricsEnabled⟩]
  /-- Without figures nothing is counted and nobody answers. -/
  unseen : o.metricsEnabled = false →
    p.ledger = none ∧ ∀ path estimate, p.scrape path estimate = none
  /-- With figures there is one start, and besides it the requests have been counted. -/
  counts : o.metricsEnabled = true → ∃ l, p.ledger = some l ∧
    l = (Http.serve (.recordStart o.serviceName {}) (steps.filterMap Step.request?)).2 ∧
    l.starts = [(o.serviceName, 1)]
  /-- The server answers, whatever it is asked for, until the guard is dropped. -/
  serves : o.metricsEnabled = true →
    ∀ path estimate, (p.scrape path estimate).isSome = !steps.any Step.isStop
  /-- Among the lines that it shows there is one about the number of starts. -/
  shows : ∀ estimate r, p.scrape "/metrics" estimate = some r → ∃ lines : List String,
    r = .of 200 (.text (String.join (lines.map (· ++ "\n")))) ∧
    (∀ line ∈ lines, OneLine line) ∧
    lines.filter (Begins "service_starts_total")
      = [Sample.toLine ⟨"service_starts_total", [("service", o.serviceName)], "1"⟩]

theorem drop_countP (g : Guard) (steps : List Step) :
    [g].drop (steps.countP Step.isStop) = if steps.any Step.isStop then [] else [g] := by
  by_cases h : steps.any Step.isStop = true
  · obtain ⟨s, hs, hstop⟩ := List.any_eq_true.1 h
    rw [if_pos h]
    exact List.drop_eq_nil_of_le (List.countP_pos_iff.2 ⟨s, hs, hstop⟩)
  · have hnone : steps.countP Step.isStop = 0 := by
      refine List.countP_eq_zero.2 fun s hs hstop => h ?_
      exact List.any_eq_true.2 ⟨s, hs, hstop⟩
    rw [if_neg h, hnone, List.drop_zero]

/-- What a server of the figures answers it has from the ledger. -/
theorem ledger_of_scrape {path : String} {p : Daemon} {estimate : Metrics.Estimate}
    {r : Http.Response} (h : p.scrape path estimate = some r) :
    ∃ l, p.ledger = some l ∧ answer path l estimate = r := by
  rw [scrape] at h
  split at h
  · exact Option.map_eq_some_iff.1 h
  · cases h

/-- The text at `/metrics` as long as there has been one start. -/
theorem answer_metrics {l : Ledger} {service : String} (h : l.starts = [(service, 1)])
    (estimate : Metrics.Estimate) :
    ∃ lines : List String,
      answer "/metrics" l estimate = .of 200 (.text (String.join (lines.map (· ++ "\n")))) ∧
      (∀ line ∈ lines, OneLine line) ∧
      lines.filter (Begins "service_starts_total")
        = [Sample.toLine ⟨"service_starts_total", [("service", service)], "1"⟩] := by
  refine ⟨l.exposition estimate, rfl, l.oneLine_exposition estimate, ?_⟩
  rw [l.filter_exposition, h]
  rfl

/-- A process that has just begun to be watched stays watched by the same settings, whatever the
steps. -/
theorem watched_run {free : UInt16 → Bool} {override? : Option String} {o : Observability}
    {threadOf : Nat → Nat} (hfree : o.metricsEnabled = true → free o.metricsPort = true)
    {q : Daemon} (hq : watch free override? o { threadOf } = .ok () q) (steps : List Step) :
    Watched threadOf override? o steps (run free q steps) := by
  rw [watch_of_new override? threadOf hfree] at hq
  cases hq
  -- The steps that come are those of a process with a logger, in which attempts to start change
  -- nothing.
  rw [run_of_logger, drop_countP]
  have hobeys : (loggerOf override? o).Obeys override? o := Log.obeys_iff.2 rfl
  have hstarts : (Http.serve (.recordStart o.serviceName {})
      (steps.filterMap Step.request?)).2.starts = [(o.serviceName, 1)] := starts_serve _ _
  refine ⟨⟨_, hobeys, rfl, List.foldl_append.symm⟩, ?_, rfl, fun hoff => ?_, fun hon => ?_,
    fun hon path estimate => ?_, fun estimate r hr => ?_⟩
  · rw [← hobeys.format]
    exact Log.format_foldl_write threadOf
      (Log.format_foldl_write threadOf (List.forall_mem_nil _) _) _
  · simp [scrape, hoff]
  · exact ⟨_, by rw [if_pos hon]; rfl, rfl, hstarts⟩
  · by_cases hstop : steps.any Step.isStop = true <;> simp [scrape, hon, hstop]
  · obtain ⟨l, hl, rfl⟩ := ledger_of_scrape hr
    obtain ⟨figures, hfigures, rfl⟩ := Option.map_eq_some_iff.1 hl
    split at hfigures
    · cases hfigures
      exact answer_metrics hstarts estimate
    · cases hfigures

/-- **The first attempt to watch a process is the only one that succeeds.**  It succeeds whatever
has happened before, if the port for the figures is free or not needed.  However things go on, a
later attempt fails and leaves everything as it is, whatever its settings and also when the guard
has been dropped.  The logger stays, with the filter and the format that the first settings ask for;
the log holds what the first attempt and the other steps report; what the ledger holds, if there is
one, are the first start and the requests since then; and the server of the figures answers until
the guard is dropped, if there is one at all, and shows one start. -/
theorem watch_first_and_only {free : UInt16 → Bool} {before : List Step}
    (threadOf : Nat → Nat) (override? : Option String) {o : Observability}
    (hbefore : ∀ s ∈ before, s.isStart = false)
    (hfree : o.metricsEnabled = true → free o.metricsPort = true) :
    ∃ q, watch free override? o (run free { threadOf } before) = .ok () q ∧ ∀ steps : List Step,
      Watched threadOf override? o steps (run free q steps) ∧
        ∀ free' override' o',
          watch free' override' o' (run free q steps) = .error .hasLogger (run free q steps) := by
  rw [run_of_unwatched free threadOf hbefore]
  refine ⟨_, watch_of_new override? threadOf hfree, fun steps => ?_⟩
  have hwatched := watched_run hfree (watch_of_new override? threadOf hfree) steps
  obtain ⟨l, -, hlogger, -⟩ := hwatched.logs
  exact ⟨hwatched, fun free' override' o' => watch_of_logger free' override' o' hlogger⟩

/-- A guard that is not there is dropped and a request is served before the first attempt, which
asks for a level that is none; the settings of the second one differ in everything.  So the lines
are texts, two of the first start and one of the guard that is dropped; a request that is served
makes no line of text, and there is none of the second attempt. -/
theorem watch_first_and_only_of_two_attempts :
    let r : Request := { method := "GET", target := "/health" }
    let c : Circumstances := ⟨⟨0, 0, 0⟩, ⟨default, default⟩⟩
    let o : Observability := { serviceName := "first", logLevel := "a=loud", metricsPort := 0 }
    let o' : Observability := ⟨"second", "debug", true, false, 80⟩
    let free : UInt16 → Bool := (· = 0)
    let before : List Step := [.stop, .serve c r]
    let steps : List Step := [.start (some "trace") o', .serve c r, .stop]
    (∀ s ∈ before, s.isStart = false) ∧ free o.metricsPort = true ∧
      ∃ q l, watch free none o (run free { threadOf := id } before) = .ok () q ∧
        (run free q steps).logger = some ⟨⟨[{ threshold := some .info }]⟩, .text⟩ ∧
        (run free q steps).lines = [
          .text ("INFO rule_shared::observability: Observability initialized " ++
            "service=first metrics_enabled=true metrics_port=0"),
          .text "INFO rule_shared::observability::metrics: Metrics server listening on 0.0.0.0:0",
          .text "INFO rule_shared::observability: Shutting down observability..."] ∧
        (run free q steps).ledger = some l ∧ l.starts = [("first", 1)] ∧
        l.requests.count ⟨"GET", "/health", 200⟩ = 1 ∧
        ((run free q (steps.take 2)).scrape "/health").isSome = true ∧
        (run free q steps).scrape "/health" = none := by
  intro r c o o' free before steps
  have hbefore : ∀ s ∈ before, s.isStart = false := by simp [before]
  have hfree : free o.metricsPort = true := rfl
  obtain ⟨q, hq, hsteps⟩ := watch_first_and_only id none hbefore fun _ => hfree
  have hwatched := (hsteps steps).1
  obtain ⟨logger, hobeys, hlogger, hlines⟩ := hwatched.logs
  obtain ⟨l, hl, hserved, hstarts⟩ := hwatched.counts rfl
  have hanswers := (hsteps (steps.take 2)).1.serves rfl "/health" Metrics.noEstimate
  have hsilent := hwatched.serves rfl "/health" Metrics.noEstimate
  have hlog : logger = ⟨⟨[{ threshold := some .info }]⟩, .text⟩ :=
    (Log.obeys_iff.1 hobeys).trans (by decide +kernel)
  refine ⟨hbefore, hfree, q, l, hq, hlogger.trans (congrArg some hlog), ?_, hl, hstarts, ?_,
    hanswers, ?_⟩
  · rw [hlines, hlog]
    dsimp only [o, steps, r, c]
    rfl
  · rw [hserved]
    decide +kernel
  · exact Option.isNone_iff_eq_none.1 (by simpa [steps] using hsilent)

end Screening.Daemon
