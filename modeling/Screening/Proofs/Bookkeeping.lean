import Screening.Http.Service
import Screening.Proofs.Conjunction

/-!
# The books of the service

Requests are counted at the outer edge of the service and operations deep inside it, and yet the two
have to agree.  After any requests whatever the ledger is `Balanced` with the exchanges: every
request is counted once, by its method, its path and the status of its response; an operation is
counted once if one was carried out; and successes are the requests to the endpoint of the operation
that were answered by 200 (`serve_balanced`).

What makes the two sides agree is that a request is either good or not
(`handle_counts_or_declines`).  It is good if an endpoint that carries out an operation is reached
by POST and accepts what the request brings; then the operation is counted, and the response tells
its outcome.  Otherwise nothing is counted, and none of these endpoints answers by 200.

All figures of the ledger go up by at most one with every exchange, each for exchanges of its own
kind, so a single induction over the requests gives all the counts (`serve_count`).

* `Endpoint.Accepts`, `Request.CallsFor` — which requests are good, without reference to how they
  are handled.
* `Handling.Counts`, `Handling.Declines` — the two ways in which a request can be handled.
* `Exchange.Accounted` — an exchange that has an operation if and only if it should.
* `Balanced`, `Tidy` — a ledger that agrees with some exchanges, and one in which every label has
  one entry.

Durations are counted along with the requests and the operations.  How long they are is given from
outside and plays no part here, but there are as many of them as there are requests and operations.
-/

set_option autoImplicit false

namespace Screening

/-! ## Entries of the ledger

A ledger has an entry for every label that has come up, in the order in which they have.  These are
the facts about its entries that do not depend on what the labels mean. -/

namespace Metrics

variable {κ : Type} [DecidableEq κ]

/-- The labels with a new one behind them, if it is new. -/
def withLabel (k : κ) (labels : List κ) : List κ := if k ∈ labels then labels else labels ++ [k]

theorem mem_withLabel {k l : κ} {labels : List κ} :
    l ∈ withLabel k labels ↔ l ∈ labels ∨ l = k := by
  rw [withLabel]
  split
  · rename_i hk
    exact ⟨.inl, fun h => h.elim id fun h => h ▸ hk⟩
  · simp

/-- A label that is there already is not added. -/
theorem nodup_withLabel {k : κ} {labels : List κ} (h : labels.Nodup) :
    (withLabel k labels).Nodup := by
  rw [withLabel]
  split
  · exact h
  · rename_i hk
    exact List.nodup_append.2 ⟨h, by simp, by simpa using fun l hl (hlk : l = k) => hk (hlk ▸ hl)⟩

theorem withLabel_cons {k l : κ} (labels : List κ) (h : l ≠ k) :
    withLabel k (l :: labels) = l :: withLabel k labels := by
  by_cases hk : k ∈ labels <;> simp [withLabel, hk, Ne.symm h]

namespace Tally

/-- How often labels of a kind have come up. -/
def total (p : κ → Bool) : Tally κ → Nat
  | [] => 0
  | (k, n) :: rest => (if p k then n else 0) + total p rest

/-- A kind goes up by one with a label of that kind. -/
theorem total_bump (p : κ → Bool) (k : κ) (t : Tally κ) :
    total p (bump k t) = total p t + if p k then 1 else 0 := by
  induction t with
  | nil => simp [bump, total]
  | cons e rest ih =>
    obtain ⟨l, n⟩ := e
    rw [bump]
    split
    · rename_i hl
      subst hl
      simp only [total]
      split <;> omega
    · simp only [total, ih]
      omega

/-- Counting adds a label at most, behind the others. -/
theorem labels_bump (k : κ) (t : Tally κ) :
    (bump k t).map Prod.fst = withLabel k (t.map Prod.fst) := by
  induction t with
  | nil => simp [bump, withLabel]
  | cons e rest ih =>
    obtain ⟨l, n⟩ := e
    rw [bump]
    split
    · rename_i hl
      simp [withLabel, hl]
    · rename_i hl
      rw [List.map_cons, List.map_cons, ih, withLabel_cons _ hl]

end Tally

/-- A duration that is observed adds one as well. -/
theorem Summaries.labels_observe (k : κ) (seconds : Binary64) (s : Summaries κ) :
    (observe k seconds s).map Prod.fst = withLabel k (s.map Prod.fst) := by
  induction s with
  | nil => simp [observe, withLabel]
  | cons e rest ih =>
    obtain ⟨l, n⟩ := e
    rw [observe]
    split
    · rename_i hl
      simp [withLabel, hl]
    · rename_i hl
      rw [List.map_cons, List.map_cons, ih, withLabel_cons _ hl]

end Metrics

namespace Http

open Json (Value)
open Metrics (Ledger OperationLabels RequestLabels Tally Summaries)

/-! ## What an endpoint accepts and what a response shows

Both are said in terms of what goes in and what comes out, so that what is proved about them does
not speak about how a request is handled. -/

/-- The operation that an endpoint carries out, by the name that it is counted under. -/
def Endpoint.operation? : Endpoint → Option String
  | create => some "create"
  | combine => some "combine"
  | evaluate => some "evaluate"
  | health => none

/-- The body is sent as JSON, is not too long, and reads as the payload. -/
structure Request.Sends {σ : Type} (r : Request) (ofBody : List UInt8 → Except Fault σ) (q : σ) :
    Prop where
  json : sendsJson r = true
  short : r.body.length ≤ bodyLimit
  payload : ofBody r.body = .ok q

/-- The request brings the payload of the endpoint, and it passes the checks. -/
def Endpoint.Accepts (r : Request) : Endpoint → Prop
  | create => ∃ q, r.Sends CreateRequest.ofBody q ∧ q.rule ≠ ""
  | combine => ∃ q, r.Sends CombineRequest.ofBody q ∧ q.rules ≠ []
  | evaluate =>
    ∃ q, r.Sends EvaluateRequest.ofBody q ∧ q.rule ≠ "" ∧ ∃ record, q.data = .object record
  | health => False

/-- The request is a POST to an endpoint with this operation, and accepted by it. -/
def Request.CallsFor (r : Request) (name : String) : Prop :=
  ∃ e : Endpoint, e.operation? = some name ∧ r.method = "POST" ∧ r.path = e.path ∧ e.Accepts r

/-- The code in the body of a response. -/
def Response.code? (r : Response) : Option String :=
  match r.content with
  | .json (.object members) =>
    match members.lookup "code" with
    | some (.string code) => some code
    | _ => none
  | _ => none

/-- The response tells the outcome of an operation: success, or the code of an error in the text of
a rule. -/
def Response.Shows (r : Response) (outcome : String) : Prop :=
  outcome = "success" ∧ r.status = 200 ∧ r.code? = some "SUCCESS" ∨
    ∃ e : RuleError, e.inText = true ∧ outcome = e.code ∧ r.status = 400 ∧ r.code? = some outcome

theorem code_ne_success (e : RuleError) : e.code ≠ "success" := by
  cases e <;> simp [RuleError.code]

/-- The status alone tells a success from an error. -/
theorem Response.Shows.status_eq_iff {r : Response} {outcome : String} (h : r.Shows outcome) :
    r.status = 200 ↔ outcome = "success" := by
  obtain ⟨houtcome, hstatus, -⟩ | ⟨e, -, rfl, hstatus, -⟩ := h
  · exact iff_of_true hstatus houtcome
  · exact iff_of_false (by omega) (code_ne_success e)

/-! ## Handling a request -/

namespace Handling

/-- An operation is counted, and its outcome can be seen from the response. -/
def Counts (h : Handling) (name : String) : Prop :=
  ∃ outcome, h.operation = some ⟨name, outcome⟩ ∧ h.response.Shows outcome

/-- Nothing is counted, and the response is no success. -/
def Declines (h : Handling) : Prop := h.operation = none ∧ h.response.status ≠ 200

/-- Carrying out an operation counts it, with the outcome that is answered. -/
theorem counts_carryOut {α : Type} (name : String) {op : Traced (Except RuleError α)}
    (data : α → Value) (done : α → Log.Activity)
    (h : ∀ e, op.result = .error e → e.inText = true) :
    (carryOut name op data done).Counts name := by
  rw [carryOut]
  cases hresult : op.result with
  | ok a => exact ⟨"success", rfl, .inl ⟨rfl, rfl, rfl⟩⟩
  | error e => exact ⟨e.code, rfl, .inr ⟨e, h e hresult, rfl, rfl, rfl⟩⟩

theorem declines_refuse (r : Refusal) : (refuse r).Declines :=
  ⟨rfl, by simp [refuse, Refusal.response, Response.of]⟩

end Handling

theorem CreateRequest.counts {q : CreateRequest} (h : q.rule ≠ "") : q.handle.Counts "create" := by
  rw [CreateRequest.handle, if_neg h]
  exact Handling.counts_carryOut _ _ _ fun e he => Rule.inText_of_read he

theorem CreateRequest.declines {q : CreateRequest} (h : ¬ q.rule ≠ "") : q.handle.Declines := by
  rw [CreateRequest.handle, if_pos (not_not.1 h)]
  exact Handling.declines_refuse _

theorem CombineRequest.counts {q : CombineRequest} (h : q.rules ≠ []) :
    q.handle.Counts "combine" := by
  rw [CombineRequest.handle, if_neg h]
  refine Handling.counts_carryOut _ _ _ fun e he => ?_
  cases e with
  | noRules => exact absurd (Rule.readAll_eq_noRules_iff.1 he) h
  | _ => rfl

theorem CombineRequest.declines {q : CombineRequest} (h : ¬ q.rules ≠ []) :
    q.handle.Declines := by
  rw [CombineRequest.handle, if_pos (not_not.1 h)]
  exact Handling.declines_refuse _

theorem EvaluateRequest.counts {q : EvaluateRequest}
    (h : q.rule ≠ "" ∧ ∃ record, q.data = .object record) : q.handle.Counts "evaluate" := by
  obtain ⟨hrule, record, hdata⟩ := h
  rw [EvaluateRequest.handle, if_neg hrule, hdata]
  refine Handling.counts_carryOut _ _ _ fun e he => ?_
  obtain he | ⟨t, -, he⟩ := bind_eq_error_iff.1 he
  · exact Rule.inText_of_read he
  · cases he

theorem EvaluateRequest.declines {q : EvaluateRequest}
    (h : ¬ (q.rule ≠ "" ∧ ∃ record, q.data = .object record)) : q.handle.Declines := by
  rw [EvaluateRequest.handle]
  by_cases hrule : q.rule = ""
  · rw [if_pos hrule]
    exact Handling.declines_refuse _
  · rw [if_neg hrule]
    split
    · rename_i record hdata
      exact absurd ⟨hrule, record, hdata⟩ h
    · exact Handling.declines_refuse _

/-- Taking the body and reading it adds ways to decline, and nothing else. -/
theorem withPayload_counts_or_declines {σ : Type} {ofBody : List UInt8 → Except Fault σ}
    {handle : σ → Handling} {valid : σ → Prop} {name : String}
    (hcounts : ∀ {q}, valid q → (handle q).Counts name)
    (hdeclines : ∀ {q}, ¬ valid q → (handle q).Declines) (r : Request) :
    (∃ q, r.Sends ofBody q ∧ valid q) ∧ (withPayload ofBody handle r).Counts name ∨
      ¬ (∃ q, r.Sends ofBody q ∧ valid q) ∧ (withPayload ofBody handle r).Declines := by
  rw [withPayload]
  by_cases hjson : sendsJson r = true
  case neg =>
    rw [if_pos (by simpa using hjson)]
    exact .inr ⟨fun ⟨q, hq, _⟩ => hjson hq.json, rfl, by simp [Response.of]⟩
  by_cases hshort : r.body.length ≤ bodyLimit
  case neg =>
    rw [if_neg (by simpa using hjson), if_pos (Nat.lt_of_not_le hshort)]
    exact .inr ⟨fun ⟨q, hq, _⟩ => hshort hq.short, rfl, by simp [Response.of]⟩
  rw [if_neg (by simpa using hjson), if_neg (Nat.not_lt_of_le hshort)]
  cases hbody : ofBody r.body with
  | error e =>
    refine .inr ⟨fun ⟨q, hq, _⟩ => ?_, rfl, ?_⟩
    · rw [hq.payload] at hbody
      cases hbody
    · cases e <;> simp [Fault.response, Response.of]
  | ok q =>
    by_cases hvalid : valid q
    · exact .inl ⟨⟨q, ⟨hjson, hshort, hbody⟩, hvalid⟩, hcounts hvalid⟩
    · refine .inr ⟨fun ⟨q', hq, hvalid'⟩ => hvalid ?_, hdeclines hvalid⟩
      obtain rfl := Except.ok.inj (hbody.symm.trans hq.payload)
      exact hvalid'

/-- An endpoint counts its operation for the requests that it accepts and for no others. -/
theorem Endpoint.handle_counts_or_declines {e : Endpoint} {name : String}
    (he : e.operation? = some name) (r : Request) :
    e.Accepts r ∧ (e.handle r).Counts name ∨ ¬ e.Accepts r ∧ (e.handle r).Declines := by
  cases e with
  | create =>
    obtain rfl := Option.some.inj he
    exact withPayload_counts_or_declines CreateRequest.counts CreateRequest.declines r
  | combine =>
    obtain rfl := Option.some.inj he
    exact withPayload_counts_or_declines CombineRequest.counts CombineRequest.declines r
  | evaluate =>
    obtain rfl := Option.some.inj he
    exact withPayload_counts_or_declines EvaluateRequest.counts EvaluateRequest.declines r
  | health => cases he

theorem Endpoint.ofPath?_eq_some_iff {e : Endpoint} {path : String} :
    ofPath? path = some e ↔ path = e.path := by
  constructor
  · intro h
    have hpath := List.find?_some h
    simpa [eq_comm] using hpath
  · rintro rfl
    cases e <;> decide

theorem Endpoint.eq_of_path {e e' : Endpoint} {path : String} (h : path = e.path)
    (h' : path = e'.path) : e = e' := by
  rw [← ofPath?_eq_some_iff] at h h'
  exact Option.some.inj (h.symm.trans h')

/-- What carries out an operation is reached by POST. -/
theorem Endpoint.methods_of_operation? {e : Endpoint} {name : String}
    (he : e.operation? = some name) : e.methods = ["POST"] := by
  cases e with
  | health => cases he
  | _ => rfl

/-- The request is a POST to an endpoint that carries out an operation. -/
def Request.PostsTo (r : Request) (e : Endpoint) : Prop :=
  e.operation? ≠ none ∧ r.method = "POST" ∧ r.path = e.path

theorem handle_of_postsTo {r : Request} {e : Endpoint} (h : r.PostsTo e) :
    handle r = e.handle r := by
  obtain ⟨he, hmethod, hpath⟩ := h
  obtain ⟨name, hname⟩ := Option.ne_none_iff_exists'.1 he
  rw [handle, Endpoint.ofPath?_eq_some_iff.2 hpath]
  refine if_pos ?_
  rw [Endpoint.methods_of_operation? hname, hmethod]
  exact List.mem_singleton_self _

/-- Elsewhere no operation is counted: not on a path that is not served, not by another method, and
not where the service only tells that it is up. -/
theorem operation_of_not_postsTo {r : Request} (h : ∀ e, ¬ r.PostsTo e) :
    (handle r).operation = none := by
  rw [handle]
  cases hpath : Endpoint.ofPath? r.path with
  | none => rfl
  | some e =>
    by_cases hmethod : r.method ∈ e.methods
    · cases he : e.operation? with
      | none =>
        -- Of the endpoints only the one for health has no operation.
        cases e with
        | health => simp only [hmethod, if_true, Endpoint.handle]
        | _ => cases he
      | some name =>
        rw [Endpoint.methods_of_operation? he, List.mem_singleton] at hmethod
        exact absurd ⟨by simp [he], hmethod, Endpoint.ofPath?_eq_some_iff.1 hpath⟩ (h e)
    · simp only [hmethod, if_false]

/-- **Good requests and others.**  If a request calls for an operation, this is the one that is
counted, once, and the response shows its outcome.  Otherwise nothing is counted, and no POST to an
endpoint with an operation is answered by 200. -/
theorem handle_counts_or_declines (r : Request) :
    (∃ name, r.CallsFor name ∧ (handle r).Counts name) ∨
      (∀ name, ¬ r.CallsFor name) ∧ (handle r).operation = none ∧
        ∀ e, r.PostsTo e → (handle r).response.status ≠ 200 := by
  by_cases hpost : ∃ e, r.PostsTo e
  · obtain ⟨e, hposts⟩ := hpost
    rw [handle_of_postsTo hposts]
    obtain ⟨he, hmethod, hpath⟩ := hposts
    obtain ⟨name, hname⟩ := Option.ne_none_iff_exists'.1 he
    obtain ⟨haccepts, hcounts⟩ | ⟨hrejects, hnone, hstatus⟩ := e.handle_counts_or_declines hname r
    · exact .inl ⟨name, ⟨e, hname, hmethod, hpath, haccepts⟩, hcounts⟩
    · refine .inr ⟨?_, hnone, fun _ _ => hstatus⟩
      rintro name' ⟨e', -, -, hpath', haccepts⟩
      exact hrejects (Endpoint.eq_of_path hpath' hpath ▸ haccepts)
  · have hnone : ∀ e, ¬ r.PostsTo e := not_exists.1 hpost
    refine .inr ⟨?_, operation_of_not_postsTo hnone, fun e he => absurd he (hnone e)⟩
    rintro name ⟨e, he, hmethod, hpath, -⟩
    exact hnone e ⟨by simp [he], hmethod, hpath⟩

/-! ## Exchanges -/

/-- A request calls for one operation at most. -/
theorem Request.CallsFor.name_eq {r : Request} {name name' : String} (h : r.CallsFor name)
    (h' : r.CallsFor name') : name = name' := by
  obtain ⟨e, he, -, hpath, -⟩ := h
  obtain ⟨e', he', -, hpath', -⟩ := h'
  obtain rfl := Endpoint.eq_of_path hpath hpath'
  exact Option.some.inj (he.symm.trans he')

theorem Endpoint.eq_of_operation? {e e' : Endpoint} {name : String}
    (he : e.operation? = some name) (he' : e'.operation? = some name) : e = e' := by
  rw [← he'] at he
  revert he
  cases e <;> cases e' <;> decide

namespace Exchange

/-- An exchange has an operation exactly if the request calls for it, and the response shows the
outcome that the operation is counted with. -/
structure Accounted (x : Exchange) : Prop where
  /-- It has the operation that the request calls for. -/
  due : ∀ name, (∃ outcome, x.operation = some ⟨name, outcome⟩) ↔ x.request.CallsFor name
  /-- The outcome can be seen from the response. -/
  shown : ∀ labels, x.operation = some labels → x.response.Shows labels.outcome

variable (fresh : Uuid) (r : Request)

/-- Every exchange is accounted for. -/
theorem accounted_of : (of fresh r).Accounted := by
  have hop : (of fresh r).operation = (handle r).operation := rfl
  obtain ⟨name, hcalls, outcome, hcounted, hshows⟩ | ⟨hidle, hnone, -⟩ :=
    handle_counts_or_declines r
  · refine ⟨fun name' => ?_, fun labels hlabels => ?_⟩
    · constructor
      -- There is one operation at most, so it is the one that was called for.
      · rintro ⟨outcome', hcounted'⟩
        rw [hop, hcounted, Option.some.injEq, OperationLabels.mk.injEq] at hcounted'
        exact hcounted'.1 ▸ hcalls
      · intro hcalls'
        exact ⟨outcome, hcalls.name_eq hcalls' ▸ hcounted⟩
    · rw [hop, hcounted] at hlabels
      cases hlabels
      rw [of_response]
      exact hshows
  · refine ⟨fun name => iff_of_false ?_ (hidle name), fun labels hlabels => ?_⟩
    · rintro ⟨outcome, hcounted⟩
      rw [hop, hnone] at hcounted
      cases hcounted
    · rw [hop, hnone] at hlabels
      cases hlabels

/-- A success of an operation is a POST to its endpoint that is answered by 200. -/
theorem operation_eq_success_iff {e : Endpoint} {name : String} (he : e.operation? = some name) :
    (of fresh r).operation = some ⟨name, "success"⟩ ↔
      r.method = "POST" ∧ r.path = e.path ∧ (of fresh r).response.status = 200 := by
  have hop : (of fresh r).operation = (handle r).operation := rfl
  have hstatus : (of fresh r).response.status = (handle r).response.status := by
    rw [of_response]
    rfl
  rw [hop, hstatus]
  obtain ⟨name', ⟨e', he', hmethod, hpath, -⟩, outcome, hcounted, hshows⟩ | ⟨-, hnone, hfails⟩ :=
    handle_counts_or_declines r
  · rw [hcounted, Option.some.injEq, OperationLabels.mk.injEq, hshows.status_eq_iff]
    constructor
    · rintro ⟨rfl, rfl⟩
      exact ⟨hmethod, Endpoint.eq_of_operation? he he' ▸ hpath, rfl⟩
    -- Two endpoints with one path are the same, and so are their operations.
    · rintro ⟨-, hpath', rfl⟩
      obtain rfl := Endpoint.eq_of_path hpath hpath'
      exact ⟨Option.some.inj (he'.symm.trans he), rfl⟩
  · rw [hnone]
    refine iff_of_false (by simp) ?_
    rintro ⟨hmethod, hpath, hstatus⟩
    exact hfails e ⟨by simp [he], hmethod, hpath⟩ hstatus

/-! ## What an exchange adds to the ledger

One lemma for each figure: it goes up by one for exchanges of a kind, and stays for all others. -/

variable (t : Times) (x : Exchange) (l : Ledger)

theorem requests_count (labels : RequestLabels) :
    (x.count t l).requests.count labels
      = l.requests.count labels + if x.labels = labels then 1 else 0 := by
  rw [count]
  cases x.operation <;>
    simp [Ledger.recordRequest, Ledger.recordOperation, Tally.count_bump, eq_comm]

theorem requestTimes_count (labels : RequestLabels) :
    (x.count t l).requestTimes.count labels
      = l.requestTimes.count labels + if x.labels = labels then 1 else 0 := by
  rw [count]
  cases x.operation <;>
    simp [Ledger.recordRequest, Ledger.recordOperation, Summaries.count_observe, eq_comm]

theorem operations_count (labels : OperationLabels) :
    (x.count t l).operations.count labels
      = l.operations.count labels + if x.operation = some labels then 1 else 0 := by
  rw [count]
  cases x.operation <;>
    simp [Ledger.recordRequest, Ledger.recordOperation, Tally.count_bump, eq_comm]

theorem operations_total (name : String) :
    (x.count t l).operations.total (·.operation = name)
      = l.operations.total (·.operation = name) +
        if x.operation.map (·.operation) = some name then 1 else 0 := by
  rw [count]
  cases x.operation <;>
    simp [Ledger.recordRequest, Ledger.recordOperation, Tally.total_bump]

theorem operationTimes_count (name : String) :
    (x.count t l).operationTimes.count name
      = l.operationTimes.count name +
        if x.operation.map (·.operation) = some name then 1 else 0 := by
  rw [count]
  cases x.operation <;>
    simp [Ledger.recordRequest, Ledger.recordOperation, Summaries.count_observe, eq_comm]

end Exchange

/-! ## The service

What one exchange adds is added up over all requests. -/

/-- The outcomes that operations are counted with. -/
def outcomes : List String :=
  ["success", "UNSUPPORTED_OPERATOR", "MALFORMED_RULE", "MISMATCHED_PARENTHESES"]

/-- Every outcome that can be shown is one of four. -/
theorem Response.Shows.mem_outcomes {r : Response} {outcome : String} (h : r.Shows outcome) :
    outcome ∈ outcomes := by
  obtain ⟨rfl, -⟩ | ⟨e, he, rfl, -⟩ := h
  · decide
  · cases e with
    | noRules => cases he
    | _ => simp [outcomes, RuleError.code]

/-- No label has two entries in the ledger, and the labels of operations are known ones. -/
structure Tidy (l : Ledger) : Prop where
  requests : (l.requests.map Prod.fst).Nodup
  requestTimes : (l.requestTimes.map Prod.fst).Nodup
  operations : (l.operations.map Prod.fst).Nodup
  operationTimes : (l.operationTimes.map Prod.fst).Nodup
  known : ∀ labels ∈ l.operations.map Prod.fst,
    (∃ e : Endpoint, e.operation? = some labels.operation) ∧ labels.outcome ∈ outcomes

theorem tidy_empty : Tidy {} := ⟨by simp, by simp, by simp, by simp, by simp⟩

theorem Tidy.recordRequest {l : Ledger} (h : Tidy l) (labels : RequestLabels) (seconds : Binary64) :
    Tidy (l.recordRequest labels seconds) where
  requests := Tally.labels_bump labels l.requests ▸ Metrics.nodup_withLabel h.requests
  requestTimes :=
    Summaries.labels_observe labels seconds l.requestTimes ▸ Metrics.nodup_withLabel h.requestTimes
  operations := h.operations
  operationTimes := h.operationTimes
  known := h.known

theorem Tidy.recordOperation {l : Ledger} (h : Tidy l) {labels : OperationLabels}
    (hknown : (∃ e : Endpoint, e.operation? = some labels.operation) ∧ labels.outcome ∈ outcomes)
    (seconds : Binary64) : Tidy (l.recordOperation labels seconds) where
  requests := h.requests
  requestTimes := h.requestTimes
  operations := Tally.labels_bump labels l.operations ▸ Metrics.nodup_withLabel h.operations
  operationTimes := Summaries.labels_observe labels.operation seconds l.operationTimes ▸
    Metrics.nodup_withLabel h.operationTimes
  known := by
    intro labels' hlabels'
    have hlabels : labels' ∈ (l.operations.bump labels).map Prod.fst := hlabels'
    rw [Tally.labels_bump, Metrics.mem_withLabel] at hlabels
    obtain hlabels | rfl := hlabels
    · exact h.known labels' hlabels
    · exact hknown

/-- Counting an exchange keeps the ledger tidy.  That it is accounted for is what makes the labels
of its operation known ones. -/
theorem Exchange.Accounted.tidy {x : Exchange} (hx : x.Accounted) {l : Ledger} (h : Tidy l)
    (t : Times) : Tidy (x.count t l) := by
  rw [count]
  cases hop : x.operation with
  | none => exact h.recordRequest _ _
  | some labels =>
    obtain ⟨e, he, -⟩ := (hx.due labels.operation).1 ⟨labels.outcome, hop⟩
    exact (h.recordOperation ⟨⟨e, he⟩, (hx.shown labels hop).mem_outcomes⟩ _).recordRequest _ _

theorem serve_cons (l : Ledger) (c : Circumstances) (r : Request)
    (rest : List (Circumstances × Request)) :
    serve l ((c, r) :: rest) =
      (Exchange.of c.fresh r :: (serve ((Exchange.of c.fresh r).count c.times l) rest).1,
        (serve ((Exchange.of c.fresh r).count c.times l) rest).2) := rfl

/-- The exchanges do not depend on the ledger. -/
theorem serve_exchanges (l : Ledger) (requests : List (Circumstances × Request)) :
    (serve l requests).1 = requests.map fun p => Exchange.of p.1.fresh p.2 := by
  induction requests generalizing l with
  | nil => rfl
  | cons p rest ih => rw [serve_cons, ih, List.map_cons]

/-- A request that is served makes the exchange in its place, whatever stands around it. -/
theorem serve_getElem? (l : Ledger) (before after : List (Circumstances × Request))
    (c : Circumstances) (r : Request) :
    (serve l (before ++ (c, r) :: after)).1[before.length]? = some (Exchange.of c.fresh r) := by
  rw [serve_exchanges, List.map_append, List.map_cons]
  simp

/-- Requests may be served in two goes. -/
theorem serve_append (l : Ledger) (requests more : List (Circumstances × Request)) :
    (serve l (requests ++ more)).2 = (serve (serve l requests).2 more).2 := by
  induction requests generalizing l with
  | nil => rfl
  | cons p rest ih => exact ih _

theorem serve_tidy {l : Ledger} (h : Tidy l) (requests : List (Circumstances × Request)) :
    Tidy (serve l requests).2 := by
  induction requests generalizing l with
  | nil => exact h
  | cons p rest ih => exact ih ((Exchange.accounted_of p.1.fresh p.2).tidy h p.1.times)

/-- A figure that goes up by one with the exchanges of a kind, and with no others, counts them. -/
theorem serve_count (figure : Ledger → Nat) (kind : Exchange → Prop) [DecidablePred kind]
    (step : ∀ t x l, figure (Exchange.count t x l) = figure l + if kind x then 1 else 0)
    (l : Ledger) (requests : List (Circumstances × Request)) :
    figure (serve l requests).2 = figure l + (serve l requests).1.countP (kind ·) := by
  induction requests generalizing l with
  | nil => rfl
  | cons p rest ih =>
    have hrest := ih (Exchange.count p.1.times (Exchange.of p.1.fresh p.2) l)
    rw [step] at hrest
    rw [serve_cons, List.countP_cons, hrest]
    simp only [decide_eq_true_iff]
    omega

section Figures

variable (l : Ledger) (requests : List (Circumstances × Request))

/-- The figure of a label goes up by the number of exchanges that have it. -/
theorem serve_requests (labels : RequestLabels) :
    (serve l requests).2.requests.count labels
      = l.requests.count labels + (serve l requests).1.countP (·.labels = labels) :=
  serve_count (·.requests.count labels) (·.labels = labels)
    (Exchange.requests_count · · · labels) l requests

theorem serve_requestTimes (labels : RequestLabels) :
    (serve l requests).2.requestTimes.count labels
      = l.requestTimes.count labels + (serve l requests).1.countP (·.labels = labels) :=
  serve_count (·.requestTimes.count labels) (·.labels = labels)
    (Exchange.requestTimes_count · · · labels) l requests

theorem serve_operations (labels : OperationLabels) :
    (serve l requests).2.operations.count labels
      = l.operations.count labels + (serve l requests).1.countP (·.operation = some labels) :=
  serve_count (·.operations.count labels) (·.operation = some labels)
    (Exchange.operations_count · · · labels) l requests

theorem serve_operationsTotal (name : String) :
    (serve l requests).2.operations.total (·.operation = name)
      = l.operations.total (·.operation = name) +
        (serve l requests).1.countP (·.operation.map (·.operation) = some name) :=
  serve_count (·.operations.total (·.operation = name))
    (·.operation.map (·.operation) = some name) (Exchange.operations_total · · · name) l requests

theorem serve_operationTimes (name : String) :
    (serve l requests).2.operationTimes.count name
      = l.operationTimes.count name +
        (serve l requests).1.countP (·.operation.map (·.operation) = some name) :=
  serve_count (·.operationTimes.count name) (·.operation.map (·.operation) = some name)
    (Exchange.operationTimes_count · · · name) l requests

end Figures

/-- The figures of a ledger are what the exchanges come to. -/
structure Balanced (xs : List Exchange) (l : Ledger) : Prop where
  /-- Every request is counted under its method, its path and the status of its response. -/
  requests : ∀ method path status, l.requests.count ⟨method, path, status⟩ =
    xs.countP fun x =>
      x.request.method = method ∧ x.request.path = path ∧ x.response.status = status
  /-- There are as many durations as requests. -/
  requestTimes : ∀ labels, l.requestTimes.count labels = l.requests.count labels
  /-- Every operation is counted under its name and outcome. -/
  operations : ∀ labels, l.operations.count labels = xs.countP fun x => x.operation = some labels
  /-- There are as many durations as operations, whatever their outcomes. -/
  operationTimes : ∀ name,
    l.operationTimes.count name = l.operations.total fun labels => labels.operation = name
  /-- An operation has succeeded as often as a POST to its path was answered by 200. -/
  successes : ∀ (e : Endpoint) name, e.operation? = some name →
    l.operations.count ⟨name, "success"⟩ = l.requests.count ⟨"POST", e.path, 200⟩

/-- A ledger that was empty at first is balanced with the exchanges since then. -/
theorem balanced_serve (requests : List (Circumstances × Request)) :
    Balanced (serve {} requests).1 (serve {} requests).2 where
  requests method path status := by
    rw [serve_requests]
    refine (Nat.zero_add _).trans (List.countP_congr fun x _ => ?_)
    simp [Exchange.labels]
  requestTimes labels := by
    rw [serve_requestTimes, serve_requests]
    rfl
  operations labels := by
    rw [serve_operations]
    exact Nat.zero_add _
  operationTimes name := by
    rw [serve_operationTimes, serve_operationsTotal]
    rfl
  successes e name he := by
    rw [serve_operations, serve_requests, serve_exchanges]
    refine congrArg (0 + ·) (List.countP_congr fun x hx => ?_)
    -- Both counts go over the same exchanges, so it is enough to compare the two tests on each.
    obtain ⟨p, -, rfl⟩ := List.mem_map.1 hx
    rw [decide_eq_true_iff, decide_eq_true_iff, Exchange.operation_eq_success_iff _ _ he,
      Exchange.labels, RequestLabels.mk.injEq]
    rfl

/-- **The books balance.**  Served from an empty ledger, any requests whatever leave one exchange
each, and a ledger that is balanced with the exchanges, in which no label has two entries and none
but the three operations and their four outcomes occur.  An operation is counted for exactly the
requests that call for it, with the outcome that the response shows.  No count ever goes down. -/
theorem serve_balanced (requests : List (Circumstances × Request)) :
    (serve {} requests).1.map (·.request) = requests.map Prod.snd ∧
      Balanced (serve {} requests).1 (serve {} requests).2 ∧
      Tidy (serve {} requests).2 ∧
      (∀ x ∈ (serve {} requests).1, x.Accounted) ∧
      ∀ more,
        (∀ labels, (serve {} requests).2.requests.count labels
          ≤ (serve {} (requests ++ more)).2.requests.count labels) ∧
        ∀ labels, (serve {} requests).2.operations.count labels
          ≤ (serve {} (requests ++ more)).2.operations.count labels := by
  have hexchanges := serve_exchanges {} requests
  refine ⟨?_, balanced_serve requests, serve_tidy tidy_empty requests, fun x hx => ?_,
    fun more => ⟨fun labels => ?_, fun labels => ?_⟩⟩
  · rw [hexchanges, List.map_map]
    rfl
  · rw [hexchanges] at hx
    obtain ⟨p, -, rfl⟩ := List.mem_map.1 hx
    exact Exchange.accounted_of p.1.fresh p.2
  · rw [serve_append, serve_requests _ more]
    exact Nat.le_add_right _ _
  · rw [serve_append, serve_operations _ more]
    exact Nat.le_add_right _ _

/-- A text that is no rule, a path that is not served, and a success with a query behind its path:
all three requests are counted, and two operations, each with the outcome that its response shows.
The success is the one POST to its path that was answered by 200. -/
theorem serve_balanced_of_mistakes :
    let json := ("content-type", "application/json".toUTF8.toList)
    let broken : Request :=
      { method := "POST"
        target := "/create_rule"
        headers := [json]
        body := "\x7b\"rule\":\"a =\"\x7d".toUTF8.toList }
    let lost : Request := { method := "GET", target := "/rules" }
    let sound : Request :=
      { method := "POST"
        target := "/combine_rules?x=1"
        headers := [json]
        body := "\x7b\"rules\":[\"a = 1\",\"b = 2\"]\x7d".toUTF8.toList }
    let c : Circumstances := ⟨⟨0, 0, 0⟩, ⟨default, default⟩⟩
    let served := serve {} [(c, broken), (c, lost), (c, sound)]
    served.2.requests.count ⟨"GET", "/rules", 404⟩ = 1 ∧
      served.2.operations.count ⟨"create", "MALFORMED_RULE"⟩ = 1 ∧
      served.2.operations.count ⟨"combine", "success"⟩ = 1 ∧
      served.2.requests.count ⟨"POST", "/combine_rules", 200⟩ = 1 ∧
      served.2.operationTimes.count "combine" = 1 ∧
      (∃ x ∈ served.1, x.operation = some ⟨"create", "MALFORMED_RULE"⟩ ∧ x.Accounted) ∧
      ∃ x ∈ served.1, x.request = sound ∧ x.operation = some ⟨"combine", "success"⟩ ∧
        x.response.Shows "success" := by
  intro json broken lost sound c served
  obtain ⟨-, hbalanced, -, haccounted, -⟩ :=
    serve_balanced [(c, broken), (c, lost), (c, sound)]
  have hmem : Exchange.of c.fresh broken ∈ served.1 := List.mem_cons_self
  have hmem' : Exchange.of c.fresh sound ∈ served.1 := by simp [served, serve_cons]
  have hsuccess : (Exchange.of c.fresh sound).operation = some ⟨"combine", "success"⟩ := by
    decide +kernel
  have hcombine : served.2.operations.count ⟨"combine", "success"⟩ = 1 :=
    (hbalanced.operations _).trans (by decide +kernel)
  refine ⟨?_, ?_, hcombine, ?_, ?_,
    ⟨Exchange.of c.fresh broken, hmem, by decide +kernel, haccounted _ hmem⟩,
    Exchange.of c.fresh sound, hmem', rfl, hsuccess, (haccounted _ hmem').shown _ hsuccess⟩
  · exact (hbalanced.requests "GET" "/rules" 404).trans (by decide +kernel)
  · exact (hbalanced.operations _).trans (by decide +kernel)
  · exact (hbalanced.successes .combine "combine" rfl).symm.trans hcombine
  · exact (hbalanced.operationTimes "combine").trans (by decide +kernel)

end Http

end Screening
