import Mathlib
import Screening.Proofs.Bookkeeping
import Screening.Proofs.Decoding
import Screening.Proofs.Relevance

/-!
# What the endpoints answer

A `Call` is a payload together with the endpoint that it is for.  Of a call that has come through,
that is of a POST whose body reads as the payload, the answer is fixed by three rules
(`serve_answers`):

* a payload that lacks its rule, its rules or its record is refused by the checks, whatever else
  there may be wrong with it;
* otherwise the operation is carried out on what the payload holds, and its error is handed on with
  its own code and message,
* or its result is granted.

Every such answer is `Coherent`: the status, the mark of success, the code and the data tell the
same story.  The code for a missing list of rules is never among them, because the one operation
that could give it is not carried out on an empty list.

What the payload holds is told from the value of the body (`Call.Agrees`), as far as the body has a
value.  So the answer can be read off the body, without going through the steps of the service.

The three endpoints differ in their payload, their checks and their operation, and are alike in all
that follows.  What is proved here is therefore proved about a `Call`; the cases come up once for
the checks (`Call.refuses_of_not_valid`) and once for the operation (`Call.answers_of_valid`).
-/

set_option autoImplicit false

namespace Screening

/-! ## Judging the members of an object -/

theorem Operation.evaluate_object (text : String) (members : Json.Members) :
    (evaluate text (Json.Value.object members)).result = (evaluate text members).result := by
  have hpasses (t : Rule) : t.passes (Json.Value.object members) = t.passes members := by
    rw [Rule.passes, Rule.passes, Rule.verdict_object]
  simp only [evaluate, hpasses]

namespace Http

open Json (Value)
open Metrics (Ledger)
open Handling (carryOut)

/-! ## Answers

An answer is described by what a client can see of it.  `Refuses` and `Grants` fix the whole
content, `Coherent` only relates its parts to each other. -/

/-- A member of the object that a response carries. -/
def Response.member? (a : Response) (key : String) : Option Value :=
  match a.content with
  | .json (.object members) => members.lookup key
  | _ => none

/-- The answer refuses a request, for the reason that the code and the message give. -/
structure Response.Refuses (a : Response) (code message : String) : Prop where
  status : a.status = 400
  content : a.content = .json (.object
    [("success", .bool false), ("code", .string code), ("message", .string message),
     ("data", .null)])

/-- The answer grants a request, with the data that it asked for. -/
structure Response.Grants (a : Response) (data : Value) : Prop where
  status : a.status = 200
  content : a.content = .json (.object
    [("success", .bool true), ("code", .string "SUCCESS"), ("message", .string "操作成功"),
     ("data", data)])

/-- All parts of an answer say whether the request has been granted, and they agree. -/
structure Response.Coherent (a : Response) : Prop where
  status : a.status = 200 ∨ a.status = 400
  success : a.member? "success" = some (.bool (a.status = 200))
  code : a.member? "code" = some (.string "SUCCESS") ↔ a.status = 200
  data : ∃ data, a.member? "data" = some data ∧ (data = .null ↔ a.status = 400)
  code_ne_noRules : a.member? "code" ≠ some (.string "EMPTY_INPUT")

namespace Response

variable {a : Response}

/-- A refusal is coherent, unless its code is the one of a success or the one for an empty list. -/
theorem Refuses.coherent {code message : String} (h : a.Refuses code message)
    (hsuccess : code ≠ "SUCCESS") (hempty : code ≠ "EMPTY_INPUT") : a.Coherent := by
  have hcode : a.member? "code" = some (.string code) := by rw [member?, h.content]; rfl
  refine ⟨.inr h.status, ?_, ?_, ⟨.null, ?_, by simp [h.status]⟩, ?_⟩
  · rw [member?, h.content, h.status]
    rfl
  · rw [hcode, h.status]
    simpa using hsuccess
  · rw [member?, h.content]
    rfl
  · rw [hcode]
    simpa using hempty

/-- A success is coherent if there is something in it. -/
theorem Grants.coherent {data : Value} (h : a.Grants data) (hdata : data ≠ .null) :
    a.Coherent := by
  have hcode : a.member? "code" = some (.string "SUCCESS") := by rw [member?, h.content]; rfl
  refine ⟨.inl h.status, ?_, ?_, ⟨data, ?_, by simp [h.status, hdata]⟩, ?_⟩
  · rw [member?, h.content, h.status]
    rfl
  · simp [hcode, h.status]
  · rw [member?, h.content]
    rfl
  · simp [hcode]

/-! A header that is set later changes nothing of this. -/

theorem Refuses.setHeader {code message : String} (h : a.Refuses code message)
    (name value : String) : (a.setHeader name value).Refuses code message :=
  ⟨h.status, h.content⟩

theorem Grants.setHeader {data : Value} (h : a.Grants data) (name value : String) :
    (a.setHeader name value).Grants data :=
  ⟨h.status, h.content⟩

theorem Coherent.setHeader (h : a.Coherent) (name value : String) :
    (a.setHeader name value).Coherent :=
  ⟨h.status, h.success, h.code, h.data, h.code_ne_noRules⟩

end Response

theorem Refusal.refuses (e : Refusal) : e.response.Refuses e.code e.message := ⟨rfl, rfl⟩

theorem grants_success (data : Value) : (success data).Grants data := ⟨rfl, rfl⟩

/-! ## Calls -/

/-- A payload for one of the endpoints. -/
inductive Call where
  | create (q : CreateRequest)
  | combine (q : CombineRequest)
  | evaluate (q : EvaluateRequest)

namespace Call

def endpoint : Call → Endpoint
  | create _ => .create
  | combine _ => .combine
  | evaluate _ => .evaluate

/-- The rule, or the rules, and the record are there. -/
def Valid : Call → Prop
  | create q => q.rule ≠ ""
  | combine q => q.rules ≠ []
  | evaluate q => q.rule ≠ "" ∧ ∃ members, q.data = .object members

/-- What the operation gives for a payload; a result as it stands in the answer. -/
def result : Call → Except RuleError Value
  | create q => (Operation.create q.rule).result.map Rule.toJson
  | combine q => (Operation.combine q.rules).result.map Rule.toJson
  | evaluate q =>
    (Operation.evaluate q.rule q.data).result.map fun passed => .object [("result", .bool passed)]

/-- The request brings the payload. -/
def Sent (r : Request) : Call → Prop
  | create q => r.Sends CreateRequest.ofBody q
  | combine q => r.Sends CombineRequest.ofBody q
  | evaluate q => r.Sends EvaluateRequest.ofBody q

/-- The payload holds what a JSON value has for its fields, and defaults for what it has not. -/
def Agrees (v : Value) : Call → Prop
  | create q => q.Agrees (Payload.field? ["rule"] · v)
  | combine q => q.Agrees (Payload.field? ["rules"] · v)
  | evaluate q => q.Agrees (Payload.field? ["rule", "data"] · v)

/-- How a payload is handled once it has been read. -/
def handle : Call → Handling
  | create q => q.handle
  | combine q => q.handle
  | evaluate q => q.handle

end Call

/-- The request is a POST to the endpoint of a call and brings its payload. -/
structure Request.Makes (r : Request) (k : Call) : Prop where
  method : r.method = "POST"
  path : r.path = k.endpoint.path
  sent : k.Sent r

theorem withPayload_of_sends {σ : Type} {ofBody : List UInt8 → Except Fault σ} {r : Request}
    {q : σ} (handle : σ → Handling) (h : r.Sends ofBody q) :
    withPayload ofBody handle r = handle q := by
  rw [withPayload, if_neg (by simp [h.json]), if_neg (Nat.not_lt_of_le h.short), h.payload]

/-- A call comes through to the handler of its payload. -/
theorem handle_of_makes {r : Request} {k : Call} (h : r.Makes k) : handle r = k.handle := by
  obtain ⟨hmethod, hpath, hsent⟩ := h
  have hposts : r.PostsTo k.endpoint := ⟨by cases k <;> simp [Call.endpoint, Endpoint.operation?],
    hmethod, hpath⟩
  rw [handle_of_postsTo hposts]
  cases k with
  | create q => exact withPayload_of_sends _ hsent
  | combine q => exact withPayload_of_sends _ hsent
  | evaluate q => exact withPayload_of_sends _ hsent

/-- What comes through is what the body says. -/
theorem Call.agrees_of_sent {r : Request} {k : Call} (h : k.Sent r) {v : Value}
    (hv : Value.ofBytes? r.body = some v) : k.Agrees v := by
  cases k with
  | create q => exact CreateRequest.agrees_of_ofBody h.payload hv
  | combine q => exact CombineRequest.agrees_of_ofBody h.payload hv
  | evaluate q => exact EvaluateRequest.agrees_of_ofBody h.payload hv

/-! ## From the operations to the answers

An operation gives a result or an error, and the answer is made of it and of nothing else. -/

theorem map_eq_ok_iff {α β : Type} {x : Except RuleError α} {f : α → β} {b : β} :
    x.map f = .ok b ↔ ∃ a, x = .ok a ∧ f a = b := by
  cases x <;> simp [Except.map]

theorem map_eq_error_iff {α β : Type} {x : Except RuleError α} {f : α → β} {e : RuleError} :
    x.map f = .error e ↔ x = .error e := by
  cases x <;> simp [Except.map]

section Operations

variable {α : Type} {name : String} {op : Traced (Except RuleError α)} {data : α → Value}
  {done : α → Log.Activity}

/-- The result of an operation is granted. -/
theorem grants_carryOut {v : Value} (h : op.result.map data = .ok v) :
    (carryOut name op data done).response.Grants v := by
  obtain ⟨a, hresult, rfl⟩ := map_eq_ok_iff.1 h
  rw [carryOut, hresult]
  exact grants_success _

/-- Its error is handed on, with its own code and its own message. -/
theorem refuses_carryOut {e : RuleError} (h : op.result.map data = .error e) :
    (carryOut name op data done).response.Refuses e.code e.message := by
  rw [carryOut, map_eq_error_iff.1 h]
  exact Refusal.refuses _

end Operations

theorem toJson_ne_null (t : Rule) : t.toJson ≠ .null := by
  cases t <;> simp [Rule.toJson]

namespace Call

variable {k : Call}

/-- The checks come before anything else, and each of them has a message of its own. -/
theorem refuses_of_not_valid (h : ¬ k.Valid) :
    ∃ message, k.handle.response.Refuses "VALIDATION_ERROR" message := by
  cases k with
  | create q =>
    have hrule : q.rule = "" := not_not.1 h
    rw [handle, CreateRequest.handle, if_pos hrule]
    exact ⟨_, Refusal.noRule.refuses⟩
  | combine q =>
    have hrules : q.rules = [] := not_not.1 h
    rw [handle, CombineRequest.handle, if_pos hrules]
    exact ⟨_, Refusal.noRules.refuses⟩
  | evaluate q =>
    rw [handle, EvaluateRequest.handle]
    by_cases hrule : q.rule = ""
    · rw [if_pos hrule]
      exact ⟨_, Refusal.noRule.refuses⟩
    · rw [if_neg hrule]
      split
      · rename_i members hdata
        exact absurd ⟨hrule, members, hdata⟩ h
      · exact ⟨_, Refusal.noRecord.refuses⟩

/-- A call that passes the checks has its operation carried out, and gets what comes of it. -/
theorem answers_of_valid (h : k.Valid) :
    (∀ data, k.result = .ok data → k.handle.response.Grants data) ∧
      ∀ e, k.result = .error e → k.handle.response.Refuses e.code e.message := by
  cases k with
  | create q =>
    have hrule : q.rule ≠ "" := h
    rw [handle, CreateRequest.handle, if_neg hrule]
    exact ⟨fun _ => grants_carryOut, fun _ => refuses_carryOut⟩
  | combine q =>
    have hrules : q.rules ≠ [] := h
    rw [handle, CombineRequest.handle, if_neg hrules]
    exact ⟨fun _ => grants_carryOut, fun _ => refuses_carryOut⟩
  | evaluate q =>
    obtain ⟨hrule, members, hdata⟩ := h
    rw [handle, EvaluateRequest.handle, if_neg hrule, result, hdata, Operation.evaluate_object]
    exact ⟨fun _ => grants_carryOut, fun _ => refuses_carryOut⟩

/-- What goes wrong in a call that passes the checks goes wrong in the text of a rule. -/
theorem inText_of_result (h : k.Valid) {e : RuleError} (he : k.result = .error e) :
    e.inText = true := by
  cases k with
  | create q => exact Rule.inText_of_read (map_eq_error_iff.1 he)
  | combine q =>
    have hread : Rule.readAll q.rules = .error e := map_eq_error_iff.1 he
    cases e with
    | noRules => exact absurd (Rule.readAll_eq_noRules_iff.1 hread) h
    | _ => rfl
  | evaluate q =>
    obtain hread | ⟨t, -, hpure⟩ := bind_eq_error_iff.1 (map_eq_error_iff.1 he)
    · exact Rule.inText_of_read hread
    · cases hpure

theorem ne_null_of_result {data : Value} (h : k.result = .ok data) : data ≠ .null := by
  cases k with
  | create q =>
    obtain ⟨t, -, rfl⟩ := map_eq_ok_iff.1 h
    exact toJson_ne_null t
  | combine q =>
    obtain ⟨t, -, rfl⟩ := map_eq_ok_iff.1 h
    exact toJson_ne_null t
  | evaluate q =>
    obtain ⟨passed, -, rfl⟩ := map_eq_ok_iff.1 h
    exact Value.noConfusion

/-- Every answer to a call is coherent, be it a refusal, an error or a result. -/
theorem coherent (k : Call) : k.handle.response.Coherent := by
  by_cases hvalid : k.Valid
  · obtain ⟨hok, herror⟩ := answers_of_valid hvalid
    cases hresult : k.result with
    | ok data => exact (hok data hresult).coherent (ne_null_of_result hresult)
    | error e =>
      refine (herror e hresult).coherent ?_ ?_
      · cases e <;> simp [RuleError.code]
      · have hin := inText_of_result hvalid hresult
        cases e with
        | noRules => cases hin
        | _ => simp [RuleError.code]
  · obtain ⟨message, hrefuses⟩ := refuses_of_not_valid hvalid
    exact hrefuses.coherent (by simp) (by simp)

end Call

/-- **The endpoints answer what the operations give.**  Wherever a call stands among the requests
that are served, its payload is what the body says, its answer is coherent, and what the answer
carries follows from the request alone: a call that does not pass the checks is refused by them, and
any other gets what the operation gives for its payload, be it a result or an error. -/
theorem serve_answers (l : Ledger) (before after : List (Circumstances × Request))
    (c : Circumstances) {r : Request} {k : Call} (h : r.Makes k) :
    (∀ v, Value.ofBytes? r.body = some v → k.Agrees v) ∧
      ∃ x, (serve l (before ++ (c, r) :: after)).1[before.length]? = some x ∧ x.request = r ∧
        x.response.content = (handle r).response.content ∧ x.response.Coherent ∧
        (¬ k.Valid → ∃ message, x.response.Refuses "VALIDATION_ERROR" message) ∧
        (k.Valid →
          (∀ data, k.result = .ok data → x.response.Grants data) ∧
            ∀ e, k.result = .error e → x.response.Refuses e.code e.message) := by
  refine ⟨fun v hv => Call.agrees_of_sent h.sent hv, Exchange.of c.fresh r,
    serve_getElem? l before after c r, rfl, ?_, ?_⟩
  · rw [Exchange.of_response]
    rfl
  have hresponse : (Exchange.of c.fresh r).response
      = k.handle.response.setHeader RequestId.header (RequestId.ofRequest c.fresh r).toText := by
    rw [← handle_of_makes h]
    exact Exchange.of_response c.fresh r
  rw [hresponse]
  refine ⟨(Call.coherent k).setHeader _ _, fun hinvalid => ?_, fun hvalid => ?_⟩
  · obtain ⟨message, hrefuses⟩ := Call.refuses_of_not_valid hinvalid
    exact ⟨message, hrefuses.setHeader _ _⟩
  · obtain ⟨hok, herror⟩ := Call.answers_of_valid hvalid
    exact ⟨fun data hdata => (hok data hdata).setHeader _ _,
      fun e he => (herror e he).setHeader _ _⟩

deriving instance DecidableEq for CreateRequest
deriving instance DecidableEq for CombineRequest

/-- Of two rules the second cannot be read, and a request before them has gone wrong in its own way:
the answer carries the error of the second rule.  Behind it a rule sent as an array and a record
sent before its rule are granted what they ask for, and a rule without a record is refused, since
the record that it is given by default is none. -/
theorem serve_answers_of_second_error :
    let post (target body : String) : Request :=
      { method := "POST"
        target
        headers := [("Content-Type", "application/json".toUTF8.toList)]
        body := body.toUTF8.toList }
    let lost : Request := { method := "POST", target := "/create_rule" }
    let combining :=
      post "/combine_rules?x=1" "\x7b\"note\":[1],\"rules\":[\"a = 1\",\"x => 1\"]\x7d"
    let creating := post "/create_rule" "[\"a = 1\"]"
    let evaluating :=
      post "/evaluate_rule" "\x7b\"data\":\x7b\"a\":\"1\"\x7d,\"rule\":\"a = '1'\"\x7d"
    let lacking := post "/evaluate_rule" "\x7b\"rule\":\"a = 1\"\x7d"
    let combine : Call := .combine ⟨["a = 1", "x => 1"]⟩
    let create : Call := .create ⟨"a = 1"⟩
    let evaluate : Call := .evaluate ⟨"a = '1'", .object [("a", .string "1")]⟩
    let lack : Call := .evaluate ⟨"a = 1", .null⟩
    let c : Circumstances := ⟨⟨0, 0, 0⟩, ⟨default, default⟩⟩
    let served := serve {}
      [(c, lost), (c, combining), (c, creating), (c, evaluating), (c, lacking)]
    (combining.Makes combine ∧ combine.Valid ∧
        combine.result = .error (.unsupportedComparison "=>") ∧
        ∃ x, served.1[1]? = some x ∧
          x.response.Refuses "UNSUPPORTED_OPERATOR" "不支持的比较操作符: '=>'") ∧
      (creating.Makes create ∧ create.Valid ∧
        ∃ x, served.1[2]? = some x ∧
          x.response.Grants (Rule.condition ⟨"a", .equal, .integer 1⟩).toJson) ∧
      (evaluating.Makes evaluate ∧ evaluate.Valid ∧
        ∃ x, served.1[3]? = some x ∧ x.response.Grants (.object [("result", .bool true)])) ∧
      lacking.Makes lack ∧ ¬ lack.Valid ∧
        ∃ x message, served.1[4]? = some x ∧ x.response.Refuses "VALIDATION_ERROR" message := by
  intro post lost combining creating evaluating lacking combine create evaluate lack c served
  have hcombining : combining.Makes combine :=
    ⟨rfl, by decide +kernel, by decide +kernel, by decide +kernel, by decide +kernel⟩
  have hcreating : creating.Makes create :=
    ⟨rfl, by decide +kernel, by decide +kernel, by decide +kernel, by decide +kernel⟩
  have hevaluating : evaluating.Makes evaluate :=
    ⟨rfl, by decide +kernel, by decide +kernel, by decide +kernel, by cbv⟩
  have hlacking : lacking.Makes lack :=
    ⟨rfl, by decide +kernel, by decide +kernel, by decide +kernel, by cbv⟩
  have hcombine : combine.Valid := List.cons_ne_nil _ _
  have hcreate : create.Valid := (by decide : "a = 1" ≠ "")
  have hevaluate : evaluate.Valid := ⟨by decide, _, rfl⟩
  have hlack : ¬ lack.Valid := by
    rintro ⟨-, _, hrecord⟩
    cases hrecord
  have hbroken : combine.result = .error (.unsupportedComparison "=>") :=
    map_eq_error_iff.2 (by decide +kernel)
  have hrule : create.result = .ok (Rule.condition ⟨"a", .equal, .integer 1⟩).toJson :=
    map_eq_ok_iff.2 ⟨_, by decide +kernel, rfl⟩
  have hpassed : evaluate.result = .ok (.object [("result", .bool true)]) :=
    map_eq_ok_iff.2 ⟨true, by decide +kernel, rfl⟩
  obtain ⟨-, x, hx, -, -, -, -, hfirst⟩ := serve_answers {} [(c, lost)]
    [(c, creating), (c, evaluating), (c, lacking)] c hcombining
  obtain ⟨-, y, hy, -, -, -, -, hsecond⟩ := serve_answers {} [(c, lost), (c, combining)]
    [(c, evaluating), (c, lacking)] c hcreating
  obtain ⟨-, z, hz, -, -, -, -, hthird⟩ := serve_answers {}
    [(c, lost), (c, combining), (c, creating)] [(c, lacking)] c hevaluating
  obtain ⟨-, w, hw, -, -, -, hrefused, -⟩ := serve_answers {}
    [(c, lost), (c, combining), (c, creating), (c, evaluating)] [] c hlacking
  obtain ⟨message, hmessage⟩ := hrefused hlack
  exact ⟨⟨hcombining, hcombine, hbroken, x, hx, (hfirst hcombine).2 _ hbroken⟩,
    ⟨hcreating, hcreate, y, hy, (hsecond hcreate).1 _ hrule⟩,
    ⟨hevaluating, hevaluate, z, hz, (hthird hevaluate).1 _ hpassed⟩,
    hlacking, hlack, w, message, hw, hmessage⟩

end Http

end Screening
