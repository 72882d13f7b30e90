import Screening.Http.Payload
import Screening.Http.RequestId
import Screening.Metrics.Ledger
import Screening.Operation
import Screening.Rule.Json

/-!
# The service

Four paths are served: one for each operation and one that tells that the service is up.  A request
passes through these checks in turn, and the first that it fails decides the response: the path, the
method, the media type, the size of the body, its JSON, its shape, what it says, and at last the
rule itself.

Whatever comes of a request, the exchange is identified, reported as a span and counted.  An
operation is counted when it is carried out, that is from the point on where nothing but the rule
can be at fault.
-/

set_option autoImplicit false

namespace Screening.Http

open Json (Value)
open Log (Activity)
open Metrics (Ledger OperationLabels RequestLabels)

inductive Endpoint where
  | create
  | combine
  | evaluate
  | health
  deriving DecidableEq

namespace Endpoint

def path : Endpoint → String
  | create => "/create_rule"
  | combine => "/combine_rules"
  | evaluate => "/evaluate_rule"
  | health => "/health"

def all : List Endpoint := [create, combine, evaluate, health]

def ofPath? (path : String) : Option Endpoint := all.find? (·.path = path)

def methods : Endpoint → List String
  | health => ["GET", "HEAD"]
  | _ => ["POST"]

end Endpoint

/-- What is wrong with a request of the right shape. -/
inductive Refusal where
  | noRule
  | noRules
  | noRecord
  | rule (e : RuleError)
  deriving DecidableEq

namespace Refusal

def code : Refusal → String
  | rule e => e.code
  | _ => "VALIDATION_ERROR"

def message : Refusal → String
  | noRule => "参数验证失败: rule: 规则不能为空"
  | noRules => "参数验证失败: rules: 规则列表不能为空"
  | noRecord => "参数验证失败: data 必须是 JSON 对象"
  | rule e => e.message

def response (r : Refusal) : Response := .of 400 <| .json <| .object
  [("success", .bool false), ("code", .string r.code), ("message", .string r.message),
   ("data", .null)]

end Refusal

def success (data : Value) : Response := .of 200 <| .json <| .object
  [("success", .bool true), ("code", .string "SUCCESS"), ("message", .string "操作成功"),
   ("data", data)]

/-- How a request has been handled: the response so far, what was reported meanwhile, and the
operation to be counted, if one was carried out. -/
structure Handling where
  response : Response
  activity : List Activity := []
  operation : Option OperationLabels := none

namespace Handling

def refuse (r : Refusal) : Handling := { response := r.response }

def report (message : String) (fields : Log.Fields) : Activity :=
  .event ⟨.info, "rule_engine::http::handlers", message, fields⟩

/-- Carries out an operation; `data` is what the response holds of its result. -/
def carryOut {α : Type} (name : String) (op : Traced (Except RuleError α)) (data : α → Value)
    (done : α → Activity) : Handling :=
  match op.result with
  | .ok a => ⟨success (data a), [op.activity, done a], some ⟨name, "success"⟩⟩
  | .error e => ⟨(Refusal.rule e).response, [op.activity], some ⟨name, e.code⟩⟩

end Handling

open Handling (refuse report carryOut)

def CreateRequest.handle (q : CreateRequest) : Handling :=
  if q.rule = "" then refuse .noRule
  else carryOut "create" (Operation.create q.rule) Rule.toJson fun t =>
    report "规则已创建" [("fields", .count t.fields.length)]

def CombineRequest.handle (q : CombineRequest) : Handling :=
  if q.rules = [] then refuse .noRules
  else carryOut "combine" (Operation.combine q.rules) Rule.toJson fun _ =>
    report "规则已合并" [("rules", .count q.rules.length)]

def EvaluateRequest.handle (q : EvaluateRequest) : Handling :=
  if q.rule = "" then refuse .noRule
  else match q.data with
    | .object record =>
      carryOut "evaluate" (Operation.evaluate q.rule record)
        (fun result => .object [("result", .bool result)])
        fun result => report "规则已评估" [("result", .flag result)]
    | _ => refuse .noRecord

/-! ## Routing -/

/-- The greatest body that is taken, in bytes. -/
def bodyLimit : Nat := 2 * 1024 * 1024

def sendsJson (r : Request) : Bool :=
  match (r.header? "content-type").bind headerText? with
  | some text => (MediaType.ofText? text.toList).any MediaType.isJson
  | none => false

def Fault.response : Fault → Response
  | unreadable => .of 400 (.text "Failed to parse the request body as JSON")
  | misshapen => .of 422 (.text "Failed to deserialize the JSON body into the target type")

/-- Handles a request by its payload, once the body has been taken and read. -/
def withPayload {σ : Type} (ofBody : List UInt8 → Except Fault σ) (handle : σ → Handling)
    (r : Request) : Handling :=
  if !sendsJson r then
    { response := .of 415 (.text "Expected request with \x60Content-Type: application/json\x60") }
  else if bodyLimit < r.body.length then
    { response := .of 413 (.text "Failed to buffer the request body") }
  else match ofBody r.body with
    | .ok q => handle q
    | .error e => { response := e.response }

/-- What an endpoint does with a request by a method that it serves. -/
def Endpoint.handle (e : Endpoint) (r : Request) : Handling :=
  match e with
  | create => withPayload CreateRequest.ofBody CreateRequest.handle r
  | combine => withPayload CombineRequest.ofBody CombineRequest.handle r
  | evaluate => withPayload EvaluateRequest.ofBody EvaluateRequest.handle r
  | health => { response := .of 200 (.text (if r.method = "HEAD" then "" else "OK")) }

def handle (r : Request) : Handling :=
  match Endpoint.ofPath? r.path with
  | none => { response := .of 404 .nothing }
  | some e =>
    if r.method ∈ e.methods then e.handle r
    else
      { response := (Response.of 405 .nothing).setHeader "allow" (",".intercalate e.methods) }

/-! ## Exchanges -/

/-- A request with what has come of it. -/
structure Exchange where
  request : Request
  id : RequestId
  response : Response
  span : Log.Span
  late : Log.Fields
  inside : List Activity
  operation : Option OperationLabels

namespace Exchange

/-- The span of a request with the identifier that it has been given; the text is empty if it has
been given none. -/
def spanOf (id? : Option RequestId) (r : Request) : Log.Span :=
  let id := (id?.map RequestId.toText).getD ""
  { level := .info
    target := "rule_shared::observability::middleware"
    name := "http_request"
    fields := [("method", .bare r.method), ("uri", .bare r.path), ("request_id", .bare id)]
    awaited := ["status", "latency_ms"] }

/-- The exchange that a request opens; `fresh` serves as its identifier if it sends none. -/
def of (fresh : Uuid) (r : Request) : Exchange :=
  let id := RequestId.ofRequest fresh r
  let h := handle r
  { request := r
    id
    response := id.writeTo h.response
    span := spanOf (some id) r
    late := [("status", .count h.response.status)]
    inside := h.activity
    operation := h.operation }

/-- The identifier is written into every response. -/
theorem of_response (fresh : Uuid) (r : Request) :
    (of fresh r).response =
      (handle r).response.setHeader RequestId.header (RequestId.ofRequest fresh r).toText :=
  RequestId.writeTo_ofRequest fresh r _

def activity (x : Exchange) : Activity := .span x.span x.late x.inside

def labels (x : Exchange) : RequestLabels := ⟨x.request.method, x.request.path, x.response.status⟩

/-- How long an exchange took, and the operation in it. -/
structure Times where
  whole : Binary64
  operation : Binary64

/-- Counts an exchange, and the operation in it. -/
def count (t : Times) (x : Exchange) (l : Ledger) : Ledger :=
  let l := match x.operation with
    | some labels => l.recordOperation labels t.operation
    | none => l
  l.recordRequest x.labels t.whole

end Exchange

/-- What a request does not say: fresh bits for an identifier, and the times that it will take. -/
structure Circumstances where
  fresh : Uuid
  times : Exchange.Times

/-- Serves requests one after the other; the exchanges in order and the ledger afterwards. -/
def serve (l : Ledger) : List (Circumstances × Request) → List Exchange × Ledger
  | [] => ([], l)
  | (c, r) :: rest =>
    let x := Exchange.of c.fresh r
    let (xs, l) := serve (x.count c.times l) rest
    (x :: xs, l)

end Screening.Http
