import Screening.Log.Activity
import Screening.Rule.Assembly
import Screening.Rule.Judge

/-!
# The three operations and what they report

Reading a rule, joining several and judging a record are pure; here each of them comes with the
activity it leaves in the log.  An operation is a span of its own, and reports an event when it
succeeds.  Judging with a rule that is already a tree has no span.
-/

set_option autoImplicit false

namespace Screening

open Log (Activity Event Span)

/-- A result together with what its making reported. -/
structure Traced (α : Type) where
  result : α
  activity : Activity

namespace Operation

/-- Where the operations report to. -/
def target : String := "rule_engine::manager"

def span (name : String) (fields : Log.Fields) : Span := { level := .debug, target, name, fields }

def report (message : String) (fields : Log.Fields) : Activity :=
  .event ⟨.debug, target, message, fields⟩

/-- What is reported for a result that may be an error; errors report nothing. -/
def onSuccess {α : Type} (result : Except RuleError α) (f : α → Activity) : List Activity :=
  match result with
  | .ok a => [f a]
  | .error _ => []

def judged (passed : Bool) : Activity := report "规则评估完成" [("passed", .flag passed)]

def create (text : String) : Traced (Except RuleError Rule) :=
  let result := Rule.read text
  let built (t : Rule) := report "规则已构建" [("fields", .count t.fields.length)]
  ⟨result, .span (span "create_rule" [("rule", .quoted text)]) [] (onSuccess result built)⟩

def combine (texts : List String) : Traced (Except RuleError Rule) :=
  let result := Rule.readAll texts
  let joined (_ : Rule) := report "规则已合并" [("rules", .count texts.length)]
  ⟨result, .span (span "combine_rules" []) [] (onSuccess result joined)⟩

section

variable {ρ : Type} [Record ρ]

def evaluateTree (t : Rule) (r : ρ) : Traced Bool :=
  let passed := t.passes r
  ⟨passed, judged passed⟩

def evaluate (text : String) (r : ρ) : Traced (Except RuleError Bool) :=
  let result := return (← Rule.read text).passes r
  ⟨result, .span (span "evaluate_rule" [("rule", .quoted text)]) [] (onSuccess result judged)⟩

end

end Operation

end Screening
