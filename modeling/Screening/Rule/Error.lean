/-!
# Why a rule is refused

The causes are told apart as data; `RuleError.message` holds the wording that callers see and
`RuleError.code` the code that answers and counters carry.
-/

set_option autoImplicit false

namespace Screening

/-- A rule text that does not come out as one complete tree. -/
inductive Malformation where
  | noLeftSide
  | emptyGroup
  | noRightSideBeforeClosing
  | nothingPending
  | unclosed (count : Nat)
  | leftover (lexeme : String)
  | rootCount (count : Nat)
  | noRightSide
  deriving DecidableEq

def Malformation.message : Malformation → String
  | noLeftSide => "连接词缺少左操作数"
  | emptyGroup => "括号内缺少比较条件"
  | noRightSideBeforeClosing => "')' 之前缺少右操作数"
  | nothingPending => "没有等待右操作数的连接词"
  | unclosed n => "存在 " ++ String.ofList (Nat.toDigits 10 n) ++ " 个未闭合的 '('"
  | leftover lexeme => "无法归约的词法单元: '" ++ lexeme ++ "'"
  | rootCount n => "构建结束时应只剩一个根节点，实际有 " ++ String.ofList (Nat.toDigits 10 n) ++ " 个"
  | noRightSide => "连接词缺少右操作数"

/-- A closing bracket that finds no opening one. -/
inductive Imbalance where
  | strayClosing
  | noOpeningBefore
  deriving DecidableEq

def Imbalance.message : Imbalance → String
  | strayClosing => "')' 没有对应的 '('"
  | noOpeningBefore => "')' 之前的元素不是 '('"

inductive RuleError where
  | unsupportedComparison (symbol : String)
  | malformed (cause : Malformation)
  | unbalanced (cause : Imbalance)
  | noRules
  deriving DecidableEq

namespace RuleError

def message : RuleError → String
  | unsupportedComparison symbol => "不支持的比较操作符: '" ++ symbol ++ "'"
  | malformed cause => "规则格式错误: " ++ cause.message
  | unbalanced cause => "括号不匹配: " ++ cause.message
  | noRules => "规则列表不能为空"

def code : RuleError → String
  | unsupportedComparison _ => "UNSUPPORTED_OPERATOR"
  | malformed _ => "MALFORMED_RULE"
  | unbalanced _ => "MISMATCHED_PARENTHESES"
  | noRules => "EMPTY_INPUT"

/-- Whether the fault lies in a rule text, and not in there being none. -/
def inText : RuleError → Bool
  | noRules => false
  | _ => true

end RuleError

end Screening
