import TagQuery.Selector.Refusal
import TagQuery.TagSet

namespace TagQuery

inductive Answer where
  | verdict (holds : Bool)
  | values (values : TagValues)

namespace Answer

def holds : Answer → Bool
  | verdict holds => holds
  | values _ => true

def selects : Answer → Bool
  | verdict holds => holds
  | values _ => false

end Answer

namespace Selector

def Method.evaluate (values : TagValues) : Method → Except Fault Bool
  | .isPresent => .ok values.isPresent
  | .isAnyOf candidates => .ok (values.isAnyOf (candidates.map .text))
  | .isAllOf candidates => .ok (values.isAllOf (candidates.map .text))
  | .isOnly candidates => values.isOnly (candidates.map .text)
  | .isEach [test] => .ok (values.isEachValue (.text test))
  | .isEach [] => .error .testMissing
  | .isEach tests => .error (.testsSurplus tests.length)

def Call.evaluate (set : TagSet) : Call → Except Fault Answer
  | .anyOf candidates => .ok (.verdict (set.anyOf candidates))
  | .allOf candidates => .ok (.verdict (set.allOf candidates))
  | .noneOf candidates => .ok (.verdict (set.noneOf candidates))
  | .valuesFor name none => .ok (.values (set.valuesFor name))
  | .valuesFor name (some method) => (method.evaluate (set.valuesFor name)).map .verdict

def Tree.evaluate (set : TagSet) : Selector → Except Fault Answer
  | .call c => c.evaluate set
  | .negation operand => do
    let answer ← operand.evaluate set
    .ok (.verdict !answer.holds)
  | .conjunction left right => do
    let answer ← left.evaluate set
    if answer.holds then right.evaluate set else .ok answer
  | .disjunction left right => do
    let answer ← left.evaluate set
    if answer.holds then .ok answer else right.evaluate set

end Selector

inductive EvaluationError where
  | refused (refusal : Selector.Refusal)
  | fault (fault : Fault)

namespace EvaluationError

def message : EvaluationError → String
  | .refused reason => reason.message
  | .fault reason => reason.message

end EvaluationError

namespace TagSet

def answer (set : TagSet) (selector : Value) : Except EvaluationError Answer := do
  let tree ← (Selector.parseValue selector).mapError .refused
  (tree.evaluate set).mapError .fault

/-- Whether a selector given as a value selects the set. Without a selector every set is
selected. -/
def isSelectedBy (set : TagSet) (selector : Value) : Except EvaluationError Bool :=
  match selector with
  | .null => .ok true
  | selector => (set.answer selector).map Answer.selects

end TagSet

end TagQuery
