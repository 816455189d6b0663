namespace TagQuery.Selector

inductive Tree (α : Type) where
  | call (c : α)
  | negation (operand : Tree α)
  | conjunction (left right : Tree α)
  | disjunction (left right : Tree α)
deriving DecidableEq, Repr

namespace Tree

def calls {α : Type} : Tree α → List α
  | call c => [c]
  | negation operand => operand.calls
  | conjunction left right => left.calls ++ right.calls
  | disjunction left right => left.calls ++ right.calls

def map {α β : Type} (f : α → β) : Tree α → Tree β
  | call c => call (f c)
  | negation operand => negation (operand.map f)
  | conjunction left right => conjunction (left.map f) (right.map f)
  | disjunction left right => disjunction (left.map f) (right.map f)

end Tree

end TagQuery.Selector
