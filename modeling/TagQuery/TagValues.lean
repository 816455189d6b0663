import TagQuery.Value.Members
import TagQuery.Value.Written

namespace TagQuery

structure TagValues where
  items : List Value

namespace TagValues

def ofValue (container : Value) : Except Fault TagValues :=
  if container.isTruthy then container.members.map TagValues.mk else .ok ⟨[]⟩

def isPresent (values : TagValues) : Bool := !values.items.isEmpty

def isAnyOf (values : TagValues) (candidates : List Value) : Bool :=
  candidates.any (·.isIn values.items)

def isAllOf (values : TagValues) (candidates : List Value) : Bool :=
  candidates.all (·.isIn values.items)

def isOnly (values : TagValues) (candidates : List Value) : Except Fault Bool := do
  Value.hashable values.items
  Value.hashable candidates
  .ok ((Members.ofValues values.items).same (.ofValues candidates))

def isTrue : Value → Bool
  | .bool true => true
  | _ => false

/-- The course of a test over values: those it was put to, in order, and the answer. -/
structure Trial (ε : Type) where
  seen : List Value
  answer : Except ε Bool

/-- Puts each value to a test until one does not pass, where to pass is to answer exactly true. The
test may depend on the values that were put to it before. -/
def trialOf {ε : Type} (test : List Value → Value → Except ε Value) (before : List Value) :
    List Value → Trial ε
  | [] => ⟨[], .ok true⟩
  | value :: values =>
    match test before value with
    | .error e => ⟨[value], .error e⟩
    | .ok answer =>
      if isTrue answer then
        let rest := trialOf test (before ++ [value]) values
        ⟨value :: rest.seen, rest.answer⟩
      else ⟨[value], .ok false⟩

def isEachInTurn {ε : Type} (values : TagValues) (test : List Value → Value → Except ε Value) :
    Trial ε := trialOf test [] values.items

def isEach {ε : Type} (values : TagValues) (test : Value → Except ε Value) : Trial ε :=
  values.isEachInTurn fun _ => test

/-- Whether each value passes what is given in place of a test: a value is no test, and nothing
passes it. -/
def isEachValue (_values : TagValues) (_notTest : Value) : Bool := false

def literal (values : TagValues) : String := "Values(" ++ Value.tuple values.items ++ ")"

end TagValues

end TagQuery
