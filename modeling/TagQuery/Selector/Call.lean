import TagQuery.Selector.Tree
import TagQuery.Value.Written

namespace TagQuery.Selector

/-- A method as written. Its arguments may be left out with their parentheses. -/
structure WrittenMethod where
  name : String
  arguments : Option (List String)
deriving DecidableEq, Repr

structure WrittenCall where
  function : String
  arguments : List String
  method : Option WrittenMethod
deriving DecidableEq, Repr

inductive Violation where
  | unknownFunction (name : String)
  | valuesForArity
  | methodWithoutValues (method : String)
  | unknownMethod (method : String)
  | isPresentArguments
  | methodNotCalled (method : String)
deriving DecidableEq, Repr

def Violation.message : Violation → String
  | .unknownFunction name => "unknown function '" ++ name ++ "'"
  | .valuesForArity => "'valuesFor' takes exactly one argument"
  | .methodWithoutValues method =>
    "method '" ++ method ++ "' can only be called on the result of 'valuesFor'"
  | .unknownMethod method => "unknown method '" ++ method ++ "'"
  | .isPresentArguments => "'isPresent' takes no arguments"
  | .methodNotCalled method => "'" ++ method ++ "' must be called"

inductive Method where
  | isPresent
  | isAnyOf (candidates : List String)
  | isAllOf (candidates : List String)
  | isOnly (candidates : List String)
  | isEach (tests : List String)
deriving DecidableEq, Repr

inductive Call where
  | anyOf (candidates : List String)
  | allOf (candidates : List String)
  | noneOf (candidates : List String)
  | valuesFor (name : String) (method : Option Method)
deriving DecidableEq, Repr

end TagQuery.Selector

namespace TagQuery

abbrev Selector := Selector.Tree Selector.Call

end TagQuery

namespace TagQuery.Selector

/-! ## Reading and writing methods and calls -/

def Method.named? : String → Option (List String → Method)
  | "isAnyOf" => some .isAnyOf
  | "isAllOf" => some .isAllOf
  | "isOnly" => some .isOnly
  | "isEach" => some .isEach
  | _ => none

def WrittenMethod.check (method : WrittenMethod) : Except Violation Method :=
  if method.name = "isPresent" then
    match method.arguments with
    | some (_ :: _) => .error .isPresentArguments
    | _ => .ok .isPresent
  else match Method.named? method.name with
    | none => .error (.unknownMethod method.name)
    | some make =>
      match method.arguments with
      | none => .error (.methodNotCalled method.name)
      | some candidates => .ok (make candidates)

def WrittenCall.checkPlain (call : WrittenCall) (make : List String → Call) :
    Except Violation Call :=
  match call.method with
  | some method => .error (.methodWithoutValues method.name)
  | none => .ok (make call.arguments)

def WrittenCall.check (call : WrittenCall) : Except Violation Call :=
  match call.function with
  | "anyOf" => call.checkPlain .anyOf
  | "allOf" => call.checkPlain .allOf
  | "not" => call.checkPlain .noneOf
  | "valuesFor" =>
    match call.arguments with
    | [name] =>
      match call.method with
      | none => .ok (.valuesFor name none)
      | some method => method.check.map fun method => .valuesFor name (some method)
    | _ => .error .valuesForArity
  | name => .error (.unknownFunction name)

def Method.written : Method → WrittenMethod
  | .isPresent => ⟨"isPresent", some []⟩
  | .isAnyOf candidates => ⟨"isAnyOf", some candidates⟩
  | .isAllOf candidates => ⟨"isAllOf", some candidates⟩
  | .isOnly candidates => ⟨"isOnly", some candidates⟩
  | .isEach tests => ⟨"isEach", some tests⟩

def Call.written : Call → WrittenCall
  | .anyOf candidates => ⟨"anyOf", candidates, none⟩
  | .allOf candidates => ⟨"allOf", candidates, none⟩
  | .noneOf candidates => ⟨"not", candidates, none⟩
  | .valuesFor name method => ⟨"valuesFor", [name], method.map Method.written⟩

@[simp] theorem Method.check_written (method : Method) : method.written.check = .ok method := by
  cases method <;> rfl

@[simp] theorem Call.check_written (call : Call) : call.written.check = .ok call := by
  cases call with
  | valuesFor name method =>
    cases method with
    | none => rfl
    | some method =>
      simp only [Call.written, WrittenCall.check, Option.map_some, Method.check_written]
      rfl
  | _ => rfl

/-! ## Literals -/

def Call.literal (call : Call) : String :=
  let written := call.written
  let absent := Value.null.literal
  let method := (written.method.map fun method => Text.quoted method.name).getD absent
  let arguments := (written.method.bind (·.arguments)).map Value.textTuple |>.getD absent
  Value.tupleOf
    [Text.quoted "call", Text.quoted written.function, Value.textTuple written.arguments, method,
      arguments]

def Tree.literal : Selector → String
  | .call c => c.literal
  | .negation operand => Value.tupleOf [Text.quoted "!", literal operand]
  | .conjunction left right => Value.tupleOf [Text.quoted "&&", literal left, literal right]
  | .disjunction left right => Value.tupleOf [Text.quoted "||", literal left, literal right]

end TagQuery.Selector
