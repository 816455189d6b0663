namespace TagQuery

/-- A JSON value with whole numbers and floats apart. The fields of an object have distinct names
and keep the order in which the names first arrived. -/
inductive Value where
  | null
  | bool (b : Bool)
  | int (n : Int)
  | float (x : Float)
  | text (s : String)
  | list (items : List Value)
  | object (fields : List (String × Value))
deriving Inhabited

inductive Kind where
  | null | bool | int | float | text | list | object
deriving DecidableEq, Repr

inductive Fault where
  | notIterable (kind : Kind)
  /-- A text was looked for in a value of this kind. -/
  | notContainer (kind : Kind)
  | notTrimmable (kind : Kind)
  /-- The length of a value of this kind was asked for. -/
  | noLength (kind : Kind)
  | unhashable (kind : Kind)
  /-- The text of a tag is not a text. -/
  | tagText
  | tagLine
  /-- A selector asked whether each value passes, without a test. -/
  | testMissing
  | testsSurplus (count : Nat)
deriving DecidableEq, Repr

def Kind.name : Kind → String
  | .null => "NoneType"
  | .bool => "bool"
  | .int => "int"
  | .float => "float"
  | .text => "str"
  | .list => "list"
  | .object => "dict"

def Fault.message : Fault → String
  | .notIterable kind => "'" ++ kind.name ++ "' object is not iterable"
  | .notContainer kind => "argument of type '" ++ kind.name ++ "' is not iterable"
  | .notTrimmable kind => "'" ++ kind.name ++ "' object has no attribute 'strip'"
  | .noLength kind => "object of type '" ++ kind.name ++ "' has no len()"
  | .unhashable kind => "unhashable type: '" ++ kind.name ++ "'"
  | .tagText => "tag text must be a string"
  | .tagLine => "tag line must be an integer"
  | .testMissing => "Values.is_each() missing 1 required positional argument: 'predicate'"
  | .testsSurplus count =>
    "Values.is_each() takes 2 positional arguments but " ++ toString (count + 1) ++ " were given"

namespace Value

def kind : Value → Kind
  | .null => .null
  | .bool _ => .bool
  | .int _ => .int
  | .float _ => .float
  | .text _ => .text
  | .list _ => .list
  | .object _ => .object

def isTruthy : Value → Bool
  | .null => false
  | .bool b => b
  | .int n => n != 0
  | .float x => !(x == 0)
  | .text s => !s.isEmpty
  | .list items => !items.isEmpty
  | .object fields => !fields.isEmpty

def members : Value → Except Fault (List Value)
  | .text s => .ok (s.toList.map fun c => .text (String.singleton c))
  | .list items => .ok items
  | .object fields => .ok (fields.map fun field => .text field.1)
  | value => .error (.notIterable value.kind)

def length : Value → Except Fault Nat
  | .text s => .ok s.length
  | .list items => .ok items.length
  | .object fields => .ok fields.length
  | value => .error (.noLength value.kind)

def field? (fields : List (String × Value)) (name : String) : Option Value := fields.lookup name

def put (name : String) (value : Value) : List (String × Value) → List (String × Value)
  | [] => [(name, value)]
  | (other, old) :: fields =>
    if other = name then (name, value) :: fields else (other, old) :: put name value fields

end Value

end TagQuery
