import TagQuery.Decimal.Text
import TagQuery.Text.Pieces
import TagQuery.Text.Quoted
import TagQuery.Value.Basic

namespace TagQuery.Value

def commaSeparated (items : List String) : String := Text.joined ", " items

mutual

def literal : Value → String
  | .null => "None"
  | .bool b => if b then "True" else "False"
  | .int n => toString n
  | .float x => Decimal.messageForm.text x
  | .text s => Text.quoted s
  | .list items => "[" ++ commaSeparated (literals items) ++ "]"
  | .object fields => "\x7b" ++ commaSeparated (fieldLiterals fields) ++ "\x7d"

def literals : List Value → List String
  | [] => []
  | item :: items => literal item :: literals items

def fieldLiterals : List (String × Value) → List String
  | [] => []
  | (name, value) :: fields => (Text.quoted name ++ ": " ++ literal value) :: fieldLiterals fields

end

def display : Value → String
  | .text s => s
  | value => value.literal

def tupleOf : List String → String
  | [item] => "(" ++ item ++ ",)"
  | items => "(" ++ commaSeparated items ++ ")"

def tuple (items : List Value) : String := tupleOf (literals items)

def textTuple (items : List String) : String := tupleOf (items.map Text.quoted)

def memberDisplays (value : Value) : Except Fault (List String) :=
  value.members.map fun items => items.map display

end TagQuery.Value
