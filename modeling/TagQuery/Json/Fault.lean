namespace TagQuery.Json

inductive Cause where
  | byteOrderMark
  | value
  | name
  | colon
  | comma
  | extra
  | unterminated
  | control
  | escape
  | codeUnit
deriving DecidableEq, Repr

inductive Stop where
  /-- The text is not JSON, found with `left` characters to go. -/
  | cause (cause : Cause) (left : Nat)
  | numeral (digits : Nat)
deriving DecidableEq, Repr

def Cause.message : Cause → String
  | .byteOrderMark => "Unexpected UTF-8 BOM (decode using utf-8-sig)"
  | .value => "Expecting value"
  | .name => "Expecting property name enclosed in double quotes"
  | .colon => "Expecting ':' delimiter"
  | .comma => "Expecting ',' delimiter"
  | .extra => "Extra data"
  | .unterminated => "Unterminated string starting at"
  | .control => "Invalid control character at"
  | .escape => "Invalid \\escape"
  | .codeUnit => "Invalid \\uXXXX escape"

/-- The message of a cause with the place where it was found in a text. Lines and columns are
counted from one, characters from zero. -/
def Cause.messageAt (cause : Cause) (text : List Char) (left : Nat) : String :=
  let before := text.take (text.length - left)
  let line := before.count '\n' + 1
  let column := (before.reverse.takeWhile (· != '\n')).length + 1
  cause.message ++ ": line " ++ toString line ++ " column " ++ toString column ++
    " (char " ++ toString before.length ++ ")"

def numeralMessage (digits : Nat) : String :=
  "Exceeds the limit (4300 digits) for integer string conversion: value has " ++
    toString digits ++ " digits; use sys.set_int_max_str_digits() to increase the limit"

end TagQuery.Json
