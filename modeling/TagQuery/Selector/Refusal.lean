import TagQuery.Selector.Reader
import TagQuery.Text.Blank

namespace TagQuery.Selector

/-- The text with spaces up to the next multiple of eight columns in place of each tab, where the
first character stands in the given column. -/
def expandTabs (column : Nat) : List Char → List Char
  | [] => []
  | c :: cs =>
    if c = '\t' then List.replicate (8 - column % 8) ' ' ++ expandTabs 0 cs
    else if c = '\n' || c = '\r' then c :: expandTabs 0 cs
    else c :: expandTabs (column + 1) cs

inductive Refusal where
  | notText (value : Value)
  /-- Reading the text stops before its end. -/
  | unreadable (text : List Char) (stop : Stop)

def callForm : String :=
  "\x7bW:($A-Z_a-z, $0-9A-Z_a-z) Group:(\x7bSuppress:('(') [\x7bstring enclosed in \"'\" | " ++
  "string enclosed in '\"'\x7d [\x7bSuppress:(',') \x7bstring enclosed in \"'\" | " ++
  "string enclosed in '\"'\x7d\x7d]...] Suppress:(')')\x7d) [Suppress:('.') " ++
  "W:($A-Z_a-z, $0-9A-Z_a-z) [Group:(\x7bSuppress:('(') [\x7bstring enclosed in \"'\" | " ++
  "string enclosed in '\"'\x7d [\x7bSuppress:(',') \x7bstring enclosed in \"'\" | " ++
  "string enclosed in '\"'\x7d\x7d]...] Suppress:(')')\x7d)]]\x7d"

def Reason.message : Reason → String
  | .operand => "Expected " ++ callForm
  | .unbalanced => "Unbalanced parentheses or expression syntax error"
  | .trailing => "Expected end of text"
  | .call violation => violation.message

def markedLine (text : List Char) (position : Nat) : String :=
  let lineStart := ((text.take position).reverse.takeWhile (· != '\n')).reverse
  let lineEnd := (text.drop position).takeWhile (· != '\n')
  String.ofList (Text.trimBlanks (lineStart ++ "@@@".toList ++ lineEnd))

def Refusal.message : Refusal → String
  | .notText value => "tag expression must be a string, got " ++ value.literal
  | .unreadable text stop =>
    "Error parsing tag expression at \"@@@\": " ++ markedLine text (text.length - stop.left) ++
      " (" ++ stop.reason.message ++ ")"

def readText {α : Type} (check : WrittenCall → Except Violation α) (text : List Char) :
    Except Stop (Tree α) :=
  read check [] none (lexemes text)

def parse (source : String) : Except Refusal Selector :=
  let text := expandTabs 0 source.toList
  (readText WrittenCall.check text).mapError (.unreadable text)

def parseValue : Value → Except Refusal Selector
  | .text source => parse source
  | value => .error (.notText value)

end TagQuery.Selector
