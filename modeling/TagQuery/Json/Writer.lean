import TagQuery.Decimal.Text
import TagQuery.Text.Hex
import TagQuery.Text.Pieces
import TagQuery.Value.Basic

namespace TagQuery.Json

def unitEscape (unit : Nat) : List Char := '\\' :: 'u' :: Text.hexDigits 4 unit

def writtenChar (c : Char) : List Char :=
  if c = '"' || c = '\\' then ['\\', c]
  else if c = '\n' then ['\\', 'n']
  else if c = '\r' then ['\\', 'r']
  else if c = '\t' then ['\\', 't']
  else if c = '\x0c' then ['\\', 'f']
  else if c = '\x08' then ['\\', 'b']
  else if ' ' ≤ c && c ≤ '~' then [c]
  else if c.toNat < 0x10000 then unitEscape c.toNat
  else
    let offset := c.toNat - 0x10000
    unitEscape (0xD800 + offset / 0x400) ++ unitEscape (0xDC00 + offset % 0x400)

def writtenText (s : String) : String :=
  String.ofList ('"' :: s.toList.flatMap writtenChar ++ ['"'])

def lineBreak (depth : Nat) : String := String.ofList ('\n' :: List.replicate (4 * depth) ' ')

def bracketed (opening closing : String) (depth : Nat) (parts : List String) : String :=
  if parts.isEmpty then opening ++ closing
  else
    opening ++ lineBreak (depth + 1) ++
      Text.joined ("," ++ lineBreak (depth + 1)) parts ++ lineBreak depth ++ closing

mutual

def write (depth : Nat) : Value → String
  | .null => "null"
  | .bool b => if b then "true" else "false"
  | .int n => toString n
  | .float x => Decimal.reportForm.text x
  | .text s => writtenText s
  | .list items => bracketed "[" "]" depth (writeItems (depth + 1) items)
  | .object fields => bracketed "\x7b" "\x7d" depth (writeFields (depth + 1) fields)

def writeItems (depth : Nat) : List Value → List String
  | [] => []
  | item :: items => write depth item :: writeItems depth items

def writeFields (depth : Nat) : List (String × Value) → List String
  | [] => []
  | (name, value) :: fields =>
    (writtenText name ++ ": " ++ write depth value) :: writeFields depth fields

end

end TagQuery.Json
