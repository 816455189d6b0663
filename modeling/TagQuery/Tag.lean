import TagQuery.Text.Pieces
import TagQuery.Value.Digest
import TagQuery.Value.Written

/-!
# Tags

A tag is an annotation of a scenario such as `@smoke` or `@env=dev,qa`. Its text is the annotation
without the blanks around it and without one leading `@`; its name is the part before the first
`=`, and its values are the nonempty items of the comma separated list after it. Two tags are the
same when text, name and values are; the line on which a tag stands does not matter.
-/

namespace TagQuery

/-- A line number. A truth value is taken as a number and kept as it is. -/
inductive Line where
  | number (n : Int)
  | flag (b : Bool)
deriving DecidableEq, Repr

namespace Line

def toInt : Line → Int
  | .number n => n
  | .flag b => if b then 1 else 0

def toValue : Line → Value
  | .number n => .int n
  | .flag b => .bool b

def ofValue? : Value → Option Line
  | .int n => some (.number n)
  | .bool b => some (.flag b)
  | _ => none

end Line

structure Tag where
  text : String
  name : Value
  values : List Value
  line : Line

namespace Tag

def unmarked (s : String) : String :=
  match s.toList with
  | '@' :: cs => String.ofList cs
  | _ => s

def marked (s : String) : String := "@" ++ s

def nameOf (cs : List Char) : List Char := cs.takeWhile (· != '=')

def valuesOf (cs : List Char) : List String := Text.commaItems ((cs.dropWhile (· != '=')).drop 1)

def ofText (text : String) (line : Line) : Tag where
  text := text
  name := .text (String.ofList (nameOf text.toList))
  values := (valuesOf text.toList).map .text
  line := line

def ofString (source : String) (line : Line) : Tag :=
  ofText (unmarked (Text.trim source)) line

def read (source line : Value) : Except Fault Tag :=
  match source with
  | .text s =>
    match Line.ofValue? line with
    | some line => .ok (ofString s line)
    | none => .error .tagLine
  | other => .error (.notTrimmable other.kind)

/-- Builds a tag from its parts given as values. Without a name, the text is the name. -/
def build (text name values line : Value) : Except Fault Tag :=
  match text with
  | .text s =>
    match Line.ofValue? line with
    | some line => do
      let values ← values.members
      let name := match name with
        | .null => .text s
        | name => name
      .ok ⟨s, name, values, line⟩
    | none => .error .tagLine
  | _ => .error .tagText

def same (a b : Tag) : Bool :=
  a.text == b.text && a.name.same b.name && Value.sameItems a.values b.values

def sameAsValue (_tag : Tag) (_value : Value) : Bool := false

def hashable (tag : Tag) : Except Fault Unit := Value.hashable (tag.name :: tag.values)

def digest (tag : Tag) : Except Fault (Digest × Digest × List Digest) := do
  tag.hashable
  .ok (.ofText tag.text, .ofValue tag.name, tag.values.map .ofValue)

protected def toString (tag : Tag) : String := marked tag.text

def literal (tag : Tag) : String :=
  "Tag(" ++ Text.quoted tag.toString ++ ", line=" ++ tag.line.toValue.display ++ ")"

structure Entry where
  line : Line
  name : String
deriving DecidableEq, Repr

def Entry.toValue (entry : Entry) : Value :=
  .object [("line", entry.line.toValue), ("name", .text entry.name)]

def entry (tag : Tag) : Entry := ⟨tag.line, tag.toString⟩

end Tag

end TagQuery
