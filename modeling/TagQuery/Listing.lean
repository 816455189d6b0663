import TagQuery.Json.Reader
import TagQuery.Tag
import TagQuery.Text.Utf8

/-!
# Listings

A listing is a JSON list of features, each with a name, tags and scenarios; a scenario has a name, a
line and tags. A tag is an annotation or a record of an annotation and its line. `Listing.read`
reads the bytes of a file; `Listing.ofValue` interprets the value in it.
-/

namespace TagQuery

/-- A scenario. Its name and its line are whatever the listing has in their place. -/
structure Scenario where
  name : Value
  line : Value
  tags : List Tag

structure Feature where
  name : Value
  tags : List Tag
  scenarios : List Scenario

namespace Listing

inductive Malformed where
  | notList
  | feature (index : Nat)
  | scenario (feature : Value) (index : Nat)
  | tag (names : List Value) (item : Value)

inductive Failure where
  | missing
  /-- The bytes are not a text. -/
  | undecodable (fault : Text.Utf8.Fault)
  | notJson (text : List Char) (cause : Json.Cause) (left : Nat)
  /-- A whole number has too many digits. -/
  | numeral (digits : Nat)
  | malformed (what : Malformed)
  /-- A value of a wrong kind stands where a list is expected. -/
  | fault (fault : Fault)

def Malformed.message (path : String) : Malformed → String
  | .notList => path ++ ": expected a list of features"
  | .feature index => path ++ ": feature #" ++ toString index ++ " is not an object"
  | .scenario owner index =>
    owner.display ++ ": scenario #" ++ toString index ++ " is not an object"
  | .tag names item =>
    Text.joined ": " (names.map Value.display) ++
      ": don't know how to interpret tag " ++ item.literal

def Failure.message (path : String) : Failure → String
  | .missing => "[Errno 2] No such file or directory: " ++ Text.quoted path
  | .undecodable reason => reason.message
  | .notJson text cause left => "error parsing " ++ path ++ ": " ++ cause.messageAt text left
  | .numeral digits => Json.numeralMessage digits
  | .malformed what => what.message path
  | .fault reason => reason.message

/-- Whether a failure is about what stands in the file rather than about the file or a kind of
value that nothing looks for. -/
def Failure.isContent : Failure → Bool
  | .notJson .. => true
  | .malformed _ => true
  | _ => false

/-! ## Tags -/

/-- The tag that an item of a list of tags stands for. A record has a text under `name` and may have
a line. -/
def tagOf? : Value → Option Tag
  | .text source => some (Tag.ofString source (.number 0))
  | .object fields =>
    let line := (Value.field? fields "line").getD (.int 0)
    match Value.field? fields "name", Line.ofValue? line with
    | some (.text source), some line => some (Tag.ofString source line)
    | _, _ => none
  | _ => none

def tagsOf (names : List Value) : List Value → Except Failure (List Tag)
  | [] => .ok []
  | item :: items =>
    match tagOf? item with
    | none => .error (.malformed (.tag names item))
    | some tag => (tagsOf names items).map (tag :: ·)

def membersOf (value : Value) : Except Failure (List Value) := value.members.mapError .fault

def tagsIn (names : List Value) (fields : List (String × Value)) : Except Failure (List Tag) := do
  let value := (Value.field? fields "tags").getD .null
  if value.isTruthy then tagsOf names (← membersOf value) else .ok []

/-! ## Features and scenarios -/

def nameIn (fields : List (String × Value)) (kind : String) (index : Nat) : Value :=
  (Value.field? fields "name").getD (.text (kind ++ " #" ++ toString index))

def scenarioOf (feature : Value) (index : Nat) (fields : List (String × Value)) :
    Except Failure Scenario := do
  let name := nameIn fields "scenario" index
  let tags ← tagsIn [feature, name] fields
  .ok ⟨name, (Value.field? fields "line").getD (.int 0), tags⟩

def scenariosOf (feature : Value) (index : Nat) : List Value → Except Failure (List Scenario)
  | [] => .ok []
  | .object fields :: items => do
    let scenario ← scenarioOf feature index fields
    let rest ← scenariosOf feature (index + 1) items
    .ok (scenario :: rest)
  | _ => .error (.malformed (.scenario feature index))

def featureOf (index : Nat) (fields : List (String × Value)) : Except Failure Feature := do
  let name := nameIn fields "feature" index
  let items ← membersOf ((Value.field? fields "scenarios").getD (.list []))
  let scenarios ← scenariosOf name 0 items
  let tags ← tagsIn [name] fields
  .ok ⟨name, tags, scenarios⟩

def featuresOf (index : Nat) : List Value → Except Failure (List Feature)
  | [] => .ok []
  | .object fields :: items => do
    let feature ← featureOf index fields
    let rest ← featuresOf (index + 1) items
    .ok (feature :: rest)
  | _ => .error (.malformed (.feature index))

def ofValue : Value → Except Failure (List Feature)
  | .list items => featuresOf 0 items
  | _ => .error (.malformed .notList)

/-! ## Files -/

def unifyLineEnds : List Char → List Char
  | [] => []
  | '\r' :: '\n' :: cs => '\n' :: unifyLineEnds cs
  | '\r' :: cs => '\n' :: unifyLineEnds cs
  | c :: cs => c :: unifyLineEnds cs

def ofText (text : List Char) : Except Failure (List Feature) :=
  match Json.read text with
  | .ok value => ofValue value
  | .error (.cause cause left) => .error (.notJson text cause left)
  | .error (.numeral digits) => .error (.numeral digits)

def read (bytes : List UInt8) : Except Failure (List Feature) := do
  let text ← (Text.Utf8.decode bytes).mapError .undecodable
  ofText (unifyLineEnds text)

def ofFile : Option (List UInt8) → Except Failure (List Feature)
  | some bytes => read bytes
  | none => .error .missing

end Listing

end TagQuery
