import TagQuery.Text.Pieces
import TagQuery.Value.Equality
import TagQuery.Value.Written

/-!
# Filters

An older way to choose scenarios: a list of filters that all have to match. A filter is a comma
separated list of tags of which one has to be present, or `~` and a tag that has to be absent. The
filters are turned into a selector text. A filter that holds an opening parenthesis is taken for a
selector already and stands for the whole list.
-/

namespace TagQuery.Filter

inductive Clause where
  | absent (tag : String)
  /-- A tag has one of the texts. -/
  | present (alternatives : List String)
deriving DecidableEq, Repr

def Clause.ofFilter (filter : String) : Clause :=
  match filter.toList with
  | '~' :: cs => .absent (String.ofList cs)
  | cs => .present (Text.commaItems cs)

def tagLiteral (tag : String) : String := "'" ++ tag ++ "'"

def Clause.text : Clause → String
  | .absent tag => "not(" ++ tagLiteral tag ++ ")"
  | .present alternatives =>
    "anyOf(" ++ Text.joined "," (alternatives.map tagLiteral) ++ ")"

inductive Conversion where
  | verbatim (filter : Value)
  /-- All filters, without the blanks at their ends, have to match. -/
  | clauses (filters : List String)

/-- Whether a value holds an opening parenthesis: a text as a character, a list as an item, an
object as the name of a field. -/
def holdsParenthesis : Value → Except Fault Bool
  | .text s => .ok (s.toList.contains '(')
  | .list items => .ok ((Value.text "(").isIn items)
  | .object fields => .ok (fields.any fun field => field.1 == "(")
  | value => .error (.notContainer value.kind)

def findSelector : List Value → Except Fault (Option Value)
  | [] => .ok none
  | .null :: filters => findSelector filters
  | filter :: filters => do
    if ← holdsParenthesis filter then .ok (some filter) else findSelector filters

def trimmed (filter : Value) : Except Fault String :=
  match filter with
  | .text s => .ok (Text.trim s)
  | filter => if filter.isTruthy then .error (.notTrimmable filter.kind) else .ok ""

def trimmedAll : List Value → Except Fault (List String)
  | [] => .ok []
  | filter :: filters => do
    let first ← trimmed filter
    let rest ← trimmedAll filters
    .ok (first :: rest)

def convert (filters : List Value) : Except Fault Conversion := do
  match ← findSelector filters with
  | some filter => .ok (.verbatim filter)
  | none => .ok (.clauses (← trimmedAll filters))

theorem findSelector_texts (filters : List String) :
    ∃ found, findSelector (filters.map .text) = .ok found := by
  induction filters with
  | nil => exact ⟨none, rfl⟩
  | cons filter filters ih =>
    simp only [List.map_cons, findSelector, holdsParenthesis, bind, Except.bind]
    split
    · exact ⟨_, rfl⟩
    · exact ih

theorem trimmedAll_texts (filters : List String) :
    trimmedAll (filters.map .text) = .ok (filters.map Text.trim) := by
  induction filters with
  | nil => rfl
  | cons filter filters ih => simp [trimmedAll, trimmed, ih, bind, Except.bind]

theorem isSome_convert_texts (filters : List String) :
    (convert (filters.map .text)).toOption.isSome = true := by
  obtain ⟨found, finds⟩ := findSelector_texts filters
  cases found <;> simp [convert, finds, trimmedAll_texts, bind, Except.bind, Except.toOption]

def convertTexts (filters : List String) : Conversion :=
  (convert (filters.map .text)).toOption.get (isSome_convert_texts filters)

def listOf (filters : Value) : Except Fault (Option (List Value)) :=
  match filters with
  | .text s => .ok (some [.text s])
  | filters => if filters.isTruthy then filters.members.map some else .ok none

def selectorText (filters : List String) : String :=
  Text.joined " && " (filters.map fun filter => (Clause.ofFilter filter).text)

def Conversion.selector : Conversion → Value
  | .verbatim filter => filter
  | .clauses filters => .text (selectorText filters)

def toSelector (filters : Value) : Except Fault (Option Value) := do
  match ← listOf filters with
  | none => .ok none
  | some list => .ok (some (← convert list).selector)

end TagQuery.Filter
