import TagQuery.Tag
import TagQuery.TagValues

namespace TagQuery

structure TagSet where
  tags : List Tag

namespace TagSet

abbrev Index := List (Value × List Value)

def Index.put (name : Value) (values : List Value) : Index → Index
  | [] => [(name, values)]
  | (other, old) :: index =>
    if name.same other then (other, values) :: index
    else (other, old) :: Index.put name values index

def Index.get? (index : Index) (name : Value) : Option (List Value) :=
  (index.find? fun item => name.same item.1).map (·.2)

def Index.ofTags (tags : List Tag) : Index :=
  tags.foldl (fun index tag => Index.put tag.name tag.values index) []

def ofTags (tags : List Tag) : Except Fault TagSet := do
  Value.hashable (tags.map (·.name))
  .ok ⟨tags⟩

def empty : TagSet := ⟨[]⟩

def size (set : TagSet) : Nat := set.tags.length

def texts (set : TagSet) : List String := set.tags.map (·.text)

def index (set : TagSet) : Index := Index.ofTags set.tags

def literal (set : TagSet) : String :=
  "TagSet([" ++ Value.commaSeparated (set.texts.map Text.quoted) ++ "])"

/-! ## Queries -/

def contains (set : TagSet) (text : String) : Bool := set.texts.contains (Tag.unmarked text)

def valuesFor (set : TagSet) (name : String) : TagValues :=
  ⟨(set.index.get? (.text (Tag.unmarked name))).getD []⟩

def anyOf (set : TagSet) (candidates : List String) : Bool := candidates.any set.contains

def allOf (set : TagSet) (candidates : List String) : Bool := candidates.all set.contains

def noneOf (set : TagSet) (candidates : List String) : Bool := !set.anyOf candidates

/-! ## Union -/

def add (tags : List Tag) (tag : Tag) : List Tag :=
  if tags.any tag.same then tags else tags ++ [tag]

def distinct (tags : List Tag) : List Tag := tags.foldl add []

def hashable : List Tag → Except Fault Unit
  | [] => .ok ()
  | tag :: tags => do
    tag.hashable
    hashable tags

def union (lists : List (Option (List Tag))) : Except Fault TagSet := do
  let tags := (lists.filterMap id).flatten
  hashable tags
  ofTags (distinct tags)

end TagSet

end TagQuery
