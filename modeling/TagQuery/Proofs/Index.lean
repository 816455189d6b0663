import Mathlib.Data.List.Induction
import TagQuery.Proofs.Tags

namespace TagQuery.TagSet

/-- The values of the last tag with the given name, none if there is no such tag. -/
inductive LastNamed (name : String) : List Tag → List Value → Prop
  | found (before : List Tag) (tag : Tag) (after : List Tag) (named : tag.name = .text name)
      (last : ∀ other ∈ after, other.name ≠ .text name) :
      LastNamed name (before ++ tag :: after) tag.values
  | absent (tags : List Tag) (none : ∀ other ∈ tags, other.name ≠ .text name) :
      LastNamed name tags []

theorem LastNamed.concat {name : String} {tags : List Tag} {values : List Value} {tag : Tag}
    (named : LastNamed name tags values) (different : tag.name ≠ .text name) :
    LastNamed name (tags ++ [tag]) values := by
  cases named with
  | found before last after named isLast =>
      rw [List.append_assoc, List.cons_append]
      refine .found before last (after ++ [tag]) named ?_
      intro other mem
      rcases List.mem_append.1 mem with mem | mem
      · exact isLast other mem
      · rwa [List.mem_singleton.1 mem]
  | absent _ absent =>
      refine .absent _ ?_
      intro other mem
      rcases List.mem_append.1 mem with mem | mem
      · exact absent other mem
      · rwa [List.mem_singleton.1 mem]

namespace Index

@[simp] theorem get?_cons (index : Index) (key : Value) (values : List Value) (name : Value) :
    get? ((key, values) :: index) name = if name.same key then some values else get? index name := by
  rw [get?, get?, List.find?_cons]
  cases name.same key <;> rfl

@[simp] theorem get?_put_self (index : Index) (name : String) (values : List Value) :
    (put (.text name) values index).get? (.text name) = some values := by
  induction index with
  | nil => simp [put]
  | cons item index ih =>
      obtain ⟨key, old⟩ := item
      by_cases same : key = .text name
      · simp [put, same]
      · simp [put, same, ih]

theorem get?_put_other (index : Index) {name : String} {other : Value} (values : List Value)
    (different : other ≠ .text name) :
    (put other values index).get? (.text name) = index.get? (.text name) := by
  induction index with
  | nil => simp [put, different]
  | cons item index ih =>
      obtain ⟨key, old⟩ := item
      by_cases same : other.same key = true
      · -- A key that is the same as the other name is not the text.
        have distinct : key ≠ .text name := by
          rintro rfl
          exact different (Value.same_text_iff.1 same)
        simp [put, same, distinct]
      · simp [put, same, ih]

@[simp] theorem ofTags_concat (tags : List Tag) (tag : Tag) :
    ofTags (tags ++ [tag]) = put tag.name tag.values (ofTags tags) := by
  simp [ofTags]

theorem get?_ofTags_append (before after : List Tag) {name : String}
    (absent : ∀ tag ∈ after, tag.name ≠ .text name) :
    (ofTags (before ++ after)).get? (.text name) = (ofTags before).get? (.text name) := by
  induction after using List.reverseRecOn with
  | nil => rw [List.append_nil]
  | append_singleton after tag ih =>
      have different : tag.name ≠ .text name := absent tag (by simp)
      rw [← List.append_assoc, ofTags_concat, get?_put_other _ _ different]
      exact ih fun tag mem => absent tag (List.mem_append_left _ mem)

def valuesOf (tags : List Tag) (name : String) : List Value :=
  ((ofTags tags).get? (.text name)).getD []

theorem valuesOf_of_lastNamed {tags : List Tag} {name : String} {values : List Value}
    (named : LastNamed name tags values) : valuesOf tags name = values := by
  cases named with
  | found before tag after named last =>
      rw [valuesOf, List.append_cons, get?_ofTags_append _ _ last]
      simp [named]
  | absent _ absent =>
      have empty := get?_ofTags_append [] tags absent
      rw [List.nil_append] at empty
      rw [valuesOf, empty]
      rfl

theorem lastNamed_valuesOf (tags : List Tag) (name : String) :
    LastNamed name tags (valuesOf tags name) := by
  induction tags using List.reverseRecOn with
  | nil => exact .absent [] (by simp)
  | append_singleton tags tag ih =>
      by_cases named : tag.name = .text name
      · have found := LastNamed.found tags tag [] named (by simp)
        rwa [← valuesOf_of_lastNamed found] at found
      · have same : valuesOf (tags ++ [tag]) name = valuesOf tags name := by
          rw [valuesOf, valuesOf, get?_ofTags_append tags [tag] (by simpa using named)]
        rw [same]
        exact ih.concat named

end Index

end TagQuery.TagSet
