import TagQuery.Proofs.Index

namespace TagQuery.TagSet

theorem ofTags_of_textual {tags : List Tag} (textual : ∀ tag ∈ tags, tag.Textual) :
    ofTags tags = .ok ⟨tags⟩ := by
  have names : Value.Texts (tags.map (·.name)) := by
    intro name mem
    obtain ⟨tag, memTag, rfl⟩ := List.mem_map.1 mem
    exact (textual tag memTag).name
  rw [ofTags, names.hashable]
  rfl

theorem ofTags_of_parsed {tags : List Tag} (parsed : ∀ tag ∈ tags, tag.Parsed) :
    ofTags tags = .ok ⟨tags⟩ := ofTags_of_textual fun tag mem => (parsed tag mem).textual

section
variable {set : TagSet} {candidates : List String}

theorem contains_iff {query : String} :
    set.contains query = true ↔ ∃ tag ∈ set.tags, Tag.Denotes query tag.text := by
  simp [contains, texts, Tag.denotes_iff, eq_comm]

theorem anyOf_iff :
    set.anyOf candidates = true ↔
      ∃ query ∈ candidates, ∃ tag ∈ set.tags, Tag.Denotes query tag.text := by
  simp [anyOf, contains_iff]

theorem allOf_iff :
    set.allOf candidates = true ↔
      ∀ query ∈ candidates, ∃ tag ∈ set.tags, Tag.Denotes query tag.text := by
  simp [allOf, contains_iff]

theorem noneOf_iff :
    set.noneOf candidates = true ↔
      ∀ query ∈ candidates, ∀ tag ∈ set.tags, ¬Tag.Denotes query tag.text := by
  rw [noneOf, Bool.not_eq_true', ← Bool.not_eq_true, anyOf_iff]
  push Not
  rfl

end

theorem valuesFor_iff {set : TagSet} {query : String} (P : List Value → Prop) :
    P (set.valuesFor query).items ↔
      ∃ name values, Tag.Denotes query name ∧ LastNamed name set.tags values ∧ P values := by
  constructor
  · intro holds
    refine ⟨_, _, Tag.denotes_iff.2 rfl, Index.lastNamed_valuesOf _ _, holds⟩
  · rintro ⟨name, values, denotes, named, holds⟩
    rw [← Tag.denotes_iff.1 denotes, ← Index.valuesOf_of_lastNamed named] at *
    exact holds

theorem LastNamed.texts {name : String} {tags : List Tag} {values : List Value}
    (named : LastNamed name tags values) (parsed : ∀ tag ∈ tags, tag.Parsed) :
    Value.Texts values := by
  cases named with
  | found before tag after named last => exact (parsed tag (by simp)).values_texts
  | absent _ absent =>
      intro value mem
      cases mem

theorem valuesFor_texts {set : TagSet} (parsed : ∀ tag ∈ set.tags, tag.Parsed) (query : String) :
    Value.Texts (set.valuesFor query).items :=
  (Index.lastNamed_valuesOf set.tags (Tag.unmarked query)).texts parsed

end TagQuery.TagSet
