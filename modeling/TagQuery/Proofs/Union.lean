import Mathlib.Data.List.Nodup
import TagQuery.Proofs.Queries

namespace TagQuery.TagSet

/-- Each tag of one list is the same as a tag of the other, whatever their order, number and
lines. -/
structure SameMembers (tags others : List Tag) : Prop where
  forward : ∀ tag ∈ tags, ∃ other ∈ others, tag.same other = true
  backward : ∀ other ∈ others, ∃ tag ∈ tags, other.same tag = true

theorem sameMembers_iff {tags others : List Tag} (parsed : ∀ tag ∈ tags, tag.Parsed)
    (parsedOthers : ∀ tag ∈ others, tag.Parsed) :
    SameMembers tags others ↔
      ∀ text, text ∈ tags.map (·.text) ↔ text ∈ others.map (·.text) := by
  -- One half: what it takes for the texts of one list to be texts of the other.
  have subset_iff {tags others : List Tag} (parsed : ∀ tag ∈ tags, tag.Parsed)
      (parsedOthers : ∀ tag ∈ others, tag.Parsed) :
      (∀ tag ∈ tags, ∃ other ∈ others, tag.same other = true) ↔
        ∀ text ∈ tags.map (·.text), text ∈ others.map (·.text) := by
    rw [List.forall_mem_map]
    refine forall₂_congr fun tag mem => ?_
    rw [List.mem_map]
    refine exists_congr fun other => and_congr_right fun memOther => ?_
    rw [(parsed tag mem).same_iff (parsedOthers other memOther)]
    exact eq_comm
  constructor
  · intro same text
    exact ⟨(subset_iff parsed parsedOthers).1 same.forward text,
      (subset_iff parsedOthers parsed).1 same.backward text⟩
  · intro same
    exact ⟨(subset_iff parsed parsedOthers).2 fun text => (same text).1,
      (subset_iff parsedOthers parsed).2 fun text => (same text).2⟩

/-! ## Distinct tags -/

@[simp] theorem distinct_concat (tags : List Tag) (tag : Tag) :
    distinct (tags ++ [tag]) = add (distinct tags) tag := by
  simp [distinct]

theorem distinct_subset (tags : List Tag) : distinct tags ⊆ tags := by
  induction tags using List.reverseRecOn with
  | nil => exact List.Subset.refl _
  | append_singleton tags tag ih =>
      rw [distinct_concat, add]
      split
      · exact fun _ mem => List.mem_append_left _ (ih mem)
      · exact List.append_subset.2 ⟨fun _ mem => List.mem_append_left _ (ih mem), by simp⟩

theorem any_same_iff {tags : List Tag} {tag : Tag} (textual : ∀ tag ∈ tags, tag.Textual) :
    tags.any tag.same = true ↔ tag.key ∈ tags.map Tag.key := by
  rw [List.any_eq_true, List.mem_map]
  refine exists_congr fun other => and_congr_right fun mem => ?_
  rw [(textual other mem).same_iff]
  exact eq_comm

theorem add_of_mem {tags : List Tag} {tag : Tag} (textual : ∀ tag ∈ tags, tag.Textual)
    (known : tag.key ∈ tags.map Tag.key) : add tags tag = tags :=
  if_pos ((any_same_iff textual).2 known)

theorem add_of_not_mem {tags : List Tag} {tag : Tag} (textual : ∀ tag ∈ tags, tag.Textual)
    (new : tag.key ∉ tags.map Tag.key) : add tags tag = tags ++ [tag] :=
  if_neg (new ∘ (any_same_iff textual).1)

inductive FirstOf : List Tag → Tag → Prop where
  | first (before : List Tag) (tag : Tag) (after : List Tag)
      (new : ∀ other ∈ before, other.same tag = false) : FirstOf (before ++ tag :: after) tag

theorem FirstOf.append {tags : List Tag} {tag : Tag} (first : FirstOf tags tag)
    (more : List Tag) : FirstOf (tags ++ more) tag := by
  cases first with
  | first before _ after new =>
      rw [List.append_assoc, List.cons_append]
      exact .first before tag (after ++ more) new

structure Keeps (tags kept : List Tag) : Prop where
  first : ∀ tag ∈ kept, FirstOf tags tag
  keys : ∀ key, key ∈ kept.map Tag.key ↔ key ∈ tags.map Tag.key
  nodup : (kept.map Tag.key).Nodup

theorem Keeps.subset {tags kept : List Tag} (keeps : Keeps tags kept) : kept ⊆ tags := by
  intro tag mem
  cases keeps.first tag mem with
  | first before _ after => simp

theorem Keeps.add {tags kept : List Tag} {tag : Tag} (keeps : Keeps tags kept)
    (textual : ∀ other ∈ tags ++ [tag], other.Textual) : Keeps (tags ++ [tag]) (add kept tag) := by
  have textualKept : ∀ other ∈ kept, other.Textual := fun other mem =>
    textual other (List.mem_append_left _ (keeps.subset mem))
  by_cases known : tag.key ∈ kept.map Tag.key
  · rw [add_of_mem textualKept known]
    refine ⟨fun other mem => (keeps.first other mem).append _, fun key => ?_, keeps.nodup⟩
    rw [List.map_append, List.mem_append, ← keeps.keys]
    refine (or_iff_left_of_imp fun last => ?_).symm
    rwa [List.mem_singleton.1 last]
  · rw [add_of_not_mem textualKept known]
    refine ⟨?_, fun key => ?_, ?_⟩
    · intro other mem
      rcases List.mem_append.1 mem with mem | mem
      · exact (keeps.first other mem).append _
      · obtain rfl := List.mem_singleton.1 mem
        refine .first tags other [] fun earlier memEarlier => ?_
        rw [← Bool.not_eq_true, (textual other (by simp)).same_iff]
        intro sameKey
        rw [keeps.keys, ← sameKey] at known
        exact known (List.mem_map_of_mem memEarlier)
    · rw [List.map_append, List.map_append, List.mem_append, List.mem_append, keeps.keys]
    · rw [List.map_append, List.map_singleton, List.nodup_append]
      refine ⟨keeps.nodup, List.nodup_singleton _, ?_⟩
      rintro key mem _ last rfl
      exact known (List.mem_singleton.1 last ▸ mem)

theorem keeps_distinct {tags : List Tag} (textual : ∀ tag ∈ tags, tag.Textual) :
    Keeps tags (distinct tags) := by
  induction tags using List.reverseRecOn with
  | nil => exact ⟨nofun, fun _ => Iff.rfl, List.nodup_nil⟩
  | append_singleton tags tag ih =>
      rw [distinct_concat]
      exact (ih fun other mem => textual other (List.mem_append_left _ mem)).add textual

theorem mem_texts_distinct {tags : List Tag} (parsed : ∀ tag ∈ tags, tag.Parsed) {text : String} :
    text ∈ (distinct tags).map (·.text) ↔ text ∈ tags.map (·.text) := by
  have keeps := keeps_distinct fun tag mem => (parsed tag mem).textual
  have texts (tags : List Tag) : tags.map (·.text) = (tags.map Tag.key).map Prod.fst := by
    rw [List.map_map]
    rfl
  rw [texts, texts, List.mem_map, List.mem_map]
  exact exists_congr fun key => and_congr_left fun _ => keeps.keys key

theorem nodup_texts_distinct {tags : List Tag} (parsed : ∀ tag ∈ tags, tag.Parsed) :
    ((distinct tags).map (·.text)).Nodup := by
  have keeps := keeps_distinct fun tag mem => (parsed tag mem).textual
  refine List.pairwise_map.2 ((List.pairwise_map.1 keeps.nodup).imp_of_mem ?_)
  intro tag other mem memOther different sameText
  have parsedOther := parsed other (keeps.subset memOther)
  apply different
  rw [← parsedOther.textual.same_iff, (parsed tag (keeps.subset mem)).same_iff parsedOther]
  exact sameText

/-! ## Unions -/

theorem hashable_of_textual {tags : List Tag} (textual : ∀ tag ∈ tags, tag.Textual) :
    hashable tags = .ok () := by
  induction tags with
  | nil => rfl
  | cons tag tags ih =>
      rw [hashable, (textual tag List.mem_cons_self).hashable]
      exact ih fun tag mem => textual tag (List.mem_cons_of_mem _ mem)

def given (lists : List (Option (List Tag))) : List Tag := (lists.filterMap id).flatten

theorem union_of_textual {lists : List (Option (List Tag))}
    (textual : ∀ tag ∈ given lists, tag.Textual) : union lists = .ok ⟨distinct (given lists)⟩ := by
  have kept : ∀ tag ∈ distinct (given lists), tag.Textual := fun tag mem =>
    textual tag (distinct_subset _ mem)
  rw [union, ← given, hashable_of_textual textual]
  exact ofTags_of_textual kept

theorem union_of_parsed {first last : List Tag} (parsed : ∀ tag ∈ first ++ last, tag.Parsed) :
    union [some first, some last] = .ok ⟨distinct (first ++ last)⟩ := by
  have both : given [some first, some last] = first ++ last := by simp [given]
  rw [union_of_textual, both]
  rw [both]
  exact fun tag mem => (parsed tag mem).textual

end TagQuery.TagSet
