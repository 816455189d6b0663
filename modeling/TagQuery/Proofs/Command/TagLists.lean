import Mathlib.Data.List.Permutation
import Mathlib.Data.List.Sort
import Mathlib.Data.Prod.Lex
import Mathlib.Data.String.Basic
import TagQuery.Command.Report
import TagQuery.Proofs.Records
import TagQuery.Proofs.Union

namespace TagQuery

/-! ## Places -/

def Tag.place (tag : Tag) : Int ×ₗ String := toLex (tag.line.toInt, tag.text)

theorem Tag.text_of_place {tag other : Tag} (same : tag.place = other.place) :
    tag.text = other.text :=
  congrArg (fun place => (ofLex place).2) same

namespace Selection

@[simp] theorem tagBefore_iff {tag other : Tag} : tagBefore tag other = true ↔ tag.place ≤ other.place := by
  rw [Tag.place, Tag.place, Prod.Lex.toLex_le_toLex, tagBefore]
  split
  · rename_i same
    simp [same]
  · rename_i different
    simp only [different, decide_eq_true_eq, false_and, or_false]
    omega

theorem pairwise_sortedTags (tags : List Tag) :
    (sortedTags tags).Pairwise fun tag other => tag.place ≤ other.place := by
  have sorted : (sortedTags tags).Pairwise fun tag other => tagBefore tag other = true := by
    apply List.pairwise_mergeSort
    · intro first second third
      simp only [tagBefore_iff]
      exact le_trans
    · intro tag other
      simp only [Bool.or_eq_true, tagBefore_iff]
      exact le_total _ _
  exact sorted.imp tagBefore_iff.1

theorem sortedTags_perm (tags : List Tag) : (sortedTags tags).Perm tags :=
  List.mergeSort_perm tags tagBefore

section
variable {tags : List Tag}

theorem sortedTags_increasing (nodup : (tags.map (·.text)).Nodup) :
    (sortedTags tags).Pairwise fun tag other => tag.place < other.place := by
  have distinct : ((sortedTags tags).map (·.text)).Nodup :=
    ((sortedTags_perm tags).map (·.text)).nodup_iff.2 nodup
  refine (pairwise_sortedTags tags).imp₂ ?_ (List.pairwise_map.1 distinct)
  intro tag other le different
  exact lt_of_le_of_ne le fun same => different (Tag.text_of_place same)

theorem sortedTags_of_perm {others : List Tag} (nodup : (tags.map (·.text)).Nodup)
    (order : others.Perm tags) : sortedTags others = sortedTags tags := by
  have nodupOthers : (others.map (·.text)).Nodup := (order.map (·.text)).nodup_iff.2 nodup
  have sameTags : (sortedTags others).Perm (sortedTags tags) :=
    (sortedTags_perm others).trans (order.trans (sortedTags_perm tags).symm)
  refine sameTags.eq_of_pairwise ?_ (sortedTags_increasing nodupOthers) (sortedTags_increasing nodup)
  intro tag other _ _ before after
  exact absurd after (lt_asymm before)

end

end Selection

/-! ## Texts and their first lines -/

namespace Listing

inductive FirstAt (items : List Value) (text : String) (line : Line) : Prop where
  | first (before : List Value) (item : Value) (after : List Value)
      (split : items = before ++ item :: after) (annotates : Annotates item text line)
      (new : ∀ other ∈ before, ∀ line, ¬Annotates other text line)

section
variable {items : List Value} {tags : List Tag} (read : items.map tagOf? = tags.map some)
include read

theorem exists_tag_of_mem {item : Value} (mem : item ∈ items) :
    ∃ tag ∈ tags, tagOf? item = some tag := by
  have found : tagOf? item ∈ tags.map some := read ▸ List.mem_map_of_mem mem
  obtain ⟨tag, memTag, same⟩ := List.mem_map.1 found
  exact ⟨tag, memTag, same.symm⟩

theorem mem_texts_iff {text : String} :
    text ∈ tags.map (·.text) ↔ ∃ item ∈ items, ∃ line, Annotates item text line := by
  constructor
  · intro mem
    obtain ⟨tag, memTag, rfl⟩ := List.mem_map.1 mem
    have found : some tag ∈ items.map tagOf? := read ▸ List.mem_map_of_mem memTag
    obtain ⟨item, memItem, made⟩ := List.mem_map.1 found
    exact ⟨item, memItem, tag.line, annotates_of_tagOf? made⟩
  · rintro ⟨item, memItem, line, annotates⟩
    obtain ⟨tag, memTag, found⟩ := exists_tag_of_mem read memItem
    exact List.mem_map.2 ⟨tag, memTag, ((annotates_iff found).1 annotates).1⟩

theorem firstAt_of_firstOf {tag : Tag} (parsed : ∀ tag ∈ tags, tag.Parsed)
    (first : TagSet.FirstOf tags tag) : FirstAt items tag.text tag.line := by
  cases first with
  | first before _ after new =>
      -- Each item gives one tag, so the items split where the tags do.
      rw [List.map_append, List.map_cons] at read
      obtain ⟨front, rest, rfl, readFront, readRest⟩ := List.map_eq_append_iff.1 read
      obtain ⟨item, back, rfl, found, -⟩ := List.map_eq_cons_iff.1 readRest
      refine .first front item back rfl (annotates_of_tagOf? found) ?_
      intro earlier mem line annotates
      obtain ⟨other, memOther, foundOther⟩ := exists_tag_of_mem readFront mem
      have sameText := ((annotates_iff foundOther).1 annotates).1
      have same := (parsed other (by simp [memOther])).same_iff (parsed tag (by simp))
      rw [new other memOther] at same
      exact absurd (same.2 sameText) Bool.false_ne_true

end

end Listing

namespace Command

open Listing (tagItems)

/-- In the order of lines and texts, one tag for each text of the items, on the line of the first item
that has it. -/
structure Canonical (items : List Value) (listed : List Tag) : Prop where
  increasing : listed.Pairwise fun tag other => tag.place < other.place
  once : (listed.map (·.text)).Nodup
  texts : ∀ text, text ∈ listed.map (·.text) ↔
    ∃ item ∈ items, ∃ line, Listing.Annotates item text line
  first : ∀ tag ∈ listed, Listing.FirstAt items tag.text tag.line

theorem canonical_sortedTags {items : List Value} {tags : List Tag}
    (read : items.map Listing.tagOf? = tags.map some) (parsed : ∀ tag ∈ tags, tag.Parsed) :
    Canonical items (Selection.sortedTags (TagSet.distinct tags)) := by
  have nodup := TagSet.nodup_texts_distinct parsed
  have keeps := TagSet.keeps_distinct fun tag mem => (parsed tag mem).textual
  have order := Selection.sortedTags_perm (TagSet.distinct tags)
  refine ⟨Selection.sortedTags_increasing nodup, ?_, ?_, ?_⟩
  · exact (order.map (·.text)).nodup_iff.2 nodup
  · intro text
    rw [(order.map (·.text)).mem_iff, TagSet.mem_texts_distinct parsed, Listing.mem_texts_iff read]
  · intro tag mem
    exact Listing.firstAt_of_firstOf read parsed (keeps.first tag (order.subset mem))

/-- The report of a scenario lists its tags and those of its feature strictly in the order of lines and
texts, each text once and on the line of its first annotation. It is the same in whatever order the
tags of the union are held. -/
theorem reportValue_canonical {names names' : List Value} {fields fields' : List (String × Value)}
    {feature : Feature} {scenario : Scenario}
    (read : Listing.tagsIn names fields = .ok feature.tags)
    (readScenario : Listing.tagsIn names' fields' = .ok scenario.tags) :
    ∃ set listed, Selection.tagsOf feature scenario = .ok set ∧
      Selection.sortedTags set.tags = listed ∧
      Canonical (tagItems fields ++ tagItems fields') listed ∧
      ∀ others : TagSet, others.tags.Perm set.tags →
        reportValue ⟨feature, scenario, others⟩ = .object
          [("feature", feature.name), ("name", scenario.name), ("line", scenario.line),
            ("tags", .list (listed.map fun tag =>
              .object [("line", tag.line.toValue), ("name", .text ("@" ++ tag.text))]))] := by
  have parsed : ∀ tag ∈ feature.tags ++ scenario.tags, tag.Parsed :=
    List.forall_mem_append.2
      ⟨Listing.parsed_of_tagsIn read, Listing.parsed_of_tagsIn readScenario⟩
  have readBoth : (tagItems fields ++ tagItems fields').map Listing.tagOf? =
      (feature.tags ++ scenario.tags).map some := by
    rw [List.map_append, List.map_append,
      Listing.map_tagOf?_of_tagsOf (Listing.tagsOf_tagItems read),
      Listing.map_tagOf?_of_tagsOf (Listing.tagsOf_tagItems readScenario)]
  refine ⟨_, _, TagSet.union_of_parsed parsed, rfl, canonical_sortedTags readBoth parsed, ?_⟩
  intro others order
  rw [reportValue, Selection.sortedTags_of_perm (TagSet.nodup_texts_distinct parsed) order]
  rfl

theorem reportValue_canonical_spellings :
    ∃ (fields fields' : List (String × Value)) (feature : Feature) (scenario : Scenario),
      fields = [("tags", .list [.object [("line", .int 4), ("name", .text "@b")],
        .object [("name", .text " @a"), ("line", .bool true)], .text "@env=x"])] ∧
      fields' = [("tags", .list [.text "b ", .object [("name", .text "@@c"), ("line", .int 1)],
        .object [("name", .text "a"), ("line", .int (-2))]])] ∧
      Listing.tagsIn [] fields = .ok feature.tags ∧ Listing.tagsIn [] fields' = .ok scenario.tags ∧
      ∃ set listed, Selection.tagsOf feature scenario = .ok set ∧
        Selection.sortedTags set.tags = listed ∧
        listed.map (fun tag => (tag.line, tag.text)) =
          [(.number 0, "env=x"), (.number 1, "@c"), (.flag true, "a"), (.number 4, "b")] ∧
        Canonical (tagItems fields ++ tagItems fields') listed := by
  obtain ⟨feature, isFeature⟩ : ∃ feature : Feature, feature = ⟨.text "f",
    [.ofString "@b" (.number 4), .ofString " @a" (.flag true), .ofString "@env=x" (.number 0)],
    []⟩ := ⟨_, rfl⟩
  obtain ⟨scenario, isScenario⟩ : ∃ scenario : Scenario, scenario = ⟨.text "s", .int 5,
    [.ofString "b " (.number 0), .ofString "@@c" (.number 1), .ofString "a" (.number (-2))]⟩ :=
      ⟨_, rfl⟩
  have read : Listing.tagsIn [] [("tags", .list [.object [("line", .int 4), ("name", .text "@b")],
      .object [("name", .text " @a"), ("line", .bool true)], .text "@env=x"])] =
        .ok feature.tags := by
    rw [isFeature]
    rfl
  have readScenario : Listing.tagsIn [] [("tags", .list [.text "b ",
      .object [("name", .text "@@c"), ("line", .int 1)],
      .object [("name", .text "a"), ("line", .int (-2))]])] = .ok scenario.tags := by
    rw [isScenario]
    rfl
  obtain ⟨set, listed, united, sorted, canonical, -⟩ := reportValue_canonical read readScenario
  refine ⟨_, _, feature, scenario, rfl, rfl, read, readScenario, set, listed, united, sorted, ?_,
    canonical⟩
  have parsed : ∀ tag ∈ feature.tags ++ scenario.tags, tag.Parsed :=
    List.forall_mem_append.2
      ⟨Listing.parsed_of_tagsIn read, Listing.parsed_of_tagsIn readScenario⟩
  obtain rfl := Except.ok.inj ((TagSet.union_of_parsed parsed).symm.trans united)
  rw [← sorted, isFeature, isScenario]
  cbv

end Command

end TagQuery
