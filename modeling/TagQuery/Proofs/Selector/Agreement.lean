import Mathlib.Data.List.Nodup
import TagQuery.Proofs.Union
import TagQuery.Selector.Meaning

namespace TagQuery.TagSet

/-- No two tags share a name and differ in values. -/
def Unambiguous (tags : List Tag) : Prop :=
  ∀ tag ∈ tags, ∀ other ∈ tags, tag.name = other.name → tag.values = other.values

theorem unambiguous_of_nodup {tags : List Tag} (nodup : (tags.map (·.name)).Nodup) :
    Unambiguous tags := fun _ mem _ memOther sameName =>
  congrArg Tag.values (List.inj_on_of_nodup_map nodup mem memOther sameName)

theorem valuesOf_of_unambiguous {tags : List Tag} (unambiguous : Unambiguous tags) {tag : Tag}
    (mem : tag ∈ tags) {name : String} (named : tag.name = .text name) :
    Index.valuesOf tags name = tag.values := by
  have found := Index.lastNamed_valuesOf tags name
  generalize Index.valuesOf tags name = values at found
  cases found with
  | found before last after namedLast isLast =>
      exact unambiguous last (by simp) tag mem (namedLast.trans named.symm)
  | absent _ absent => exact absurd named (absent tag mem)

/-! ## Sets that answer every query alike -/

structure Agree (a b : TagSet) : Prop where
  contains : ∀ query, a.contains query = b.contains query
  valuesFor : ∀ query, a.valuesFor query = b.valuesFor query

section
variable {tags others : List Tag} (parsed : ∀ tag ∈ tags, tag.Parsed)
  (parsedOthers : ∀ tag ∈ others, tag.Parsed)
  (same : ∀ text, text ∈ tags.map (·.text) ↔ text ∈ others.map (·.text))
include parsed parsedOthers same

theorem exists_namesake {other : Tag} (mem : other ∈ others) :
    ∃ tag ∈ tags, tag.name = other.name ∧ tag.values = other.values := by
  obtain ⟨tag, memTag, sameText⟩ := List.mem_map.1 ((same _).2 (List.mem_map_of_mem mem))
  exact ⟨tag, memTag, (parsed tag memTag).of_text (parsedOthers other mem) sameText⟩

theorem valuesOf_eq (unambiguous : Unambiguous tags) (name : String) :
    Index.valuesOf tags name = Index.valuesOf others name := by
  have found := Index.lastNamed_valuesOf others name
  generalize Index.valuesOf others name = values at found
  cases found with
  | found before last after named isLast =>
      have memLast : last ∈ before ++ last :: after := by simp
      obtain ⟨tag, mem, sameName, sameValues⟩ := exists_namesake parsed parsedOthers same memLast
      rw [valuesOf_of_unambiguous unambiguous mem (sameName.trans named), sameValues]
  | absent _ absent =>
      refine Index.valuesOf_of_lastNamed (.absent tags fun tag mem named => ?_)
      obtain ⟨other, memOther, sameName, -⟩ := exists_namesake parsedOthers parsed
        (fun text => (same text).symm) mem
      exact absent other memOther (sameName.trans named)

theorem agree_of_texts (unambiguous : Unambiguous tags) : Agree ⟨tags⟩ ⟨others⟩ := by
  constructor
  · intro query
    rw [Bool.eq_iff_iff]
    simp only [contains, texts, List.contains_iff_mem]
    exact same _
  · intro query
    exact congrArg TagValues.mk (valuesOf_eq parsed parsedOthers same unambiguous _)

end

end TagQuery.TagSet

namespace TagQuery.Selector

section
variable {a b : TagSet} (agree : a.Agree b)
include agree

theorem Call.evaluate_of_agree (call : Call) : call.evaluate a = call.evaluate b := by
  have contains : a.contains = b.contains := funext agree.contains
  cases call with
  | anyOf candidates => rw [evaluate, evaluate, TagSet.anyOf, TagSet.anyOf, contains]
  | allOf candidates => rw [evaluate, evaluate, TagSet.allOf, TagSet.allOf, contains]
  | noneOf candidates =>
      rw [evaluate, evaluate, TagSet.noneOf, TagSet.noneOf, TagSet.anyOf, TagSet.anyOf, contains]
  | valuesFor name method =>
      cases method with
      | none => rw [evaluate, evaluate, agree.valuesFor]
      | some method => rw [evaluate, evaluate, agree.valuesFor]

theorem Tree.evaluate_of_agree (tree : Selector) : tree.evaluate a = tree.evaluate b := by
  induction tree with
  | call c => exact c.evaluate_of_agree agree
  | negation operand ih => rw [evaluate, evaluate, ih]
  | conjunction left right ihLeft ihRight => rw [evaluate, evaluate, ihLeft, ihRight]
  | disjunction left right ihLeft ihRight => rw [evaluate, evaluate, ihLeft, ihRight]

end

end TagQuery.Selector

namespace TagQuery.TagSet

structure SameAnswers (a b : TagSet) : Prop where
  evaluate : ∀ tree : Selector, tree.evaluate a = tree.evaluate b
  answer : ∀ selector, a.answer selector = b.answer selector
  isSelectedBy : ∀ selector, a.isSelectedBy selector = b.isSelectedBy selector

theorem Agree.sameAnswers {a b : TagSet} (agree : a.Agree b) : a.SameAnswers b := by
  have evaluate (tree : Selector) := tree.evaluate_of_agree agree
  have answer (selector : Value) : a.answer selector = b.answer selector := by
    simp only [TagSet.answer, evaluate]
  refine ⟨evaluate, answer, fun selector => ?_⟩
  cases selector with
  | null => rfl
  | _ => simp only [TagSet.isSelectedBy, answer]

theorem ofTags_listed {tags : List Tag} (parsed : ∀ tag ∈ tags, tag.Parsed)
    (unambiguous : Unambiguous tags) {both listed : List Tag} (order : both.Perm tags)
    (listing : listed.Perm (distinct both)) :
    ofTags listed = .ok ⟨listed⟩ ∧ SameAnswers ⟨tags⟩ ⟨listed⟩ := by
  have parsedBoth : ∀ tag ∈ both, tag.Parsed := fun tag mem => parsed tag (order.subset mem)
  have parsedListed : ∀ tag ∈ listed, tag.Parsed := fun tag mem =>
    parsedBoth tag (distinct_subset both (listing.subset mem))
  have sameTexts (text : String) : text ∈ tags.map (·.text) ↔ text ∈ listed.map (·.text) := by
    rw [(listing.map _).mem_iff, mem_texts_distinct parsedBoth, (order.map _).mem_iff]
  exact ⟨ofTags_of_parsed parsedListed,
    (agree_of_texts parsed parsedListed sameTexts unambiguous).sameAnswers⟩

/-- Lists with the same members make sets that give the same answers, if no name has several values.
So do two lists that are joined or united, in either order, and whatever order the tags of the
union are listed in. -/
theorem sameAnswers_of_sameMembers {tags others : List Tag} (parsed : ∀ tag ∈ tags, tag.Parsed)
    (parsedOthers : ∀ tag ∈ others, tag.Parsed) :
    (SameMembers tags others → Unambiguous tags →
      ∃ a b, ofTags tags = .ok a ∧ ofTags others = .ok b ∧ a.SameAnswers b) ∧
    (Unambiguous (tags ++ others) →
      ∃ joined united swapped, ofTags (tags ++ others) = .ok joined ∧
        union [some tags, some others] = .ok united ∧
        union [some others, some tags] = .ok swapped ∧
        joined.SameAnswers united ∧ joined.SameAnswers swapped ∧
        ∀ listed, listed.Perm united.tags ∨ listed.Perm swapped.tags →
          ∃ set, ofTags listed = .ok set ∧ joined.SameAnswers set) := by
  constructor
  · intro same unambiguous
    have sameTexts := (sameMembers_iff parsed parsedOthers).1 same
    exact ⟨_, _, ofTags_of_parsed parsed, ofTags_of_parsed parsedOthers,
      (agree_of_texts parsed parsedOthers sameTexts unambiguous).sameAnswers⟩
  · intro unambiguous
    have parsedJoined : ∀ tag ∈ tags ++ others, tag.Parsed :=
      List.forall_mem_append.2 ⟨parsed, parsedOthers⟩
    have parsedSwapped : ∀ tag ∈ others ++ tags, tag.Parsed :=
      List.forall_mem_append.2 ⟨parsedOthers, parsed⟩
    have listed {both listed : List Tag} (order : both.Perm (tags ++ others))
        (listing : listed.Perm (distinct both)) := ofTags_listed parsedJoined unambiguous order listing
    have joined := List.Perm.refl (tags ++ others)
    have swapped : (others ++ tags).Perm (tags ++ others) := List.perm_append_comm
    refine ⟨_, _, _, ofTags_of_parsed parsedJoined, union_of_parsed parsedJoined,
      union_of_parsed parsedSwapped, (listed joined (.refl _)).2, (listed swapped (.refl _)).2, ?_⟩
    rintro _ (listing | listing)
    · exact ⟨_, listed joined listing⟩
    · exact ⟨_, listed swapped listing⟩

theorem sameAnswers_of_sameMembers_repeated :
    ∃ tags others : List Tag,
      tags = [.ofString "@env=dev,qa" (.number 1), .ofString "@smoke" (.number 2)] ∧
      others = [.ofString " smoke" (.number 7), .ofString "@env=dev,qa" (.number 3),
        .ofString "@smoke" (.flag true)] ∧
      (∃ a b, ofTags tags = .ok a ∧ ofTags others = .ok b ∧ a.SameAnswers b) ∧
      ∃ joined united swapped, ofTags (tags ++ others) = .ok joined ∧
        union [some tags, some others] = .ok united ∧
        union [some others, some tags] = .ok swapped ∧
        joined.SameAnswers united ∧ joined.SameAnswers swapped ∧
        ∀ listed, listed.Perm united.tags ∨ listed.Perm swapped.tags →
          ∃ set, ofTags listed = .ok set ∧ joined.SameAnswers set := by
  obtain ⟨tags, listed⟩ : ∃ tags : List Tag,
      tags = [.ofString "@env=dev,qa" (.number 1), .ofString "@smoke" (.number 2)] := ⟨_, rfl⟩
  obtain ⟨others, listedOthers⟩ : ∃ others : List Tag,
      others = [.ofString " smoke" (.number 7), .ofString "@env=dev,qa" (.number 3),
        .ofString "@smoke" (.flag true)] := ⟨_, rfl⟩
  have parsed : ∀ tag ∈ tags, tag.Parsed := by simp [listed]
  have parsedOthers : ∀ tag ∈ others, tag.Parsed := by simp [listedOthers]
  have sameTexts (text : String) : text ∈ tags.map (·.text) ↔ text ∈ others.map (·.text) := by
    rw [listed, listedOthers]
    change text ∈ ["env=dev,qa", "smoke"] ↔ text ∈ ["smoke", "env=dev,qa", "smoke"]
    simp only [List.mem_cons, List.not_mem_nil, or_false]
    tauto
  have known : ∀ tag ∈ tags ++ others,
      tag.name = .text "env" ∧ tag.values = [.text "dev", .text "qa"] ∨
        tag.name = .text "smoke" ∧ tag.values = [] := by
    simp only [listed, listedOthers, List.cons_append, List.nil_append, List.mem_cons,
      List.not_mem_nil, or_false]
    rintro tag (rfl | rfl | rfl | rfl | rfl)
    · exact .inl ⟨rfl, rfl⟩
    · exact .inr ⟨rfl, rfl⟩
    · exact .inr ⟨rfl, rfl⟩
    · exact .inl ⟨rfl, rfl⟩
    · exact .inr ⟨rfl, rfl⟩
  have unambiguous : Unambiguous (tags ++ others) := by
    intro tag mem other memOther sameName
    rcases known tag mem with ⟨name, values⟩ | ⟨name, values⟩ <;>
      rcases known other memOther with ⟨nameOther, valuesOther⟩ | ⟨nameOther, valuesOther⟩ <;>
      simp_all
  obtain ⟨sameSets, sameUnions⟩ := sameAnswers_of_sameMembers parsed parsedOthers
  refine ⟨tags, others, listed, listedOthers, sameSets ?_ ?_, sameUnions unambiguous⟩
  · exact (sameMembers_iff parsed parsedOthers).2 sameTexts
  · exact fun tag mem other memOther =>
      unambiguous tag (List.mem_append_left _ mem) other (List.mem_append_left _ memOther)

end TagQuery.TagSet
