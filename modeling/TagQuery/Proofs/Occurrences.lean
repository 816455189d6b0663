import Mathlib.Data.List.Perm.Basic
import TagQuery.Proofs.Union

namespace TagQuery.TagSet

/-! ## Adding tags one by one -/

theorem distinct_append (tags more : List Tag) :
    distinct (tags ++ more) = more.foldl add (distinct tags) := List.foldl_append

theorem add_perm {tags others : List Tag} (order : tags.Perm others) (tag : Tag) :
    (add tags tag).Perm (add others tag) := by
  rw [add, add, order.any_eq]
  split
  · exact order
  · exact order.append_right [tag]

theorem foldl_add_perm {tags others : List Tag} (order : tags.Perm others) (more : List Tag) :
    (more.foldl add tags).Perm (more.foldl add others) := by
  induction more generalizing tags others with
  | nil => exact order
  | cons tag more ih => exact ih (add_perm order tag)

theorem foldl_add_of_known {tags more : List Tag} (textual : ∀ tag ∈ tags, tag.Textual)
    (known : ∀ tag ∈ more, tag.key ∈ tags.map Tag.key) : more.foldl add tags = tags := by
  induction more with
  | nil => rfl
  | cons tag more ih =>
      rw [List.foldl_cons, add_of_mem textual (known tag List.mem_cons_self)]
      exact ih fun tag mem => known tag (List.mem_cons_of_mem _ mem)

theorem foldl_add_of_nodup {tags more : List Tag} (textual : ∀ tag ∈ tags ++ more, tag.Textual)
    (nodup : ((tags ++ more).map Tag.key).Nodup) : more.foldl add tags = tags ++ more := by
  induction more generalizing tags with
  | nil => rw [List.append_nil]; rfl
  | cons tag more ih =>
      rw [List.append_cons] at textual nodup ⊢
      have new : tag.key ∉ tags.map Tag.key := by
        intro known
        have front := nodup
        rw [List.map_append, List.map_append] at front
        exact (List.nodup_append.1 front.of_append_left).2.2 _ known _ (by simp) rfl
      have textualTags : ∀ tag ∈ tags, tag.Textual := fun tag mem => textual tag (by simp [mem])
      rw [List.foldl_cons, add_of_not_mem textualTags new]
      exact ih textual nodup

/-! ## Distinct tags -/

theorem distinct_of_nodup {tags : List Tag} (textual : ∀ tag ∈ tags, tag.Textual)
    (nodup : (tags.map Tag.key).Nodup) : distinct tags = tags := foldl_add_of_nodup textual nodup

theorem distinct_append_of_known {tags more : List Tag} (textual : ∀ tag ∈ tags, tag.Textual)
    (known : more ⊆ tags) : distinct (tags ++ more) = distinct tags := by
  have keeps := keeps_distinct textual
  rw [distinct_append]
  apply foldl_add_of_known
  · exact fun tag mem => textual tag (keeps.subset mem)
  · exact fun tag mem => (keeps.keys tag.key).2 (List.mem_map_of_mem (known mem))

theorem distinct_listed_append {tags listed : List Tag} (textual : ∀ tag ∈ tags, tag.Textual)
    (listing : listed.Perm (distinct tags)) (more : List Tag) :
    (distinct (listed ++ more)).Perm (distinct (tags ++ more)) := by
  have keeps := keeps_distinct textual
  have textualListed : ∀ tag ∈ listed, tag.Textual := fun tag mem =>
    textual tag (keeps.subset (listing.subset mem))
  have nodup : (listed.map Tag.key).Nodup := (listing.map Tag.key).nodup_iff.2 keeps.nodup
  rw [distinct_append, distinct_append, distinct_of_nodup textualListed nodup]
  exact foldl_add_perm listing more

theorem keys_distinct_perm {tags others : List Tag} (textual : ∀ tag ∈ tags, tag.Textual)
    (order : others.Perm tags) :
    ((distinct others).map Tag.key).Perm ((distinct tags).map Tag.key) := by
  have keeps := keeps_distinct textual
  have keepsOthers := keeps_distinct fun tag mem => textual tag (order.subset mem)
  rw [List.perm_ext_iff_of_nodup keepsOthers.nodup keeps.nodup]
  intro key
  rw [keepsOthers.keys, keeps.keys, (order.map Tag.key).mem_iff]

/-! ## Unions -/

@[simp] theorem given_append (lists further : List (Option (List Tag))) :
    given (lists ++ further) = given lists ++ given further := by
  simp [given]

@[simp] theorem mem_given {lists : List (Option (List Tag))} {tag : Tag} :
    tag ∈ given lists ↔ ∃ tags, some tags ∈ lists ∧ tag ∈ tags := by
  simp [given]

theorem exists_given_iff {lists : List (Option (List Tag))} {p : Tag → Prop} :
    (∃ tag ∈ given lists, p tag) ↔ ∃ tags, some tags ∈ lists ∧ ∃ tag ∈ tags, p tag := by
  constructor
  · rintro ⟨tag, mem, holds⟩
    obtain ⟨tags, memTags, mem⟩ := mem_given.1 mem
    exact ⟨tags, memTags, tag, mem, holds⟩
  · rintro ⟨tags, memTags, tag, mem, holds⟩
    exact ⟨tag, mem_given.2 ⟨tags, memTags, mem⟩, holds⟩

theorem textual_given {lists : List (Option (List Tag))}
    (textual : ∀ tags, some tags ∈ lists → ∀ tag ∈ tags, tag.Textual) :
    ∀ tag ∈ given lists, tag.Textual := by
  intro tag mem
  obtain ⟨tags, memTags, mem⟩ := mem_given.1 mem
  exact textual tags memTags tag mem

theorem given_perm {lists others : List (Option (List Tag))} (order : lists.Perm others) :
    (given lists).Perm (given others) := (order.filterMap id).flatten

/-- A union of lists of tags with texts for names and values has no two tags that are the same, and a
tag for each tag of the lists: the first of those that are the same, with its line. It can be read in
place of the lists, reading some of them again adds nothing, and another order of the lists changes
nothing but lines. -/
theorem union_firsts {lists : List (Option (List Tag))}
    (textual : ∀ tags, some tags ∈ lists → ∀ tag ∈ tags, tag.Textual) :
    ∃ set, union lists = .ok set ∧
      (set.tags.Pairwise fun tag other => tag.same other = false ∧ other.same tag = false) ∧
      (∀ tag : Tag, (∃ kept ∈ set.tags, tag.same kept = true) ↔
        ∃ tags, some tags ∈ lists ∧ ∃ other ∈ tags, tag.same other = true) ∧
      (∀ tag ∈ set.tags, FirstOf (given lists) tag) ∧
      (∀ further listed, (∀ tags, some tags ∈ further → ∀ tag ∈ tags, tag.Textual) →
        listed.Perm set.tags →
          ∃ nested joined, union (some listed :: further) = .ok nested ∧
            union (lists ++ further) = .ok joined ∧ nested.tags.Perm joined.tags) ∧
      (∀ again, again ⊆ lists → union (lists ++ again) = .ok set) ∧
      ∀ others, others.Perm lists → ∃ reordered, union others = .ok reordered ∧
        (reordered.tags.map Tag.key).Perm (set.tags.map Tag.key) := by
  have textualGiven := textual_given textual
  have keeps := keeps_distinct textualGiven
  have textualKept : ∀ tag ∈ distinct (given lists), tag.Textual := fun tag mem =>
    textualGiven tag (keeps.subset mem)
  refine ⟨_, union_of_textual textualGiven, ?_, ?_, keeps.first, ?_, ?_, ?_⟩
  · refine (List.pairwise_map.1 keeps.nodup).imp_of_mem fun {tag other} mem memOther different => ?_
    rw [← Bool.not_eq_true, ← Bool.not_eq_true, (textualKept other memOther).same_iff,
      (textualKept tag mem).same_iff]
    exact ⟨different, different.symm⟩
  · intro tag
    have same_iff {tags : List Tag} (textual : ∀ tag ∈ tags, tag.Textual) :
        (∃ other ∈ tags, tag.same other = true) ↔ tag.key ∈ tags.map Tag.key := by
      rw [← any_same_iff textual, List.any_eq_true]
    rw [← exists_given_iff, same_iff textualGiven, same_iff textualKept, keeps.keys]
  · intro further listed textualFurther listing
    have textualBoth : ∀ tag ∈ given lists ++ given further, tag.Textual :=
      List.forall_mem_append.2 ⟨textualGiven, textual_given textualFurther⟩
    have textualNested : ∀ tag ∈ listed ++ given further, tag.Textual :=
      List.forall_mem_append.2
        ⟨fun tag mem => textualKept tag (listing.subset mem), textual_given textualFurther⟩
    rw [← given_append] at textualBoth
    refine ⟨_, _, union_of_textual textualNested, union_of_textual textualBoth, ?_⟩
    rw [given_append]
    exact distinct_listed_append textualGiven listing (given further)
  · intro again known
    have knownTags : given again ⊆ given lists := by
      intro tag mem
      obtain ⟨tags, memTags, mem⟩ := mem_given.1 mem
      exact mem_given.2 ⟨tags, known memTags, mem⟩
    have textualBoth : ∀ tag ∈ given (lists ++ again), tag.Textual := by
      rw [given_append]
      exact List.forall_mem_append.2 ⟨textualGiven, fun tag mem => textualGiven tag (knownTags mem)⟩
    rw [union_of_textual textualBoth, given_append, distinct_append_of_known textualGiven knownTags]
  · intro others order
    have orderGiven := given_perm order
    have textualOthers : ∀ tag ∈ given others, tag.Textual := fun tag mem =>
      textualGiven tag (orderGiven.subset mem)
    exact ⟨_, union_of_textual textualOthers, keys_distinct_perm textualGiven orderGiven⟩

theorem union_firsts_respelled :
    ∃ lists further : List (Option (List Tag)),
      lists = [some [.ofString "@smoke" (.number 1), .ofString "@env=dev" (.number 2)], none,
        some [.ofString " smoke" (.number 5), .ofString "@fast" (.number 6)]] ∧
      further = [some [.ofString "@fast" (.number 9), .ofString "@slow" (.number 3)]] ∧
      ∃ set nested joined reordered, union lists = .ok set ∧
        set.tags.map (fun tag => (tag.text, tag.line)) =
          [("smoke", .number 1), ("env=dev", .number 2), ("fast", .number 6)] ∧
        union (some set.tags.reverse :: further) = .ok nested ∧
        union (lists ++ further) = .ok joined ∧ nested.tags.Perm joined.tags ∧
        union (lists ++ lists) = .ok set ∧ union lists.reverse = .ok reordered ∧
        (reordered.tags.map Tag.key).Perm (set.tags.map Tag.key) := by
  obtain ⟨lists, isLists⟩ : ∃ lists : List (Option (List Tag)), lists =
      [some [.ofString "@smoke" (.number 1), .ofString "@env=dev" (.number 2)], none,
        some [.ofString " smoke" (.number 5), .ofString "@fast" (.number 6)]] := ⟨_, rfl⟩
  obtain ⟨further, isFurther⟩ : ∃ further : List (Option (List Tag)), further =
      [some [.ofString "@fast" (.number 9), .ofString "@slow" (.number 3)]] := ⟨_, rfl⟩
  have made (source : String) (line : Line) : (Tag.ofString source line).Textual :=
    (Tag.parsed_ofString source line).textual
  have textual : ∀ tags, some tags ∈ lists → ∀ tag ∈ tags, tag.Textual := by
    simp [isLists, made]
  have textualFurther : ∀ tags, some tags ∈ further → ∀ tag ∈ tags, tag.Textual := by
    simp [isFurther, made]
  obtain ⟨set, united, -, -, -, nests, again, orders⟩ := union_firsts textual
  obtain ⟨nested, joined, unitedNested, unitedJoined, same⟩ :=
    nests further set.tags.reverse textualFurther set.tags.reverse_perm
  obtain ⟨reordered, unitedReordered, sameKeys⟩ := orders lists.reverse lists.reverse_perm
  have lines : set.tags.map (fun tag => (tag.text, tag.line)) =
      [("smoke", .number 1), ("env=dev", .number 2), ("fast", .number 6)] := by
    have whole := union_of_textual (textual_given textual)
    rw [united, Except.ok.injEq] at whole
    rw [whole, isLists]
    decide +kernel
  exact ⟨lists, further, isLists, isFurther, set, nested, joined, reordered, united, lines,
    unitedNested, unitedJoined, same, again lists (List.Subset.refl _), unitedReordered, sameKeys⟩

end TagQuery.TagSet
