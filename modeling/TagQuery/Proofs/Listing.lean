import TagQuery.Listing
import TagQuery.Proofs.Attempt
import TagQuery.Proofs.Tags

namespace TagQuery

structure Scenario.Annotated (scenario : Scenario) : Prop where
  tags : ∀ tag ∈ scenario.tags, tag.Parsed

structure Feature.Annotated (feature : Feature) : Prop where
  tags : ∀ tag ∈ feature.tags, tag.Parsed
  scenarios : ∀ scenario ∈ feature.scenarios, scenario.Annotated

namespace Listing

theorem parsed_of_tagOf? {item : Value} {tag : Tag} (found : tagOf? item = some tag) :
    tag.Parsed := by
  unfold tagOf? at found
  split at found
  · simp [← Option.some.inj found]
  · dsimp only at found
    split at found
    · simp [← Option.some.inj found]
    · cases found
  · cases found

theorem parsed_of_tagsOf {names items : List Value} {tags : List Tag}
    (read : tagsOf names items = .ok tags) : ∀ tag ∈ tags, tag.Parsed := by
  induction items generalizing tags with
  | nil =>
      cases read
      simp
  | cons item items ih =>
      rw [tagsOf] at read
      split at read
      · cases read
      · rename_i first found
        obtain ⟨others, readOthers, rfl⟩ := Attempt.map_eq_ok_iff.1 read
        exact List.forall_mem_cons.2 ⟨parsed_of_tagOf? found, ih readOthers⟩

theorem parsed_of_tagsIn {names : List Value} {fields : List (String × Value)} {tags : List Tag}
    (read : tagsIn names fields = .ok tags) : ∀ tag ∈ tags, tag.Parsed := by
  unfold tagsIn at read
  dsimp only at read
  split at read
  · obtain ⟨items, -, readItems⟩ := Attempt.bind_eq_ok_iff.1 read
    exact parsed_of_tagsOf readItems
  · cases read
    simp

theorem annotated_of_scenarioOf {owner : Value} {index : Nat} {fields : List (String × Value)}
    {scenario : Scenario} (read : scenarioOf owner index fields = .ok scenario) :
    scenario.Annotated := by
  obtain ⟨tags, readTags, made⟩ := Attempt.bind_eq_ok_iff.1 read
  cases made
  exact ⟨parsed_of_tagsIn readTags⟩

theorem annotated_of_scenariosOf {owner : Value} {index : Nat} {items : List Value}
    {scenarios : List Scenario} (read : scenariosOf owner index items = .ok scenarios) :
    ∀ scenario ∈ scenarios, scenario.Annotated := by
  fun_induction scenariosOf owner index items generalizing scenarios with
  | case1 =>
      cases read
      simp
  | case2 index fields items ih =>
      obtain ⟨first, readFirst, read⟩ := Attempt.bind_eq_ok_iff.1 read
      obtain ⟨others, readOthers, made⟩ := Attempt.bind_eq_ok_iff.1 read
      cases made
      exact List.forall_mem_cons.2 ⟨annotated_of_scenarioOf readFirst, ih readOthers⟩
  | case3 => cases read

theorem annotated_of_featureOf {index : Nat} {fields : List (String × Value)} {feature : Feature}
    (read : featureOf index fields = .ok feature) : feature.Annotated := by
  obtain ⟨items, -, read⟩ := Attempt.bind_eq_ok_iff.1 read
  obtain ⟨scenarios, readScenarios, read⟩ := Attempt.bind_eq_ok_iff.1 read
  obtain ⟨tags, readTags, made⟩ := Attempt.bind_eq_ok_iff.1 read
  cases made
  exact ⟨parsed_of_tagsIn readTags, annotated_of_scenariosOf readScenarios⟩

theorem annotated_of_featuresOf {index : Nat} {items : List Value} {features : List Feature}
    (read : featuresOf index items = .ok features) : ∀ feature ∈ features, feature.Annotated := by
  fun_induction featuresOf index items generalizing features with
  | case1 =>
      cases read
      simp
  | case2 index fields items ih =>
      obtain ⟨first, readFirst, read⟩ := Attempt.bind_eq_ok_iff.1 read
      obtain ⟨others, readOthers, made⟩ := Attempt.bind_eq_ok_iff.1 read
      cases made
      exact List.forall_mem_cons.2 ⟨annotated_of_featureOf readFirst, ih readOthers⟩
  | case3 => cases read

theorem annotated_of_ofText {text : List Char} {features : List Feature}
    (read : ofText text = .ok features) : ∀ feature ∈ features, feature.Annotated := by
  unfold ofText at read
  split at read
  · rename_i value _
    cases value with
    | list items => exact annotated_of_featuresOf read
    | _ => cases read
  · cases read
  · cases read

theorem annotated_of_ofFile {file : Option (List UInt8)} {features : List Feature}
    (read : ofFile file = .ok features) : ∀ feature ∈ features, feature.Annotated := by
  cases file with
  | none => cases read
  | some bytes =>
      obtain ⟨text, -, readText⟩ := Attempt.bind_eq_ok_iff.1 read
      exact annotated_of_ofText readText

/-! ## What is wrong in a listing -/

open Attempt (Fails)

inductive WrongTags (fields : List (String × Value)) : Prop where
  | members (value : Value) (given : Value.field? fields "tags" = some value)
      (truthy : value.isTruthy = true) (fails : Fails value.members)
  | item (value : Value) (given : Value.field? fields "tags" = some value)
      (truthy : value.isTruthy = true) (items : List Value) (members : value.members = .ok items)
      (item : Value) (mem : item ∈ items) (wrong : tagOf? item = none)

inductive WrongScenario (item : Value) : Prop where
  | notObject (other : ∀ fields, item ≠ .object fields)
  | tags (fields : List (String × Value)) (object : item = .object fields)
      (wrong : WrongTags fields)

def scenarioItems (fields : List (String × Value)) : Except Fault (List Value) :=
  ((Value.field? fields "scenarios").getD (.list [])).members

inductive WrongFeature (item : Value) : Prop where
  | notObject (other : ∀ fields, item ≠ .object fields)
  | members (fields : List (String × Value)) (object : item = .object fields)
      (fails : Fails (scenarioItems fields))
  | scenario (fields : List (String × Value)) (object : item = .object fields)
      (items : List Value) (members : scenarioItems fields = .ok items)
      (scenario : Value) (mem : scenario ∈ items) (wrong : WrongScenario scenario)
  | tags (fields : List (String × Value)) (object : item = .object fields)
      (wrong : WrongTags fields)

inductive Unreadable (bytes : List UInt8) : Prop where
  | bytes (fails : Fails (Text.Utf8.decode bytes))
  | text (text : List Char) (decoded : Text.Utf8.decode bytes = .ok text)
      (fails : Fails (Json.read (unifyLineEnds text)))
  | notList (text : List Char) (decoded : Text.Utf8.decode bytes = .ok text) (value : Value)
      (read : Json.read (unifyLineEnds text) = .ok value) (other : ∀ items, value ≠ .list items)
  | feature (text : List Char) (decoded : Text.Utf8.decode bytes = .ok text) (items : List Value)
      (read : Json.read (unifyLineEnds text) = .ok (.list items)) (item : Value) (mem : item ∈ items)
      (wrong : WrongFeature item)

theorem fails_tagsOf_iff {names items : List Value} :
    Fails (tagsOf names items) ↔ ∃ item ∈ items, tagOf? item = none := by
  induction items with
  | nil => simp [tagsOf]
  | cons item items ih =>
      simp only [tagsOf, List.mem_cons, exists_eq_or_imp]
      split
      · rename_i wrong
        simp [wrong]
      · rename_i tag found
        simp [ih, found]

theorem fails_tagsIn_iff {names : List Value} {fields : List (String × Value)} :
    Fails (tagsIn names fields) ↔ WrongTags fields := by
  have fails_of_truthy {value : Value} : Fails (membersOf value >>= tagsOf names) ↔
      Fails value.members ∨ ∃ items, value.members = .ok items ∧ ∃ item ∈ items, tagOf? item = none := by
    simp [bind, membersOf, fails_tagsOf_iff]
  unfold tagsIn
  dsimp only
  constructor
  · intro fails
    cases given : Value.field? fields "tags" with
    | none =>
        rw [given] at fails
        exact absurd fails (Attempt.not_fails_ok _)
    | some value =>
        rw [given, Option.getD_some] at fails
        split at fails
        · rename_i truthy
          rcases fails_of_truthy.1 fails with fails | ⟨items, members, item, mem, wrong⟩
          · exact .members value given truthy fails
          · exact .item value given truthy items members item mem wrong
        · exact absurd fails (Attempt.not_fails_ok _)
  · rintro (⟨value, given, truthy, fails⟩ | ⟨value, given, truthy, items, members, item, mem, wrong⟩)
    · rw [given, Option.getD_some, if_pos truthy]
      exact fails_of_truthy.2 (.inl fails)
    · rw [given, Option.getD_some, if_pos truthy]
      exact fails_of_truthy.2 (.inr ⟨items, members, item, mem, wrong⟩)

theorem fails_scenarioOf_iff {owner : Value} {index : Nat} {fields : List (String × Value)} :
    Fails (scenarioOf owner index fields) ↔ WrongTags fields := by
  simp [scenarioOf, bind, fails_tagsIn_iff]

@[simp] theorem wrongScenario_object {fields : List (String × Value)} :
    WrongScenario (.object fields) ↔ WrongTags fields := by
  constructor
  · rintro (⟨other⟩ | ⟨_, object, wrong⟩)
    · exact absurd rfl (other fields)
    · cases object
      exact wrong
  · exact .tags fields rfl

theorem fails_scenariosOf_iff {owner : Value} {index : Nat} {items : List Value} :
    Fails (scenariosOf owner index items) ↔ ∃ item ∈ items, WrongScenario item := by
  fun_induction scenariosOf owner index items with
  | case1 => simp
  | case2 index fields items ih =>
      simp only [bind, Attempt.fails_both_iff, fails_scenarioOf_iff, ih, List.mem_cons,
        exists_eq_or_imp, wrongScenario_object]
  | case3 items index nonempty other =>
      obtain ⟨item, others, rfl⟩ := List.exists_cons_of_ne_nil nonempty
      refine iff_of_true (Attempt.fails_error _) ⟨item, List.mem_cons_self, .notObject ?_⟩
      exact fun fields object => other fields others (by rw [object])

theorem wrongFeature_object {fields : List (String × Value)} :
    WrongFeature (.object fields) ↔ Fails (scenarioItems fields) ∨
      ∃ items, scenarioItems fields = .ok items ∧
        ((∃ scenario ∈ items, WrongScenario scenario) ∨ WrongTags fields) := by
  constructor
  · rintro (⟨other⟩ | ⟨_, object, fails⟩ | ⟨_, object, items, members, scenario, mem, wrong⟩ |
      ⟨_, object, wrong⟩)
    · exact absurd rfl (other fields)
    · cases object
      exact .inl fails
    · cases object
      exact .inr ⟨items, members, .inl ⟨scenario, mem, wrong⟩⟩
    · cases object
      rcases Attempt.fails_or_ok (scenarioItems fields) with fails | ⟨items, members⟩
      · exact .inl fails
      · exact .inr ⟨items, members, .inr wrong⟩
  · rintro (fails | ⟨items, members, ⟨scenario, mem, wrong⟩ | wrong⟩)
    · exact .members fields rfl fails
    · exact .scenario fields rfl items members scenario mem wrong
    · exact .tags fields rfl wrong

theorem fails_featureOf_iff {index : Nat} {fields : List (String × Value)} :
    Fails (featureOf index fields) ↔ WrongFeature (.object fields) := by
  rw [featureOf, wrongFeature_object]
  refine Attempt.fails_bind_iff.trans (or_congr Attempt.fails_mapError_iff
    (exists_congr fun items => and_congr Attempt.mapError_eq_ok_iff ?_))
  exact Attempt.fails_both_iff.trans (or_congr fails_scenariosOf_iff fails_tagsIn_iff)

theorem fails_featuresOf_iff {index : Nat} {items : List Value} :
    Fails (featuresOf index items) ↔ ∃ item ∈ items, WrongFeature item := by
  fun_induction featuresOf index items with
  | case1 => simp
  | case2 index fields items ih =>
      simp only [bind, Attempt.fails_both_iff, fails_featureOf_iff, ih, List.mem_cons,
        exists_eq_or_imp]
  | case3 items index nonempty other =>
      obtain ⟨item, others, rfl⟩ := List.exists_cons_of_ne_nil nonempty
      refine iff_of_true (Attempt.fails_error _) ⟨item, List.mem_cons_self, .notObject ?_⟩
      exact fun fields object => other fields others (by rw [object])

theorem fails_ofValue_iff {value : Value} :
    Fails (ofValue value) ↔ (∀ items, value ≠ .list items) ∨
      ∃ items, value = .list items ∧ ∃ item ∈ items, WrongFeature item := by
  cases value with
  | list items => simp [ofValue, fails_featuresOf_iff]
  | _ => exact iff_of_true (Attempt.fails_error _) (.inl (by simp))

theorem fails_ofText_iff {text : List Char} :
    Fails (ofText text) ↔ Fails (Json.read text) ∨
      ∃ value, Json.read text = .ok value ∧ Fails (ofValue value) := by
  unfold ofText
  cases Json.read text with
  | ok value => simp
  | error error => cases error <;> simp

theorem fails_read_iff {bytes : List UInt8} : Fails (read bytes) ↔ Unreadable bytes := by
  have fails_iff : Fails (read bytes) ↔ Fails (Text.Utf8.decode bytes) ∨
      ∃ text, Text.Utf8.decode bytes = .ok text ∧ Fails (ofText (unifyLineEnds text)) := by
    simp [read, bind]
  rw [fails_iff]
  constructor
  · rintro (fails | ⟨text, decoded, fails⟩)
    · exact .bytes fails
    · rcases fails_ofText_iff.1 fails with fails | ⟨value, read, fails⟩
      · exact .text text decoded fails
      · rcases fails_ofValue_iff.1 fails with other | ⟨items, rfl, item, mem, wrong⟩
        · exact .notList text decoded value read other
        · exact .feature text decoded items read item mem wrong
  · rintro (fails | ⟨text, decoded, fails⟩ | ⟨text, decoded, value, read, other⟩ |
      ⟨text, decoded, items, read, item, mem, wrong⟩)
    · exact .inl fails
    · exact .inr ⟨text, decoded, fails_ofText_iff.2 (.inl fails)⟩
    · exact .inr ⟨text, decoded, fails_ofText_iff.2 (.inr ⟨value, read,
        fails_ofValue_iff.2 (.inl other)⟩)⟩
    · exact .inr ⟨text, decoded, fails_ofText_iff.2 (.inr ⟨_, read,
        fails_ofValue_iff.2 (.inr ⟨items, rfl, item, mem, wrong⟩)⟩)⟩

end Listing

end TagQuery
