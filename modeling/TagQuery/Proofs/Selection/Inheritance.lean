import Mathlib.Data.List.Forall2
import TagQuery.Proofs.Selection.Filtering
import TagQuery.Proofs.Selector.Agreement
import TagQuery.Proofs.Selector.Outcome

namespace TagQuery

/-- The scenario after the moved tags have been added to its own. -/
structure Scenario.Takes (moved : List Tag) (scenario taken : Scenario) : Prop where
  name : taken.name = scenario.name
  line : taken.line = scenario.line
  tags : taken.tags.Perm (moved ++ scenario.tags)

/-- The feature after some of its tags have been moved to each of its scenarios. -/
inductive Feature.Lowers (feature lowered : Feature) : Prop where
  | move (moved : List Tag) (name : lowered.name = feature.name)
      (tags : feature.tags.Perm (lowered.tags ++ moved))
      (scenarios : List.Forall₂ (Scenario.Takes moved) feature.scenarios lowered.scenarios)

namespace Selection

structure Same (pair other : Feature × Scenario) : Prop where
  feature : other.1.name = pair.1.name
  name : other.2.name = pair.2.name
  line : other.2.line = pair.2.line
  tags : (other.1.tags ++ other.2.tags).Perm (pair.1.tags ++ pair.2.tags)

theorem same_of_lowers {feature lowered : Feature} (lowers : feature.Lowers lowered) :
    List.Forall₂ Same (feature.scenarios.map fun scenario => (feature, scenario))
      (lowered.scenarios.map fun scenario => (lowered, scenario)) := by
  obtain ⟨moved, name, tags, scenarios⟩ := lowers
  rw [List.forall₂_map_left_iff, List.forall₂_map_right_iff]
  refine scenarios.imp fun scenario taken takes => ⟨name, takes.name, takes.line, ?_⟩
  have taken : (lowered.tags ++ taken.tags).Perm (lowered.tags ++ moved ++ scenario.tags) := by
    rw [List.append_assoc]
    exact takes.tags.append_left _
  exact taken.trans (tags.symm.append_right _)

theorem same_scenarios {features lowered : List Feature}
    (lowers : List.Forall₂ Feature.Lowers features lowered) :
    List.Forall₂ Same (scenarios features) (scenarios lowered) := by
  induction lowers with
  | nil => exact .nil
  | cons first _ ih => exact List.rel_append (same_of_lowers first) ih

theorem Same.verdict {pair other : Feature × Scenario} (same : Same pair other)
    (parsed : ∀ tag ∈ pair.1.tags ++ pair.2.tags, tag.Parsed)
    (unambiguous : TagSet.Unambiguous (pair.1.tags ++ pair.2.tags)) (selector : Value) :
    verdict selector other = verdict selector pair := by
  have parsedOther : ∀ tag ∈ other.1.tags ++ other.2.tags, tag.Parsed := fun tag mem =>
    parsed tag (same.tags.subset mem)
  have united := (TagSet.ofTags_listed parsed unambiguous (.refl _) (.refl _)).2
  have unitedOther := (TagSet.ofTags_listed parsed unambiguous same.tags (.refl _)).2
  rw [verdict_of_parsed parsed, verdict_of_parsed parsedOther, ← united.isSelectedBy,
    ← unitedOther.isSelectedBy]

theorem same_verdicts {features lowered : List Feature}
    (annotated : ∀ feature ∈ features, feature.Annotated)
    (unambiguous : ∀ pair ∈ scenarios features,
      TagSet.Unambiguous (pair.1.tags ++ pair.2.tags))
    (lowers : List.Forall₂ Feature.Lowers features lowered) (selector : Value) :
    List.Forall₂ (fun pair other => verdict selector other = verdict selector pair ∧ Same pair other)
      (scenarios features) (scenarios lowered) := by
  have known : ∀ pair ∈ scenarios features, ∀ other, Same pair other →
      verdict selector other = verdict selector pair := fun pair mem other same =>
    same.verdict (annotated_of_mem annotated mem) (unambiguous pair mem) selector
  -- Only for scenarios of the listing the tags are known to be unambiguous.
  refine ((List.forall₂_and_left _ _).2 ⟨known, same_scenarios lowers⟩).imp ?_
  exact fun pair other ⟨known, same⟩ => ⟨known other same, same⟩

theorem exists_lowered {features lowered : List Feature} {selector : Value}
    (same : List.Forall₂
      (fun pair other => verdict selector other = verdict selector pair ∧ Same pair other)
      (scenarios features) (scenarios lowered))
    (verdicts : ∀ pair ∈ scenarios features, ∃ holds, verdict selector pair = .ok holds)
    {selected : List Selected} (chosen : Chosen selector (scenarios features) selected) :
    ∃ again, ofFeatures selector lowered = .ok again ∧
      List.Forall₂ Same (selected.map Selected.pair) (again.map Selected.pair) ∧
      again.map Selected.pair = (scenarios lowered).filter (selects selector) ∧
      (scenarios lowered).map (selects selector) = (scenarios features).map (selects selector) := by
  have sameVerdicts : (scenarios lowered).map (verdict selector) =
      (scenarios features).map (verdict selector) := by
    rw [← List.forall₂_eq_eq_eq, List.forall₂_map_left_iff, List.forall₂_map_right_iff]
    exact same.flip.imp fun _ _ => And.left
  have verdictsLowered : ∀ other ∈ scenarios lowered, ∃ holds, verdict selector other = .ok holds := by
    intro other mem
    have known : verdict selector other ∈ (scenarios features).map (verdict selector) :=
      sameVerdicts ▸ List.mem_map_of_mem mem
    obtain ⟨pair, memPair, sameVerdict⟩ := List.mem_map.1 known
    exact sameVerdict ▸ verdicts pair memPair
  obtain ⟨again, done, chosenAgain⟩ := exists_ofFeatures verdictsLowered
  refine ⟨again, done, ?_, chosenAgain.pairs, ?_⟩
  · rw [chosen.pairs, chosenAgain.pairs]
    refine (List.rel_filter (fun pair other known => ?_) same).imp fun _ _ => And.right
    simp only [selects, known.1]
  · have sameSelects := congrArg (List.map fun given => given.toOption.getD false) sameVerdicts
    rw [List.map_map, List.map_map] at sameSelects
    exact sameSelects

theorem answered_of_definite {features : List Feature}
    (annotated : ∀ feature ∈ features, feature.Annotated) {source : String} {tree : Selector}
    (compiled : Selector.parse source = .ok tree) (definite : tree.Definite) :
    ∀ pair ∈ scenarios features, ∀ tags, tagsOf pair.1 pair.2 = .ok tags →
      ∃ holds, tags.isSelectedBy (.text source) = .ok holds := by
  intro pair mem tags united
  have parsed := annotated_of_mem annotated mem
  rw [tagsOf, TagSet.union_of_parsed parsed] at united
  rw [← Except.ok.inj united]
  obtain ⟨holds, evaluated⟩ := Selector.Tree.evaluate_of_definite
    (fun tag mem => parsed tag (TagSet.distinct_subset _ mem)) definite
  exact ⟨holds, Selector.isSelectedBy_of_verdict compiled evaluated⟩

theorem mem_texts_tagsOf {pair : Feature × Scenario}
    (parsed : ∀ tag ∈ pair.1.tags ++ pair.2.tags, tag.Parsed) :
    ∃ tags, tagsOf pair.1 pair.2 = .ok tags ∧ ∀ text, text ∈ tags.texts ↔
      text ∈ pair.1.tags.map (·.text) ∨ text ∈ pair.2.tags.map (·.text) := by
  refine ⟨_, TagSet.union_of_parsed parsed, fun text => ?_⟩
  rw [TagSet.texts, TagSet.mem_texts_distinct parsed, List.map_append, List.mem_append]

/-- The scenarios that are selected are those that the selector selects by the tags of their feature
and their own, in the order of the listing. A listing can be selected from part by part, and moving
tags from a feature to its scenarios selects at the same places. -/
theorem ofFeatures_inherited {features : List Feature} {selector : Value}
    (annotated : ∀ feature ∈ features, feature.Annotated)
    (answered : ∀ pair ∈ scenarios features, ∀ tags, tagsOf pair.1 pair.2 = .ok tags →
      ∃ holds, tags.isSelectedBy selector = .ok holds) :
    ∃ selected, ofFeatures selector features = .ok selected ∧
      selected.map Selected.pair = (scenarios features).filter (selects selector) ∧
      (∀ pair ∈ scenarios features, ∃ tags, tagsOf pair.1 pair.2 = .ok tags ∧
        (selects selector pair = true ↔ tags.isSelectedBy selector = .ok true) ∧
        ∀ text, text ∈ tags.texts ↔
          text ∈ pair.1.tags.map (·.text) ∨ text ∈ pair.2.tags.map (·.text)) ∧
      (∀ before after, features = before ++ after →
        ∃ first last, ofFeatures selector before = .ok first ∧
          ofFeatures selector after = .ok last ∧ selected = first ++ last) ∧
      ∀ lowered, List.Forall₂ Feature.Lowers features lowered →
        (∀ pair ∈ scenarios features, TagSet.Unambiguous (pair.1.tags ++ pair.2.tags)) →
        ∃ again, ofFeatures selector lowered = .ok again ∧
          List.Forall₂ Same (selected.map Selected.pair) (again.map Selected.pair) ∧
          again.map Selected.pair = (scenarios lowered).filter (selects selector) ∧
          (scenarios lowered).map (selects selector) = (scenarios features).map (selects selector) := by
  have parsed (pair : Feature × Scenario) (mem : pair ∈ scenarios features) :=
    annotated_of_mem annotated mem
  have verdicts : ∀ pair ∈ scenarios features, ∃ holds, verdict selector pair = .ok holds := by
    intro pair mem
    obtain ⟨tags, united, -⟩ := mem_texts_tagsOf (parsed pair mem)
    obtain ⟨holds, given⟩ := answered pair mem tags united
    exact ⟨holds, verdict_eq_ok_iff.2 ⟨tags, united, given⟩⟩
  obtain ⟨selected, done, chosen⟩ := exists_ofFeatures verdicts
  refine ⟨selected, done, chosen.pairs, ?_, ?_, ?_⟩
  · intro pair mem
    obtain ⟨tags, united, texts⟩ := mem_texts_tagsOf (parsed pair mem)
    obtain ⟨holds, given⟩ := answered pair mem tags united
    refine ⟨tags, united, ?_, texts⟩
    rw [selects_of_verdict (verdict_eq_ok_iff.2 ⟨tags, united, given⟩), given, Except.ok.injEq]
  · rintro before after rfl
    rw [ofFeatures_append] at done
    obtain ⟨first, doneFirst, done⟩ := Attempt.bind_eq_ok_iff.1 done
    obtain ⟨last, doneLast, joined⟩ := Attempt.bind_eq_ok_iff.1 done
    exact ⟨first, last, doneFirst, doneLast, (Except.ok.inj joined).symm⟩
  · exact fun lowered lowers unambiguous =>
      exists_lowered (same_verdicts annotated unambiguous lowers selector) verdicts chosen

theorem ofFeatures_inherited_behind :
    ∃ (env slow fast : Tag) (features lowered : List Feature) (selector : Value)
      (selected again : List Selected),
      [env, slow, fast] = [.ofString "@env=dev" (.number 1), .ofString "@slow" (.number 2),
        .ofString "@fast" (.number 4)] ∧
      features = [⟨.text "f", [env, slow], [⟨.text "a", .int 5, [fast]⟩, ⟨.text "b", .int 7, []⟩]⟩] ∧
      lowered =
        [⟨.text "f", [slow], [⟨.text "a", .int 5, [fast, env]⟩, ⟨.text "b", .int 7, [env]⟩]⟩] ∧
      selector = .text "valuesFor('env').isAnyOf('dev') && !anyOf('fast')" ∧
      ofFeatures selector features = .ok selected ∧ ofFeatures selector lowered = .ok again ∧
      List.Forall₂ Same (selected.map Selected.pair) (again.map Selected.pair) ∧
      (scenarios lowered).map (selects selector) = (scenarios features).map (selects selector) := by
  obtain ⟨env, isEnv⟩ : ∃ tag, tag = Tag.ofString "@env=dev" (.number 1) := ⟨_, rfl⟩
  obtain ⟨slow, isSlow⟩ : ∃ tag, tag = Tag.ofString "@slow" (.number 2) := ⟨_, rfl⟩
  obtain ⟨fast, isFast⟩ : ∃ tag, tag = Tag.ofString "@fast" (.number 4) := ⟨_, rfl⟩
  have compiled : Selector.parse "valuesFor('env').isAnyOf('dev') && !anyOf('fast')" =
      .ok (.conjunction (.call (.valuesFor "env" (some (.isAnyOf ["dev"]))))
        (.negation (.call (.anyOf ["fast"])))) :=
    Selector.parse_eq_ok_iff_readText.2 (by decide +kernel)
  have parsed : env.Parsed ∧ slow.Parsed ∧ fast.Parsed := by
    rw [isEnv, isSlow, isFast]
    exact ⟨Tag.parsed_ofString _ _, Tag.parsed_ofString _ _, Tag.parsed_ofString _ _⟩
  have names : env.name = .text "env" ∧ slow.name = .text "slow" ∧ fast.name = .text "fast" := by
    rw [isEnv, isSlow, isFast]
    exact ⟨rfl, rfl, rfl⟩
  obtain ⟨features, listed⟩ : ∃ features : List Feature, features =
      [⟨.text "f", [env, slow], [⟨.text "a", .int 5, [fast]⟩, ⟨.text "b", .int 7, []⟩]⟩] := ⟨_, rfl⟩
  have annotated : ∀ feature ∈ features, feature.Annotated := by
    rw [listed]
    refine List.forall_mem_singleton.2 ⟨by simp [parsed], ?_⟩
    exact List.forall_mem_cons.2 ⟨⟨by simp [parsed]⟩, List.forall_mem_singleton.2 ⟨by simp⟩⟩
  have unambiguous : TagSet.Unambiguous [env, slow, fast] :=
    TagSet.unambiguous_of_nodup (by simp [names])
  obtain ⟨selected, done, -, -, -, inherited⟩ :=
    ofFeatures_inherited annotated (answered_of_definite annotated compiled (by decide))
  obtain ⟨again, doneAgain, same, -, places⟩ := inherited
    [⟨.text "f", [slow], [⟨.text "a", .int 5, [fast, env]⟩, ⟨.text "b", .int 7, [env]⟩]⟩]
    (by
      rw [listed]
      refine .cons (.move [env] rfl (.swap _ _ _) (.cons ⟨rfl, rfl, .swap _ _ _⟩ ?_)) .nil
      exact .cons ⟨rfl, rfl, .refl _⟩ .nil)
    (by
      intro pair mem tag memTag other memOther
      have known : pair.1.tags ++ pair.2.tags ⊆ [env, slow, fast] := by
        rw [listed, scenarios, List.flatMap_singleton] at mem
        simp only [List.map_cons, List.map_nil, List.mem_cons, List.not_mem_nil, or_false] at mem
        rcases mem with rfl | rfl <;> simp
      exact unambiguous tag (known memTag) other (known memOther))
  exact ⟨env, slow, fast, features, _, _, selected, again, by rw [isEnv, isSlow, isFast], listed, rfl,
    rfl, done, doneAgain, same, places⟩

end Selection

end TagQuery
