import TagQuery.Proofs.Listing
import TagQuery.Proofs.Union
import TagQuery.Selection

namespace TagQuery.Selection

def scenarios (features : List Feature) : List (Feature × Scenario) :=
  features.flatMap fun feature => feature.scenarios.map fun scenario => (feature, scenario)

@[simp] theorem mem_scenarios_iff {features : List Feature} {pair : Feature × Scenario} :
    pair ∈ scenarios features ↔ pair.1 ∈ features ∧ pair.2 ∈ pair.1.scenarios := by
  obtain ⟨feature, scenario⟩ := pair
  simp only [scenarios, List.mem_flatMap, List.mem_map, Prod.mk.injEq]
  constructor
  · rintro ⟨_, memFeature, _, memScenario, rfl, rfl⟩
    exact ⟨memFeature, memScenario⟩
  · rintro ⟨memFeature, memScenario⟩
    exact ⟨feature, memFeature, scenario, memScenario, rfl, rfl⟩

@[simp] theorem scenarios_append (before after : List Feature) :
    scenarios (before ++ after) = scenarios before ++ scenarios after :=
  List.flatMap_append

def Selected.pair (selected : Selected) : Feature × Scenario := (selected.feature, selected.scenario)

def verdict (selector : Value) (pair : Feature × Scenario) : Except EvaluationError Bool := do
  let tags ← (tagsOf pair.1 pair.2).mapError .fault
  tags.isSelectedBy selector

def selects (selector : Value) (pair : Feature × Scenario) : Bool :=
  (verdict selector pair).toOption.getD false

theorem selects_of_verdict {selector : Value} {pair : Feature × Scenario} {holds : Bool}
    (answered : verdict selector pair = .ok holds) : selects selector pair = holds := by
  simp [selects, answered, Except.toOption]

theorem annotated_of_mem {features : List Feature}
    (annotated : ∀ feature ∈ features, feature.Annotated) {pair : Feature × Scenario}
    (mem : pair ∈ scenarios features) : ∀ tag ∈ pair.1.tags ++ pair.2.tags, tag.Parsed := by
  obtain ⟨memFeature, memScenario⟩ := mem_scenarios_iff.1 mem
  have feature := annotated pair.1 memFeature
  exact List.forall_mem_append.2 ⟨feature.tags, (feature.scenarios pair.2 memScenario).tags⟩

theorem verdict_of_parsed {pair : Feature × Scenario}
    (parsed : ∀ tag ∈ pair.1.tags ++ pair.2.tags, tag.Parsed) (selector : Value) :
    verdict selector pair =
      (⟨TagSet.distinct (pair.1.tags ++ pair.2.tags)⟩ : TagSet).isSelectedBy selector := by
  rw [verdict, tagsOf, TagSet.union_of_parsed parsed]
  rfl

/-! ## One scenario after the other -/

def choose (selector : Value) : List (Feature × Scenario) → Except EvaluationError (List Selected)
  | [] => .ok []
  | pair :: pairs => do
    let tags ← (tagsOf pair.1 pair.2).mapError .fault
    let isSelected ← tags.isSelectedBy selector
    let rest ← choose selector pairs
    .ok (if isSelected then ⟨pair.1, pair.2, tags⟩ :: rest else rest)

section
variable {selector : Value}

theorem choose_append (first last : List (Feature × Scenario)) :
    choose selector (first ++ last) = (do
      let chosen ← choose selector first
      let others ← choose selector last
      .ok (chosen ++ others)) := by
  induction first with
  | nil =>
      rw [List.nil_append, choose]
      cases choose selector last <;> rfl
  | cons pair first ih =>
      rw [List.cons_append, choose, choose, ih]
      cases (tagsOf pair.1 pair.2).mapError EvaluationError.fault with
      | error error => rfl
      | ok tags =>
          cases found : tags.isSelectedBy selector with
          | error error => simp only [found, bind, Except.bind]
          | ok holds =>
              simp only [found, bind, Except.bind]
              cases choose selector first with
              | error error => rfl
              | ok chosen =>
                  cases choose selector last with
                  | error error => rfl
                  | ok others => cases holds <;> rfl

theorem ofScenarios_eq (feature : Feature) (scenarios : List Scenario) :
    ofScenarios selector feature scenarios =
      choose selector (scenarios.map fun scenario => (feature, scenario)) := by
  induction scenarios with
  | nil => rfl
  | cons scenario scenarios ih => rw [ofScenarios, List.map_cons, choose, ih]

theorem ofFeatures_eq (features : List Feature) :
    ofFeatures selector features = choose selector (scenarios features) := by
  induction features with
  | nil => rfl
  | cons feature features ih =>
      rw [ofFeatures, ih, ofScenarios_eq, scenarios, scenarios, List.flatMap_cons, choose_append]

theorem ofFeatures_append (before after : List Feature) :
    ofFeatures selector (before ++ after) = (do
      let chosen ← ofFeatures selector before
      let others ← ofFeatures selector after
      .ok (chosen ++ others)) := by
  rw [ofFeatures_eq, ofFeatures_eq, ofFeatures_eq, scenarios_append, choose_append]

/-! ## What is chosen -/

structure Chosen (selector : Value) (pairs : List (Feature × Scenario)) (selected : List Selected) :
    Prop where
  pairs : selected.map Selected.pair = pairs.filter (selects selector)
  tags : ∀ one ∈ selected, tagsOf one.feature one.scenario = .ok one.tags

theorem choose_cons_iff {pair : Feature × Scenario} {pairs : List (Feature × Scenario)}
    {selected : List Selected} :
    choose selector (pair :: pairs) = .ok selected ↔
      ∃ tags holds rest, tagsOf pair.1 pair.2 = .ok tags ∧ tags.isSelectedBy selector = .ok holds ∧
        choose selector pairs = .ok rest ∧
        selected = if holds then ⟨pair.1, pair.2, tags⟩ :: rest else rest := by
  simp only [choose, bind, Attempt.bind_eq_ok_iff, Attempt.mapError_eq_ok_iff, Except.ok.injEq]
  constructor
  · rintro ⟨tags, united, holds, answered, rest, chosen, rfl⟩
    exact ⟨tags, holds, rest, united, answered, chosen, rfl⟩
  · rintro ⟨tags, holds, rest, united, answered, chosen, rfl⟩
    exact ⟨tags, united, holds, answered, rest, chosen, rfl⟩

theorem verdict_eq_ok_iff {pair : Feature × Scenario} {holds : Bool} :
    verdict selector pair = .ok holds ↔
      ∃ tags, tagsOf pair.1 pair.2 = .ok tags ∧ tags.isSelectedBy selector = .ok holds := by
  simp [verdict, bind]

theorem chosen_of_choose {pairs : List (Feature × Scenario)} {selected : List Selected}
    (done : choose selector pairs = .ok selected) :
    (∀ pair ∈ pairs, ∃ holds, verdict selector pair = .ok holds) ∧
      Chosen selector pairs selected := by
  induction pairs generalizing selected with
  | nil =>
      cases done
      exact ⟨by simp, rfl, by simp⟩
  | cons pair pairs ih =>
      obtain ⟨tags, holds, rest, united, answered, doneRest, rfl⟩ := choose_cons_iff.1 done
      obtain ⟨verdicts, chosen⟩ := ih doneRest
      have given := verdict_eq_ok_iff.2 ⟨tags, united, answered⟩
      refine ⟨List.forall_mem_cons.2 ⟨⟨holds, given⟩, verdicts⟩, ?_⟩
      cases holds with
      | true =>
          refine ⟨?_, List.forall_mem_cons.2 ⟨united, chosen.tags⟩⟩
          simp [selects_of_verdict given, ← chosen.pairs, Selected.pair]
      | false =>
          refine ⟨?_, chosen.tags⟩
          simp [selects_of_verdict given, ← chosen.pairs]

theorem exists_choose {pairs : List (Feature × Scenario)}
    (verdicts : ∀ pair ∈ pairs, ∃ holds, verdict selector pair = .ok holds) :
    ∃ selected, choose selector pairs = .ok selected := by
  induction pairs with
  | nil => exact ⟨[], rfl⟩
  | cons pair pairs ih =>
      obtain ⟨⟨holds, given⟩, verdicts⟩ := List.forall_mem_cons.1 verdicts
      obtain ⟨tags, united, answered⟩ := verdict_eq_ok_iff.1 given
      obtain ⟨rest, done⟩ := ih verdicts
      exact ⟨_, choose_cons_iff.2 ⟨tags, holds, rest, united, answered, done, rfl⟩⟩

theorem exists_ofFeatures {features : List Feature}
    (verdicts : ∀ pair ∈ scenarios features, ∃ holds, verdict selector pair = .ok holds) :
    ∃ selected, ofFeatures selector features = .ok selected ∧
      Chosen selector (scenarios features) selected := by
  obtain ⟨selected, done⟩ := exists_choose verdicts
  exact ⟨selected, (ofFeatures_eq features).trans done, (chosen_of_choose done).2⟩

theorem fails_ofFeatures_iff {features : List Feature} :
    Attempt.Fails (ofFeatures selector features) ↔
      ∃ pair ∈ scenarios features, Attempt.Fails (verdict selector pair) := by
  constructor
  · intro fails
    by_contra none
    have verdicts : ∀ pair ∈ scenarios features, ∃ holds, verdict selector pair = .ok holds :=
      fun pair mem => (Attempt.fails_or_ok _).resolve_left fun fails => none ⟨pair, mem, fails⟩
    obtain ⟨selected, done, -⟩ := exists_ofFeatures verdicts
    exact Attempt.not_fails_ok selected (done ▸ fails)
  · rintro ⟨pair, mem, fails⟩
    refine (Attempt.fails_or_ok _).resolve_right ?_
    rintro ⟨selected, done⟩
    obtain ⟨holds, answered⟩ := (chosen_of_choose (ofFeatures_eq features ▸ done)).1 pair mem
    exact Attempt.not_fails_ok holds (answered ▸ fails)

end

end TagQuery.Selection
