import TagQuery.Proofs.Selector.Outcome

namespace TagQuery

def TagSet.Fresh (tags added : List Tag) : Prop :=
  ∀ tag ∈ added, ∀ other ∈ tags, tag.name ≠ other.name

theorem TagSet.LastNamed.append {name : String} {tags added : List Tag} {values : List Value}
    (named : LastNamed name tags values) (fresh : Fresh tags added) :
    values = [] ∨ LastNamed name (tags ++ added) values := by
  cases named with
  | found before last after named isLast =>
      right
      rw [List.append_assoc, List.cons_append]
      refine .found before last (after ++ added) named ?_
      intro other mem
      rcases List.mem_append.1 mem with mem | mem
      · exact isLast other mem
      · rw [← named]
        exact fresh other mem last (by simp)
  | absent _ absent => exact .inl rfl

namespace Selector

inductive Method.Positive : Method → Prop where
  | isPresent : Positive .isPresent
  | isAnyOf (candidates : List String) : Positive (.isAnyOf candidates)
  | isAllOf (candidates : List String) : Positive (.isAllOf candidates)
  | isEach (test : String) : Positive (.isEach [test])

inductive Call.Positive : Call → Prop where
  | anyOf (candidates : List String) : Positive (.anyOf candidates)
  | allOf (candidates : List String) : Positive (.allOf candidates)
  | valuesFor (name : String) {method : Method} (positive : method.Positive) :
      Positive (.valuesFor name (some method))

inductive Tree.Positive : Selector → Prop where
  | call {c : Call} (positive : c.Positive) : Positive (.call c)
  | conjunction {left right : Selector} (first : Positive left) (last : Positive right) :
      Positive (.conjunction left right)
  | disjunction {left right : Selector} (first : Positive left) (last : Positive right) :
      Positive (.disjunction left right)

theorem Call.Positive.definite {call : Call} (positive : call.Positive) : call.Definite where
  complete := by
    cases positive with
    | anyOf | allOf => exact trivial
    | valuesFor name positive =>
        cases positive with
        | isPresent | isAnyOf | isAllOf => exact trivial
        | isEach test => rfl
  chained := by
    rintro name rfl
    cases positive

theorem Tree.Positive.definite {tree : Selector} (positive : tree.Positive) : tree.Definite := by
  induction positive with
  | call positive => exact List.forall_mem_singleton.2 positive.definite
  | conjunction _ _ ihFirst ihLast | disjunction _ _ ihFirst ihLast =>
      exact List.forall_mem_append.2 ⟨ihFirst, ihLast⟩

/-! ## What holds of more tags -/

theorem Method.Positive.holds_of_nil {method : Method} (positive : method.Positive)
    (holds : method.Holds []) (values : List Value) : method.Holds values := by
  cases positive with
  | isPresent => exact absurd rfl holds
  | isAnyOf candidates =>
      obtain ⟨candidate, -, mem⟩ := holds
      cases mem
  | isAllOf candidates =>
      intro candidate mem
      cases holds candidate mem
  | isEach test => exact holds.elim

section
variable {tags added : List Tag} (fresh : TagSet.Fresh tags added)
include fresh

theorem Call.Positive.holds_append {call : Call} (positive : call.Positive)
    (holds : call.Holds tags) : call.Holds (tags ++ added) := by
  have kept {query : String} (found : ∃ tag ∈ tags, Tag.Denotes query tag.text) :
      ∃ tag ∈ tags ++ added, Tag.Denotes query tag.text := by
    obtain ⟨tag, mem, denotes⟩ := found
    exact ⟨tag, List.mem_append_left _ mem, denotes⟩
  cases positive with
  | anyOf candidates =>
      obtain ⟨query, mem, found⟩ := holds
      exact ⟨query, mem, kept found⟩
  | allOf candidates => exact fun query mem => kept (holds query mem)
  | valuesFor query positive =>
      obtain ⟨name, values, denotes, named, holds⟩ := holds
      rcases named.append fresh with rfl | namedStill
      · exact ⟨name, _, denotes, TagSet.Index.lastNamed_valuesOf _ _, positive.holds_of_nil holds _⟩
      · exact ⟨name, values, denotes, namedStill, holds⟩

theorem Tree.Positive.holds_append {tree : Selector} (positive : tree.Positive)
    (holds : tree.Holds tags) : tree.Holds (tags ++ added) := by
  induction positive with
  | call positive => exact positive.holds_append fresh holds
  | conjunction _ _ ihFirst ihLast => exact ⟨ihFirst holds.1, ihLast holds.2⟩
  | disjunction _ _ ihFirst ihLast => exact holds.imp ihFirst ihLast

end

/-- A positive selector gives verdicts, and one that holds still does after tags with new names have
been added. -/
theorem verdict_of_appended {tags added : List Tag} {tree : Selector}
    (parsed : ∀ tag ∈ tags ++ added, tag.Parsed) (fresh : TagSet.Fresh tags added)
    (positive : tree.Positive) :
    ∃ set extended, TagSet.ofTags tags = .ok set ∧ TagSet.ofTags (tags ++ added) = .ok extended ∧
      ∃ before after, tree.evaluate set = .ok (.verdict before) ∧
        tree.evaluate extended = .ok (.verdict after) ∧ (before = true → after = true) ∧
        ∀ source, parse source = .ok tree →
          set.isSelectedBy (.text source) = .ok before ∧
            extended.isSelectedBy (.text source) = .ok after := by
  have parsedTags : ∀ tag ∈ tags, tag.Parsed := fun tag mem =>
    parsed tag (List.mem_append_left _ mem)
  have gives {tags : List Tag} (parsed : ∀ tag ∈ tags, tag.Parsed) :
      ∃ holds, tree.evaluate ⟨tags⟩ = .ok (.verdict holds) ∧ (holds = true ↔ tree.Holds tags) :=
    tree.evaluate_definite_iff parsed positive.definite
  obtain ⟨before, evaluated, holds⟩ := gives parsedTags
  obtain ⟨after, evaluatedAfter, holdsAfter⟩ := gives parsed
  refine ⟨⟨tags⟩, ⟨tags ++ added⟩, TagSet.ofTags_of_parsed parsedTags,
    TagSet.ofTags_of_parsed parsed, before, after, evaluated, evaluatedAfter, ?_, ?_⟩
  · intro selects
    exact holdsAfter.2 (positive.holds_append fresh (holds.1 selects))
  · intro source compiled
    exact ⟨isSelectedBy_of_verdict compiled evaluated,
      isSelectedBy_of_verdict compiled evaluatedAfter⟩

theorem verdict_of_appended_values :
    ∃ tags added : List Tag,
      tags = [.ofString "@smoke" (.number 1), .ofString "@env=dev,qa" (.number 2)] ∧
      added = [.ofString "@os=linux" (.number 3), .ofString "@slow" (.number 4)] ∧
      ∃ set extended, TagSet.ofTags tags = .ok set ∧ TagSet.ofTags (tags ++ added) = .ok extended ∧
        set.isSelectedBy (.text "anyOf('slow') || valuesFor('@env').isAllOf('dev')") = .ok true ∧
        extended.isSelectedBy (.text "anyOf('slow') || valuesFor('@env').isAllOf('dev')") =
          .ok true := by
  obtain ⟨tags, isTags⟩ : ∃ tags : List Tag, tags =
      [.ofString "@smoke" (.number 1), .ofString "@env=dev,qa" (.number 2)] := ⟨_, rfl⟩
  obtain ⟨added, isAdded⟩ : ∃ added : List Tag, added =
      [.ofString "@os=linux" (.number 3), .ofString "@slow" (.number 4)] := ⟨_, rfl⟩
  have compiled : parse "anyOf('slow') || valuesFor('@env').isAllOf('dev')" =
      .ok (.disjunction (.call (.anyOf ["slow"]))
        (.call (.valuesFor "@env" (some (.isAllOf ["dev"]))))) :=
    parse_eq_ok_iff_readText.2 (by decide +kernel)
  have parsed : ∀ tag ∈ tags ++ added, tag.Parsed := by
    simp [isTags, isAdded]
  have fresh : TagSet.Fresh tags added := by
    have names : ∀ tag ∈ tags, tag.name = .text "smoke" ∨ tag.name = .text "env" := by
      rw [isTags]
      exact List.forall_mem_cons.2 ⟨.inl rfl, List.forall_mem_singleton.2 (.inr rfl)⟩
    have namesAdded : ∀ tag ∈ added, tag.name = .text "os" ∨ tag.name = .text "slow" := by
      rw [isAdded]
      exact List.forall_mem_cons.2 ⟨.inl rfl, List.forall_mem_singleton.2 (.inr rfl)⟩
    intro tag mem other memOther
    rcases namesAdded tag mem with named | named <;>
      rcases names other memOther with namedOther | namedOther <;> simp [named, namedOther]
  have evaluated : Tree.evaluate ⟨tags⟩ (.disjunction (.call (.anyOf ["slow"]))
      (.call (.valuesFor "@env" (some (.isAllOf ["dev"]))))) = .ok (.verdict true) := by
    have absent : TagSet.anyOf ⟨tags⟩ ["slow"] = false := by
      rw [isTags]
      decide +kernel
    have left : Tree.evaluate ⟨tags⟩ (.call (.anyOf ["slow"])) = .ok (.verdict false) := by
      rw [Tree.evaluate, Call.evaluate, absent]
    have found : (TagSet.valuesFor ⟨tags⟩ "@env").isAllOf [.text "dev"] = true := by
      rw [isTags]
      decide +kernel
    rw [Tree.evaluate_disjunction left]
    exact congrArg (fun holds => Except.ok (Answer.verdict holds)) found
  obtain ⟨set, extended, made, madeExtended, before, after, first, -, kept, selects⟩ :=
    verdict_of_appended parsed fresh
      (.disjunction (.call (.anyOf ["slow"])) (.call (.valuesFor "@env" (.isAllOf ["dev"]))))
  have selected := selects _ compiled
  have listed := TagSet.ofTags_of_parsed fun tag mem => parsed tag (List.mem_append_left _ mem)
  rw [made, Except.ok.injEq] at listed
  rw [listed, evaluated, Except.ok.injEq, Answer.verdict.injEq] at first
  rw [kept first.symm, ← first] at selected
  exact ⟨tags, added, isTags, isAdded, set, extended, made, madeExtended, selected⟩

end Selector

end TagQuery
