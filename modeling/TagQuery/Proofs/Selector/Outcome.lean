import TagQuery.Proofs.Selector.Evaluation
import TagQuery.Proofs.Selector.Parsing

namespace TagQuery.Selector

structure Call.Definite (call : Call) : Prop where
  complete : call.Complete
  chained : ∀ name, call ≠ .valuesFor name none

/-- Each `valuesFor` of the selector has a method, and each `isEach` has exactly one test. -/
def Tree.Definite (tree : Selector) : Prop := ∀ call ∈ tree.calls, call.Definite

instance : DecidablePred Call.Definite
  | .valuesFor name none => isFalse fun definite => definite.chained name rfl
  | .valuesFor _ (some method) =>
    decidable_of_iff method.Complete ⟨fun complete => ⟨complete, nofun⟩, fun definite => definite.complete⟩
  | .anyOf _ => isTrue ⟨trivial, nofun⟩
  | .allOf _ => isTrue ⟨trivial, nofun⟩
  | .noneOf _ => isTrue ⟨trivial, nofun⟩

instance (tree : Selector) : Decidable tree.Definite :=
  inferInstanceAs (Decidable (∀ call ∈ tree.calls, call.Definite))

theorem Call.verdict_of_definite {set : TagSet} {call : Call} (definite : call.Definite)
    {answer : Answer} (evaluated : call.evaluate set = .ok answer) :
    ∃ holds, answer = .verdict holds := by
  cases call with
  | valuesFor name method =>
      cases method with
      | none => exact absurd rfl (definite.chained name)
      | some method =>
          rw [Call.evaluate] at evaluated
          cases found : method.evaluate (set.valuesFor name) with
          | error fault =>
              rw [found] at evaluated
              cases evaluated
          | ok holds =>
              rw [found] at evaluated
              cases evaluated
              exact ⟨holds, rfl⟩
  | _ =>
      cases evaluated
      exact ⟨_, rfl⟩

theorem Tree.operand_of_conjunction {set : TagSet} {left right : Selector} {answer : Answer}
    (evaluated : (Tree.conjunction left right).evaluate set = .ok answer) :
    left.evaluate set = .ok answer ∨ right.evaluate set = .ok answer := by
  cases found : left.evaluate set with
  | error fault =>
      rw [evaluate, found] at evaluated
      cases evaluated
  | ok first =>
      rw [evaluate_conjunction found] at evaluated
      split at evaluated
      · exact .inr evaluated
      · exact .inl evaluated

theorem Tree.operand_of_disjunction {set : TagSet} {left right : Selector} {answer : Answer}
    (evaluated : (Tree.disjunction left right).evaluate set = .ok answer) :
    left.evaluate set = .ok answer ∨ right.evaluate set = .ok answer := by
  cases found : left.evaluate set with
  | error fault =>
      rw [evaluate, found] at evaluated
      cases evaluated
  | ok first =>
      rw [evaluate_disjunction found] at evaluated
      split at evaluated
      · exact .inl evaluated
      · exact .inr evaluated

theorem Tree.verdict_of_definite {set : TagSet} {tree : Selector} (definite : tree.Definite)
    {answer : Answer} (evaluated : tree.evaluate set = .ok answer) :
    ∃ holds, answer = .verdict holds := by
  induction tree with
  | call c => exact Call.verdict_of_definite (definite c (List.mem_singleton.2 rfl)) evaluated
  | negation operand ih =>
      cases found : operand.evaluate set with
      | error fault =>
          rw [evaluate, found] at evaluated
          cases evaluated
      | ok inner =>
          rw [evaluate, found] at evaluated
          cases evaluated
          exact ⟨_, rfl⟩
  | conjunction left right ihLeft ihRight =>
      rcases operand_of_conjunction evaluated with evaluated | evaluated
      · exact ihLeft (fun c mem => definite c (List.mem_append_left _ mem)) evaluated
      · exact ihRight (fun c mem => definite c (List.mem_append_right _ mem)) evaluated
  | disjunction left right ihLeft ihRight =>
      rcases operand_of_disjunction evaluated with evaluated | evaluated
      · exact ihLeft (fun c mem => definite c (List.mem_append_left _ mem)) evaluated
      · exact ihRight (fun c mem => definite c (List.mem_append_right _ mem)) evaluated

theorem Tree.evaluate_definite_iff {set : TagSet} {tree : Selector}
    (parsed : ∀ tag ∈ set.tags, tag.Parsed) (definite : tree.Definite) :
    ∃ holds, tree.evaluate set = .ok (.verdict holds) ∧ (holds = true ↔ tree.Holds set.tags) := by
  rcases tree.answers_or_faults parsed with ⟨answer, answers⟩ | ⟨name, tests, faults⟩
  · obtain ⟨holds, rfl⟩ := tree.verdict_of_definite definite answers.evaluated
    exact ⟨holds, answers.evaluated, answers.holds_iff⟩
  · exact absurd (definite _ faults.reached.mem_calls).complete faults.wrong

theorem Tree.evaluate_of_definite {set : TagSet} {tree : Selector}
    (parsed : ∀ tag ∈ set.tags, tag.Parsed) (definite : tree.Definite) :
    ∃ holds, tree.evaluate set = .ok (.verdict holds) := by
  obtain ⟨holds, evaluated, -⟩ := tree.evaluate_definite_iff parsed definite
  exact ⟨holds, evaluated⟩

def Tree.Complete (tree : Selector) : Prop := ∀ call ∈ tree.calls, call.Complete

theorem Tree.Complete.exists_answer {set : TagSet} {tree : Selector} (complete : tree.Complete)
    (parsed : ∀ tag ∈ set.tags, tag.Parsed) : ∃ answer, tree.evaluate set = .ok answer := by
  rcases tree.answers_or_faults parsed with ⟨answer, answers⟩ | ⟨name, tests, faults⟩
  · exact ⟨answer, answers.evaluated⟩
  · exact absurd (complete _ faults.reached.mem_calls) faults.wrong

theorem answer_of_parse {set : TagSet} {source : String} {tree : Selector}
    (compiled : parse source = .ok tree) :
    set.answer (.text source) = (tree.evaluate set).mapError .fault := by
  rw [TagSet.answer, parseValue, compiled]
  rfl

@[simp] theorem isSelectedBy_of_answer {set : TagSet} {source : String} :
    set.isSelectedBy (.text source) = (set.answer (.text source)).map Answer.selects := by
  rw [TagSet.isSelectedBy]
  intro absent
  cases absent

theorem isSelectedBy_of_verdict {set : TagSet} {source : String} {tree : Selector} {holds : Bool}
    (compiled : parse source = .ok tree) (evaluated : tree.evaluate set = .ok (.verdict holds)) :
    set.isSelectedBy (.text source) = .ok holds := by
  simp [answer_of_parse compiled, evaluated, Except.map, Answer.selects]

/-- A selector with verdicts gives the verdict of its proposition, and selects accordingly. -/
theorem verdict_iff_holds {tags : List Tag} {tree : Selector}
    (parsed : ∀ tag ∈ tags, tag.Parsed) (definite : tree.Definite) :
    ∃ set holds, TagSet.ofTags tags = .ok set ∧ tree.evaluate set = .ok (.verdict holds) ∧
      (holds = true ↔ tree.Holds tags) ∧
      ∀ source, parse source = .ok tree → set.isSelectedBy (.text source) = .ok holds := by
  have ends : (∃ answer, tree.Answers ⟨tags⟩ answer) ∨ ∃ name tests, tree.Faults ⟨tags⟩ name tests :=
    tree.answers_or_faults parsed
  rcases ends with ⟨answer, answers⟩ | ⟨name, tests, faults⟩
  · obtain ⟨holds, rfl⟩ := tree.verdict_of_definite definite answers.evaluated
    refine ⟨⟨tags⟩, holds, TagSet.ofTags_of_parsed parsed, answers.evaluated, answers.holds_iff, ?_⟩
    exact fun source compiled => isSelectedBy_of_verdict compiled answers.evaluated
  · have complete := (definite _ faults.reached.mem_calls).complete
    exact absurd complete faults.wrong

theorem verdict_iff_holds_shared :
    ∃ tree, parse "anyOf('@smoke') && !valuesFor('env').isAnyOf('dev')" = .ok tree ∧
      ∃ set holds, TagSet.ofTags [.ofString "@env=dev,qa" (.number 1),
          .ofString "@smoke" (.number 2), .ofString "@env=prod" (.number 3)] = .ok set ∧
        tree.evaluate set = .ok (.verdict holds) ∧
        (holds = true ↔ tree.Holds [.ofString "@env=dev,qa" (.number 1),
          .ofString "@smoke" (.number 2), .ofString "@env=prod" (.number 3)]) ∧
        ∀ source, parse source = .ok tree → set.isSelectedBy (.text source) = .ok holds := by
  have compiled : parse "anyOf('@smoke') && !valuesFor('env').isAnyOf('dev')" =
      .ok (.conjunction (.call (.anyOf ["@smoke"]))
        (.negation (.call (.valuesFor "env" (some (.isAnyOf ["dev"])))))) :=
    parse_eq_ok_iff_readText.2 (by decide +kernel)
  refine ⟨_, compiled, verdict_iff_holds (by simp) ?_⟩
  · intro call mem
    simp only [Tree.calls, List.cons_append, List.nil_append, List.mem_cons, List.not_mem_nil,
      or_false] at mem
    rcases mem with rfl | rfl
    · exact ⟨trivial, by simp⟩
    · exact ⟨trivial, by simp⟩

/-- An accepted selector gives an answer exactly if each call that is asked is complete; for all
tags it does if each call of the selector is. The fault is otherwise one of an asked `isEach` that is
given no test or several. -/
theorem answer_iff_complete {source : String} {tree : Selector} {tags : List Tag}
    (compiled : parse source = .ok tree) (parsed : ∀ tag ∈ tags, tag.Parsed) :
    ∃ set, TagSet.ofTags tags = .ok set ∧
      ((∃ answer, set.answer (.text source) = .ok answer ∧
          set.isSelectedBy (.text source) = .ok answer.selects) ↔
        ∀ call, tree.Reaches tags call → call.Complete) ∧
      ((∀ call ∈ tree.calls, call.Complete) →
        ∃ answer, set.answer (.text source) = .ok answer) ∧
      ∀ error, set.answer (.text source) = .error error →
        set.isSelectedBy (.text source) = .error error ∧
          ∃ name tests, tree.Reaches tags (.valuesFor name (some (.isEach tests))) ∧
            tests.length ≠ 1 ∧ error = .fault (arityFault tests) := by
  refine ⟨⟨tags⟩, TagSet.ofTags_of_parsed parsed, ?_⟩
  have ends : (∃ answer, tree.Answers ⟨tags⟩ answer) ∨ ∃ name tests, tree.Faults ⟨tags⟩ name tests :=
    tree.answers_or_faults parsed
  rw [isSelectedBy_of_answer, answer_of_parse compiled]
  rcases ends with ⟨answer, answers⟩ | ⟨name, tests, faults⟩
  · rw [answers.evaluated]
    refine ⟨iff_of_true ⟨answer, rfl, rfl⟩ answers.complete, fun _ => ⟨answer, rfl⟩, ?_⟩
    intro error failed
    cases failed
  · rw [faults.evaluated]
    refine ⟨iff_of_false ?_ ?_, ?_, ?_⟩
    · rintro ⟨answer, found, -⟩
      cases found
    · intro complete
      exact faults.wrong (complete _ faults.reached)
    · intro complete
      exact absurd (complete _ faults.reached.mem_calls) faults.wrong
    · intro error failed
      cases failed
      exact ⟨rfl, name, tests, faults.reached, faults.wrong, rfl⟩

theorem parse_isEach_without_test : parse "anyOf('a') && valuesFor('x').isEach()" =
    .ok (.conjunction (.call (.anyOf ["a"])) (.call (.valuesFor "x" (some (.isEach []))))) :=
  parse_eq_ok_iff_readText.2 (by decide +kernel)

theorem answer_iff_complete_guarded :
    ∃ tree, parse "anyOf('a') && valuesFor('x').isEach()" = .ok tree ∧
      ∃ set, TagSet.ofTags [.ofString "@a" (.number 1)] = .ok set ∧
        ((∃ answer, set.answer (.text "anyOf('a') && valuesFor('x').isEach()") = .ok answer ∧
            set.isSelectedBy (.text "anyOf('a') && valuesFor('x').isEach()") =
              .ok answer.selects) ↔
          ∀ call, tree.Reaches [.ofString "@a" (.number 1)] call → call.Complete) ∧
        ((∀ call ∈ tree.calls, call.Complete) →
          ∃ answer, set.answer (.text "anyOf('a') && valuesFor('x').isEach()") = .ok answer) ∧
        ∀ error, set.answer (.text "anyOf('a') && valuesFor('x').isEach()") = .error error →
          set.isSelectedBy (.text "anyOf('a') && valuesFor('x').isEach()") = .error error ∧
            ∃ name tests, tree.Reaches [.ofString "@a" (.number 1)]
                (.valuesFor name (some (.isEach tests))) ∧
              tests.length ≠ 1 ∧ error = .fault (arityFault tests) := by
  exact ⟨_, parse_isEach_without_test, answer_iff_complete parse_isEach_without_test (by simp)⟩

/-- An `isEach` without a test is accepted. Whether it then fails depends on the tags. -/
theorem isEach_without_test_accepted :
    (∃ tree, parse "anyOf('a') && valuesFor('x').isEach()" = .ok tree) ∧
      (⟨[.ofString "@a" (.number 1)]⟩ : TagSet).isSelectedBy
        (.text "anyOf('a') && valuesFor('x').isEach()") = .error (.fault .testMissing) ∧
      TagSet.empty.isSelectedBy (.text "anyOf('a') && valuesFor('x').isEach()") = .ok false := by
  refine ⟨⟨_, parse_isEach_without_test⟩, ?_, ?_⟩
  · have left : Tree.evaluate ⟨[.ofString "@a" (.number 1)]⟩ (.call (.anyOf ["a"])) =
        .ok (.verdict true) := by
      have found : TagSet.anyOf ⟨[.ofString "@a" (.number 1)]⟩ ["a"] = true := by decide +kernel
      rw [Tree.evaluate, Call.evaluate, found]
    rw [isSelectedBy_of_answer, answer_of_parse parse_isEach_without_test,
      Tree.evaluate_conjunction left]
    rfl
  · have left : Tree.evaluate .empty (.call (.anyOf ["a"])) = .ok (.verdict false) := rfl
    rw [isSelectedBy_of_answer, answer_of_parse parse_isEach_without_test,
      Tree.evaluate_conjunction left]
    rfl

end TagQuery.Selector
