import TagQuery.Proofs.Members
import TagQuery.Proofs.Queries
import TagQuery.Selector.Meaning

namespace TagQuery.Selector

/-! ## Propositions -/

/-- What a method says of the values of a tag name. A text is no test, and nothing passes it. -/
def Method.Holds (values : List Value) : Method → Prop
  | .isPresent => values ≠ []
  | .isAnyOf candidates => ∃ candidate ∈ candidates, .text candidate ∈ values
  | .isAllOf candidates => ∀ candidate ∈ candidates, .text candidate ∈ values
  | .isOnly candidates => ∀ value, value ∈ values ↔ value ∈ candidates.map .text
  | .isEach _ => False

def Call.Holds (tags : List Tag) : Call → Prop
  | .anyOf candidates => ∃ query ∈ candidates, ∃ tag ∈ tags, Tag.Denotes query tag.text
  | .allOf candidates => ∀ query ∈ candidates, ∃ tag ∈ tags, Tag.Denotes query tag.text
  | .noneOf candidates => ∀ query ∈ candidates, ∀ tag ∈ tags, ¬Tag.Denotes query tag.text
  | .valuesFor _ none => True
  | .valuesFor query (some method) =>
    ∃ name values, Tag.Denotes query name ∧ TagSet.LastNamed name tags values ∧ method.Holds values

def Tree.Holds (tags : List Tag) : Selector → Prop
  | .call c => c.Holds tags
  | .negation operand => ¬operand.Holds tags
  | .conjunction left right => left.Holds tags ∧ right.Holds tags
  | .disjunction left right => left.Holds tags ∨ right.Holds tags

/-! ## The calls that are asked -/

def Method.Complete : Method → Prop
  | .isEach tests => tests.length = 1
  | _ => True

def Call.Complete : Call → Prop
  | .valuesFor _ (some method) => method.Complete
  | _ => True

instance : DecidablePred Method.Complete
  | .isEach tests => inferInstanceAs (Decidable (tests.length = 1))
  | .isPresent => isTrue trivial
  | .isAnyOf _ => isTrue trivial
  | .isAllOf _ => isTrue trivial
  | .isOnly _ => isTrue trivial

/-- The call is asked when no call before it fails: no left operand on the way decides. -/
inductive Tree.Reaches (tags : List Tag) : Selector → Call → Prop
  | call (c : Call) : Reaches tags (.call c) c
  | operand {operand : Selector} {c : Call} :
      Reaches tags operand c → Reaches tags (.negation operand) c
  | conjunctionLeft {left right : Selector} {c : Call} :
      Reaches tags left c → Reaches tags (.conjunction left right) c
  | conjunctionRight {left right : Selector} {c : Call} (holds : left.Holds tags) :
      Reaches tags right c → Reaches tags (.conjunction left right) c
  | disjunctionLeft {left right : Selector} {c : Call} :
      Reaches tags left c → Reaches tags (.disjunction left right) c
  | disjunctionRight {left right : Selector} {c : Call} (fails : ¬left.Holds tags) :
      Reaches tags right c → Reaches tags (.disjunction left right) c

theorem Tree.Reaches.mem_calls {tags : List Tag} {tree : Selector} {call : Call}
    (reached : tree.Reaches tags call) : call ∈ tree.calls := by
  induction reached with
  | call c => exact List.mem_singleton.2 rfl
  | operand _ ih => exact ih
  | conjunctionLeft _ ih | disjunctionLeft _ ih => exact List.mem_append_left _ ih
  | conjunctionRight _ _ ih | disjunctionRight _ _ ih => exact List.mem_append_right _ ih

def arityFault (tests : List String) : Fault :=
  if tests = [] then .testMissing else .testsSurplus tests.length

/-! ## What evaluation gives -/

theorem Method.evaluate_cases {values : TagValues} (texts : Value.Texts values.items)
    (method : Method) :
    (∃ holds, method.evaluate values = .ok holds ∧ method.Complete ∧
      (holds = true ↔ method.Holds values.items)) ∨
    ∃ tests, method = .isEach tests ∧ tests.length ≠ 1 ∧
      method.evaluate values = .error (arityFault tests) := by
  cases method with
  | isPresent =>
      refine .inl ⟨_, rfl, trivial, ?_⟩
      simp [TagValues.isPresent, Method.Holds]
  | isAnyOf candidates =>
      refine .inl ⟨_, rfl, trivial, ?_⟩
      simp [TagValues.isAnyOf, Method.Holds]
  | isAllOf candidates =>
      refine .inl ⟨_, rfl, trivial, ?_⟩
      simp [TagValues.isAllOf, Method.Holds]
  | isOnly candidates =>
      obtain ⟨holds, evaluated, holds_iff⟩ :=
        TagValues.exists_isOnly_texts texts (Value.texts_map candidates)
      exact .inl ⟨holds, evaluated, trivial, holds_iff⟩
  | isEach tests =>
      rcases tests with _ | ⟨test, _ | ⟨second, tests⟩⟩
      · exact .inr ⟨[], rfl, by simp, rfl⟩
      · exact .inl ⟨false, rfl, rfl, by simp [Method.Holds]⟩
      · refine .inr ⟨test :: second :: tests, rfl, by simp, ?_⟩
        simp [Method.evaluate, arityFault]

theorem Call.evaluate_cases {set : TagSet} (parsed : ∀ tag ∈ set.tags, tag.Parsed) (call : Call) :
    (∃ answer, call.evaluate set = .ok answer ∧ call.Complete ∧
      (answer.holds = true ↔ call.Holds set.tags)) ∨
    ∃ name tests, call = .valuesFor name (some (.isEach tests)) ∧ tests.length ≠ 1 ∧
      call.evaluate set = .error (arityFault tests) := by
  cases call with
  | anyOf candidates => exact .inl ⟨_, rfl, trivial, TagSet.anyOf_iff⟩
  | allOf candidates => exact .inl ⟨_, rfl, trivial, TagSet.allOf_iff⟩
  | noneOf candidates => exact .inl ⟨_, rfl, trivial, TagSet.noneOf_iff⟩
  | valuesFor query method =>
      cases method with
      | none => exact .inl ⟨_, rfl, trivial, by simp [Answer.holds, Call.Holds]⟩
      | some method =>
          have texts := TagSet.valuesFor_texts parsed query
          rcases method.evaluate_cases texts with
            ⟨holds, found, complete, same⟩ | ⟨tests, rfl, wrong, found⟩
          · refine .inl ⟨.verdict holds, by rw [Call.evaluate, found]; rfl, complete, ?_⟩
            exact same.trans (TagSet.valuesFor_iff (method.Holds ·))
          · exact .inr ⟨query, tests, rfl, wrong, by rw [Call.evaluate, found]; rfl⟩

structure Tree.Answers (set : TagSet) (tree : Selector) (answer : Answer) : Prop where
  evaluated : tree.evaluate set = .ok answer
  complete : ∀ call, tree.Reaches set.tags call → call.Complete
  holds_iff : answer.holds = true ↔ tree.Holds set.tags

structure Tree.Faults (set : TagSet) (tree : Selector) (name : String) (tests : List String) :
    Prop where
  evaluated : tree.evaluate set = .error (arityFault tests)
  reached : tree.Reaches set.tags (.valuesFor name (some (.isEach tests)))
  wrong : tests.length ≠ 1

section
variable {set : TagSet} {left right : Selector} {first last : Answer}

theorem Tree.Answers.negation {operand : Selector} {answer : Answer}
    (answers : operand.Answers set answer) :
    (Tree.negation operand).Answers set (.verdict !answer.holds) := by
  refine ⟨by rw [evaluate, answers.evaluated]; rfl, ?_, ?_⟩
  · intro call reached
    cases reached with
    | operand reached => exact answers.complete call reached
  · rw [Tree.Holds, ← answers.holds_iff, Answer.holds, Bool.not_eq_true', Bool.not_eq_true]

theorem Tree.evaluate_conjunction (evaluated : left.evaluate set = .ok first) :
    (Tree.conjunction left right).evaluate set =
      if first.holds then right.evaluate set else .ok first := by
  simp [evaluate, evaluated, bind, Except.bind]

theorem Tree.evaluate_disjunction (evaluated : left.evaluate set = .ok first) :
    (Tree.disjunction left right).evaluate set =
      if first.holds then .ok first else right.evaluate set := by
  simp [evaluate, evaluated, bind, Except.bind]

theorem Tree.Answers.conjunction_decided (answers : left.Answers set first)
    (fails : ¬left.Holds set.tags) : (Tree.conjunction left right).Answers set first := by
  have undecided : ¬first.holds = true := fails ∘ answers.holds_iff.1
  refine ⟨by rw [evaluate_conjunction answers.evaluated, if_neg undecided], ?_, ?_⟩
  · intro call reached
    cases reached with
    | conjunctionLeft reached => exact answers.complete call reached
    | conjunctionRight holds _ => exact absurd holds fails
  · exact iff_of_false undecided fun both => fails both.1

theorem Tree.Answers.conjunction (answers : left.Answers set first) (holds : left.Holds set.tags)
    (answersLast : right.Answers set last) : (Tree.conjunction left right).Answers set last := by
  have decided := answers.holds_iff.2 holds
  refine ⟨?_, ?_, ?_⟩
  · rw [evaluate_conjunction answers.evaluated, if_pos decided, answersLast.evaluated]
  · intro call reached
    cases reached with
    | conjunctionLeft reached => exact answers.complete call reached
    | conjunctionRight _ reached => exact answersLast.complete call reached
  · rw [Tree.Holds, answersLast.holds_iff, and_iff_right holds]

theorem Tree.Answers.disjunction_decided (answers : left.Answers set first)
    (holds : left.Holds set.tags) : (Tree.disjunction left right).Answers set first := by
  have decided := answers.holds_iff.2 holds
  refine ⟨by rw [evaluate_disjunction answers.evaluated, if_pos decided], ?_, ?_⟩
  · intro call reached
    cases reached with
    | disjunctionLeft reached => exact answers.complete call reached
    | disjunctionRight fails _ => exact absurd holds fails
  · exact iff_of_true decided (.inl holds)

theorem Tree.Answers.disjunction (answers : left.Answers set first) (fails : ¬left.Holds set.tags)
    (answersLast : right.Answers set last) : (Tree.disjunction left right).Answers set last := by
  have undecided : ¬first.holds = true := fails ∘ answers.holds_iff.1
  refine ⟨?_, ?_, ?_⟩
  · rw [evaluate_disjunction answers.evaluated, if_neg undecided, answersLast.evaluated]
  · intro call reached
    cases reached with
    | disjunctionLeft reached => exact answers.complete call reached
    | disjunctionRight _ reached => exact answersLast.complete call reached
  · rw [Tree.Holds, answersLast.holds_iff, or_iff_right fails]

end

theorem Tree.answers_or_faults {set : TagSet} (parsed : ∀ tag ∈ set.tags, tag.Parsed)
    (tree : Selector) :
    (∃ answer, tree.Answers set answer) ∨ ∃ name tests, tree.Faults set name tests := by
  -- A right operand counts only where the left one answers and does not decide.
  induction tree with
  | call c =>
      rcases c.evaluate_cases parsed with
        ⟨answer, found, complete, same⟩ | ⟨name, tests, rfl, wrong, found⟩
      · refine .inl ⟨answer, found, ?_, same⟩
        intro call reached
        cases reached with
        | call => exact complete
      · exact .inr ⟨name, tests, found, .call _, wrong⟩
  | negation operand ih =>
      rcases ih with ⟨answer, answers⟩ | ⟨name, tests, found, reached, wrong⟩
      · exact .inl ⟨_, answers.negation⟩
      · exact .inr ⟨name, tests, by rw [evaluate, found]; rfl, .operand reached, wrong⟩
  | conjunction left right ihLeft ihRight =>
      rcases ihLeft with ⟨first, answers⟩ | ⟨name, tests, found, reached, wrong⟩
      · by_cases holds : left.Holds set.tags
        · rcases ihRight with ⟨last, answersLast⟩ | ⟨name, tests, found, reached, wrong⟩
          · exact .inl ⟨last, answers.conjunction holds answersLast⟩
          · refine .inr ⟨name, tests, ?_, .conjunctionRight holds reached, wrong⟩
            rw [evaluate_conjunction answers.evaluated, if_pos (answers.holds_iff.2 holds), found]
        · exact .inl ⟨first, answers.conjunction_decided holds⟩
      · exact .inr ⟨name, tests, by rw [evaluate, found]; rfl, .conjunctionLeft reached, wrong⟩
  | disjunction left right ihLeft ihRight =>
      rcases ihLeft with ⟨first, answers⟩ | ⟨name, tests, found, reached, wrong⟩
      · by_cases holds : left.Holds set.tags
        · exact .inl ⟨first, answers.disjunction_decided holds⟩
        · rcases ihRight with ⟨last, answersLast⟩ | ⟨name, tests, found, reached, wrong⟩
          · exact .inl ⟨last, answers.disjunction holds answersLast⟩
          · refine .inr ⟨name, tests, ?_, .disjunctionRight holds reached, wrong⟩
            rw [evaluate_disjunction answers.evaluated, if_neg (holds ∘ answers.holds_iff.1), found]
      · exact .inr ⟨name, tests, by rw [evaluate, found]; rfl, .disjunctionLeft reached, wrong⟩

end TagQuery.Selector
