import TagQuery.Proofs.Selector.Outcome

namespace TagQuery.Selector

inductive Operator where
  | conjunction
  | disjunction
deriving DecidableEq, Repr

namespace Operator

def dual : Operator → Operator
  | conjunction => disjunction
  | disjunction => conjunction

def join : Operator → Selector → Selector → Selector
  | conjunction => .conjunction
  | disjunction => .disjunction

/-- How the left operand has to count for the right one to be asked. -/
def continues : Operator → Bool
  | conjunction => true
  | disjunction => false

theorem dual_dual (operator : Operator) : operator.dual.dual = operator := by
  cases operator <;> rfl

theorem continues_dual (operator : Operator) : operator.dual.continues = !operator.continues := by
  cases operator <;> rfl

end Operator

inductive Law : Selector → Selector → Prop where
  | associative (operator : Operator) (p q r : Selector) :
      Law (operator.join (operator.join p q) r) (operator.join p (operator.join q r))
  | distributive (operator : Operator) (p q r : Selector) :
      Law (operator.join p (operator.dual.join q r))
        (operator.dual.join (operator.join p q) (operator.join p r))
  | absorption (operator : Operator) (p q : Selector) :
      Law (operator.join p (operator.dual.join p q)) p
  | negation (operator : Operator) (p q : Selector) :
      Law (.negation (operator.join p q)) (operator.dual.join (.negation p) (.negation q))
  | noneOf (candidates : List String) :
      Law (.call (.noneOf candidates)) (.negation (.call (.anyOf candidates)))
  | anyOf (candidates others : List String) :
      Law (.call (.anyOf (candidates ++ others)))
        (.disjunction (.call (.anyOf candidates)) (.call (.anyOf others)))
  | allOf (candidates others : List String) :
      Law (.call (.allOf (candidates ++ others)))
        (.conjunction (.call (.allOf candidates)) (.call (.allOf others)))

inductive Operator.Nests (operator : Operator) : List Selector → Selector → Prop where
  | operand (tree : Selector) : Nests operator [tree] tree
  | join {operands others : List Selector} {left right : Selector}
      (nestsLeft : Nests operator operands left) (nestsRight : Nests operator others right) :
      Nests operator (operands ++ others) (operator.join left right)

inductive Context where
  | hole
  | negation (operand : Context)
  | left (operator : Operator) (operand : Context) (last : Selector)
  | right (operator : Operator) (first : Selector) (operand : Context)

def Context.fill : Context → Selector → Selector
  | .hole, tree => tree
  | .negation operand, tree => .negation (operand.fill tree)
  | .left operator operand last, tree => operator.join (operand.fill tree) last
  | .right operator first operand, tree => operator.join first (operand.fill tree)

/-! ## Outcomes of operators -/

abbrev Outcome := Except Fault Answer

def Outcome.negated : Outcome → Outcome
  | .error fault => .error fault
  | .ok answer => .ok (.verdict !answer.holds)

def Operator.outcome (operator : Operator) : Outcome → Outcome → Outcome
  | .error fault, _ => .error fault
  | .ok first, last => if first.holds = operator.continues then last else .ok first

@[simp] theorem Tree.evaluate_negation (set : TagSet) (operand : Selector) :
    (Tree.negation operand).evaluate set = Outcome.negated (operand.evaluate set) := by
  cases found : operand.evaluate set <;> rw [evaluate, found] <;> rfl

@[simp] theorem Tree.evaluate_join (set : TagSet) (operator : Operator) (left right : Selector) :
    (operator.join left right).evaluate set =
      operator.outcome (left.evaluate set) (right.evaluate set) := by
  cases found : left.evaluate set with
  | error fault => cases operator <;> rw [Operator.join, evaluate, found] <;> rfl
  | ok first =>
      cases operator with
      | conjunction => exact evaluate_conjunction found
      | disjunction =>
          rw [Operator.join, evaluate_disjunction found, Operator.outcome]
          cases first.holds <;> rfl

namespace Operator

variable (operator : Operator) {first : Answer}

theorem asked_or_decided (first : Answer) :
    first.holds = operator.continues ∨ first.holds = operator.dual.continues := by
  rw [continues_dual]
  exact (Decidable.em _).imp_right Bool.eq_not.2

theorem outcome_asked (asked : first.holds = operator.continues) (last : Outcome) :
    operator.outcome (.ok first) last = last := if_pos asked

theorem outcome_decided (decided : first.holds = operator.dual.continues) (last : Outcome) :
    operator.outcome (.ok first) last = .ok first := by
  rw [continues_dual] at decided
  exact if_neg (Bool.eq_not.1 decided)

theorem dual_outcome_decided (asked : first.holds = operator.continues) (last : Outcome) :
    operator.dual.outcome (.ok first) last = .ok first := by
  apply outcome_decided
  rwa [dual_dual]

theorem outcome_assoc (p q r : Outcome) :
    operator.outcome (operator.outcome p q) r = operator.outcome p (operator.outcome q r) := by
  cases p with
  | error fault => rfl
  | ok first =>
      rcases operator.asked_or_decided first with asked | decided
      · rw [outcome_asked _ asked, outcome_asked _ asked]
      · rw [outcome_decided _ decided, outcome_decided _ decided, outcome_decided _ decided]

theorem outcome_distrib (p q r : Outcome) :
    operator.outcome p (operator.dual.outcome q r) =
      operator.dual.outcome (operator.outcome p q) (operator.outcome p r) := by
  cases p with
  | error fault => rfl
  | ok first =>
      rcases operator.asked_or_decided first with asked | decided
      · rw [outcome_asked _ asked, outcome_asked _ asked, outcome_asked _ asked]
      · -- The dual operator asks on, and its right operand is decided in the same way.
        rw [outcome_decided _ decided, outcome_decided _ decided, outcome_asked _ decided,
          outcome_decided _ decided]

theorem outcome_absorb (p q : Outcome) :
    operator.outcome p (operator.dual.outcome p q) = p := by
  cases p with
  | error fault => rfl
  | ok first =>
      rcases operator.asked_or_decided first with asked | decided
      · rw [outcome_asked _ asked, dual_outcome_decided _ asked]
      · exact outcome_decided _ decided _

theorem negated_outcome (p q : Outcome) :
    Outcome.negated (operator.outcome p q) =
      operator.dual.outcome (Outcome.negated p) (Outcome.negated q) := by
  cases p with
  | error fault => rfl
  | ok first =>
      have opposite : (Answer.verdict !first.holds).holds = !first.holds := rfl
      rcases operator.asked_or_decided first with asked | decided
      · have askedNegated : (Answer.verdict !first.holds).holds = operator.dual.continues := by
          rw [opposite, asked, continues_dual]
        rw [outcome_asked _ asked, Outcome.negated, outcome_asked _ askedNegated]
      · have decidedNegated : (Answer.verdict !first.holds).holds = operator.continues := by
          rw [opposite, decided, continues_dual, Bool.not_not]
        rw [outcome_decided _ decided, Outcome.negated, dual_outcome_decided _ decidedNegated]

theorem outcome_or (a b : Bool) :
    disjunction.outcome (.ok (.verdict a)) (.ok (.verdict b)) = .ok (.verdict (a || b)) := by
  cases a <;> rfl

theorem outcome_and (a b : Bool) :
    conjunction.outcome (.ok (.verdict a)) (.ok (.verdict b)) = .ok (.verdict (a && b)) := by
  cases a <;> rfl

end Operator

/-! ## Laws inside selectors -/

theorem Law.evaluate (set : TagSet) {tree other : Selector} (law : Law tree other) :
    tree.evaluate set = other.evaluate set := by
  cases law with
  | associative operator p q r => simp [operator.outcome_assoc]
  | distributive operator p q r => simp [operator.outcome_distrib]
  | absorption operator p q => simp [operator.outcome_absorb]
  | negation operator p q => simp [operator.negated_outcome]
  | noneOf candidates => rfl
  | anyOf candidates others =>
      calc
        (Tree.call (.anyOf (candidates ++ others))).evaluate set
            = .ok (.verdict (set.anyOf candidates || set.anyOf others)) := by
          rw [Tree.evaluate, Call.evaluate, TagSet.anyOf, List.any_append]
          rfl
        _ = Operator.disjunction.outcome (.ok (.verdict (set.anyOf candidates)))
              (.ok (.verdict (set.anyOf others))) := (Operator.outcome_or _ _).symm
        _ = (Tree.disjunction (.call (.anyOf candidates)) (.call (.anyOf others))).evaluate set :=
          (Tree.evaluate_join set .disjunction (.call (.anyOf _)) (.call (.anyOf _))).symm
  | allOf candidates others =>
      calc
        (Tree.call (.allOf (candidates ++ others))).evaluate set
            = .ok (.verdict (set.allOf candidates && set.allOf others)) := by
          rw [Tree.evaluate, Call.evaluate, TagSet.allOf, List.all_append]
          rfl
        _ = Operator.conjunction.outcome (.ok (.verdict (set.allOf candidates)))
              (.ok (.verdict (set.allOf others))) := (Operator.outcome_and _ _).symm
        _ = (Tree.conjunction (.call (.allOf candidates)) (.call (.allOf others))).evaluate set :=
          (Tree.evaluate_join set .conjunction (.call (.allOf _)) (.call (.allOf _))).symm

theorem Operator.Nests.outcome (set : TagSet) {operator : Operator} {operands : List Selector}
    {tree : Selector} (nests : operator.Nests operands tree) (first : Outcome) :
    operator.outcome first (tree.evaluate set) =
      (operands.map (Tree.evaluate set)).foldl operator.outcome first := by
  induction nests generalizing first with
  | operand tree => rfl
  | join _ _ ihLeft ihRight =>
      rw [Tree.evaluate_join, ← operator.outcome_assoc, ihRight, ihLeft, List.map_append,
        List.foldl_append]

theorem Operator.Nests.evaluate_eq (set : TagSet) {operator : Operator} {operands : List Selector}
    {tree other : Selector} (nests : operator.Nests operands tree)
    (nestsOther : operator.Nests operands other) : tree.evaluate set = other.evaluate set := by
  have neutral (outcome : Outcome) :
      operator.outcome (.ok (.verdict operator.continues)) outcome = outcome := if_pos rfl
  rw [← neutral (tree.evaluate set), nests.outcome, ← nestsOther.outcome, neutral]

theorem Context.evaluate_fill {set : TagSet} {tree other : Selector}
    (same : tree.evaluate set = other.evaluate set) (context : Context) :
    (context.fill tree).evaluate set = (context.fill other).evaluate set := by
  induction context with
  | hole => exact same
  | negation operand ih => simp [fill, ih]
  | left operator operand last ih => simp [fill, ih]
  | right operator first operand ih => simp [fill, ih]

/-- No selection tells one selector from the other, whether it is given as a tree or as a text. -/
structure Interchangeable (set : TagSet) (tree other : Selector) : Prop where
  evaluate : tree.evaluate set = other.evaluate set
  answer : tree.Complete ∨ other.Complete →
    ∃ answer, tree.evaluate set = .ok answer ∧ other.evaluate set = .ok answer
  text : ∀ source sourceOther, parse source = .ok tree → parse sourceOther = .ok other →
    set.answer (.text source) = set.answer (.text sourceOther) ∧
      set.isSelectedBy (.text source) = set.isSelectedBy (.text sourceOther)

theorem interchangeable_of_evaluate {set : TagSet} {tree other : Selector}
    (parsed : ∀ tag ∈ set.tags, tag.Parsed) (same : tree.evaluate set = other.evaluate set) :
    Interchangeable set tree other := by
  refine ⟨same, ?_, ?_⟩
  · rintro (complete | complete)
    · obtain ⟨answer, evaluated⟩ := complete.exists_answer parsed
      exact ⟨answer, evaluated, same ▸ evaluated⟩
    · obtain ⟨answer, evaluated⟩ := complete.exists_answer parsed
      exact ⟨answer, same ▸ evaluated, evaluated⟩
  · intro source sourceOther compiled compiledOther
    have sameAnswer : set.answer (.text source) = set.answer (.text sourceOther) := by
      rw [answer_of_parse compiled, answer_of_parse compiledOther, same]
    exact ⟨sameAnswer, by simp [sameAnswer]⟩

/-- Rewriting by a law anywhere in a selector changes no answer, nor does another nesting of a chain
of one operator. -/
theorem interchangeable_of_law {tags : List Tag} (parsed : ∀ tag ∈ tags, tag.Parsed) :
    ∃ set, TagSet.ofTags tags = .ok set ∧ ∀ context : Context,
      (∀ tree other, Law tree other →
        Interchangeable set (context.fill tree) (context.fill other)) ∧
      ∀ (operator : Operator) operands tree other,
        operator.Nests operands tree → operator.Nests operands other →
          Interchangeable set (context.fill tree) (context.fill other) := by
  refine ⟨⟨tags⟩, TagSet.ofTags_of_parsed parsed, fun context => ⟨?_, ?_⟩⟩
  · intro tree other law
    exact interchangeable_of_evaluate parsed (context.evaluate_fill (law.evaluate _))
  · intro operator operands tree other nests nestsOther
    exact interchangeable_of_evaluate parsed
      (context.evaluate_fill (nests.evaluate_eq _ nestsOther))

theorem interchangeable_of_law_values :
    ∃ set, TagSet.ofTags [.ofString "@env=dev" (.number 1)] = .ok set ∧
      ∃ env fast slow : Selector, [env, fast, slow] =
          [.call (.valuesFor "env" none), .call (.anyOf ["fast"]), .call (.noneOf ["slow"])] ∧
        Interchangeable set (.negation (.disjunction env (.conjunction fast slow)))
          (.negation (.conjunction (.disjunction env fast) (.disjunction env slow))) ∧
        Interchangeable set (.disjunction (.disjunction fast env) slow)
          (.disjunction fast (.disjunction env slow)) ∧
        (Tree.disjunction env (.conjunction fast slow)).evaluate set =
          .ok (.values (set.valuesFor "env")) := by
  obtain ⟨set, made, laws⟩ := interchangeable_of_law
    (List.forall_mem_singleton.2 (Tag.parsed_ofString "@env=dev" (.number 1)))
  obtain ⟨env, isEnv⟩ : ∃ env : Selector, env = .call (.valuesFor "env" none) := ⟨_, rfl⟩
  obtain ⟨fast, isFast⟩ : ∃ fast : Selector, fast = .call (.anyOf ["fast"]) := ⟨_, rfl⟩
  obtain ⟨slow, isSlow⟩ : ∃ slow : Selector, slow = .call (.noneOf ["slow"]) := ⟨_, rfl⟩
  have nests : Operator.disjunction.Nests [fast, env, slow]
      (.disjunction (.disjunction fast env) slow) :=
    ((Operator.Nests.operand fast).join (.operand env)).join (.operand slow)
  have nestsRight : Operator.disjunction.Nests [fast, env, slow]
      (.disjunction fast (.disjunction env slow)) :=
    (Operator.Nests.operand fast).join ((Operator.Nests.operand env).join (.operand slow))
  refine ⟨set, made, env, fast, slow, by rw [isEnv, isFast, isSlow], ?_, ?_, ?_⟩
  · exact (laws (.negation .hole)).1 _ _ (.distributive .disjunction env fast slow)
  · exact (laws .hole).2 .disjunction _ _ _ nests nestsRight
  · rw [isEnv]
    rfl

end TagQuery.Selector
