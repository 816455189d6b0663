import TagQuery.Proofs.Selector.Outcome
import TagQuery.Proofs.Selector.Places
import TagQuery.Proofs.Selector.Printing
import TagQuery.Proofs.Texts

namespace TagQuery.Selector

def Tree.chain {α : Type} : α → List α → Tree α
  | first, [] => .call first
  | first, next :: others => .conjunction (.call first) (chain next others)

@[simp] theorem Tree.calls_chain {α : Type} (first : α) (others : List α) :
    (Tree.chain first others).calls = first :: others := by
  induction others generalizing first with
  | nil => rfl
  | cons next others ih => simp [chain, calls, ih]

inductive ChainPhrase (decode : List Char → List Char) :
    List Char → Call → List Call → List Char → Prop
  | last {text call rest} (writes : Writes decode text call rest) :
      ChainPhrase decode text call [] rest
  | next {text t₁ t₂ rest call following others} (writes : Writes decode text call t₁)
      (both : Token.both.Starts decode t₁ t₂)
      (more : ChainPhrase decode t₂ following others rest) :
      ChainPhrase decode text call (following :: others) rest

theorem ChainPhrase.derives {decode : List Char → List Char} {text rest : List Char} {call : Call}
    {others : List Call} (phrase : ChainPhrase decode text call others rest) :
    Derives decode (Writes decode) .conjunction text (.chain call others) rest := by
  induction phrase with
  | last writes => exact .unary (.primary (.call writes))
  | next writes both _ ih => exact .conjunction (.primary (.call writes)) both ih

/-! ## What a chain says -/

theorem Tree.evaluate_chain {set : TagSet} {first : Call} {others : List Call}
    (asked : ∀ call ∈ first :: others, ∃ holds, call.evaluate set = .ok (.verdict holds) ∧
      (holds = true ↔ call.Holds set.tags)) :
    ∃ holds, (Tree.chain first others).evaluate set = .ok (.verdict holds) ∧
      (holds = true ↔ ∀ call ∈ first :: others, call.Holds set.tags) := by
  induction others generalizing first with
  | nil =>
      obtain ⟨holds, evaluated, same⟩ := asked first List.mem_cons_self
      exact ⟨holds, evaluated, by simp [same]⟩
  | cons next others ih =>
      obtain ⟨holdsFirst, evaluated, sameFirst⟩ := asked first List.mem_cons_self
      obtain ⟨holds, evaluatedOthers, same⟩ := ih fun call mem => asked call (.tail _ mem)
      have left : (Tree.call first).evaluate set = .ok (.verdict holdsFirst) := evaluated
      have decided : (Tree.chain first (next :: others)).evaluate set =
          if holdsFirst then (Tree.chain next others).evaluate set
            else .ok (.verdict holdsFirst) := Tree.evaluate_conjunction left
      rw [decided, List.forall_mem_cons, ← sameFirst, ← same]
      cases holdsFirst with
      | true => exact ⟨holds, evaluatedOthers, by simp⟩
      | false => exact ⟨false, rfl, by simp⟩

/-! ## Calls behind their names -/

section
variable {decode : List Char → List Char}

theorem Token.Spells.word_eq {name : String} {spelling : List Char}
    (spells : (Token.word name).Spells decode spelling) : spelling = name.toList := by
  cases spells with
  | word => rw [String.toList_ofList]

theorem Call.WrittenAs.function_eq {call : Call} {written : WrittenCall}
    (form : call.WrittenAs written) : written.function = call.written.function := by
  cases form <;> rfl

theorem Arguments.opened {text rest : List Char} {contents : List String}
    (phrase : Arguments decode text contents rest) :
    ∃ inner, Token.opening.Starts decode text inner ∧ rest <:+ inner := by
  cases phrase with
  | none opened closed => exact ⟨_, opened, closed.suffix⟩
  | some opened literal more => exact ⟨_, opened, more.suffix.trans literal.suffix⟩

theorem Writes.opened {text rest : List Char} {call : Call} (writes : Writes decode text call rest) :
    ∃ gap gap' inner, text = gap ++ (call.written.function.toList ++ (gap' ++ '(' :: inner)) ∧
      (∀ c ∈ gap, Text.isSpace c = true) ∧ (∀ c ∈ gap', Text.isSpace c = true) ∧
      rest <:+ inner := by
  obtain ⟨written, ⟨word, arguments, chained⟩, form⟩ := writes
  obtain ⟨inner, opened, suffix⟩ := arguments.opened
  obtain ⟨gap, name, spaces, spells, rfl⟩ := word
  obtain ⟨gap', parenthesis, spaces', spells', rfl⟩ := opened
  cases spells' with
  | opening =>
      refine ⟨gap, gap', inner, ?_, spaces, spaces', chained.suffix.trans suffix⟩
      rw [spells.word_eq, ← form.function_eq, List.singleton_append]

theorem Writes.suffix {text rest : List Char} {call : Call} (writes : Writes decode text call rest) :
    rest <:+ text := by
  obtain ⟨gap, gap', inner, rfl, -, -, within⟩ := writes.opened
  refine within.trans ⟨gap ++ (call.written.function.toList ++ (gap' ++ ['('])), ?_⟩
  simp

theorem Token.Starts.name_opened {gap inner rest rest' : List Char} {name word : String}
    (spaces : ∀ c ∈ gap, Text.isSpace c = true) (named : isWord name = true)
    (starts : (Token.word word).Starts decode (gap ++ (name.toList ++ '(' :: inner)) rest)
    (opened : Token.opening.Starts decode rest rest') : word = name ∧ rest = '(' :: inner := by
  cases letters : name.toList with
  | nil => simp [isWord, letters] at named
  | cons c cs =>
      simp only [isWord, letters, Bool.and_eq_true, List.all_eq_true] at named
      rw [letters, List.cons_append] at starts
      obtain ⟨others, spells, split⟩ := starts.spelled spaces (isSpace_of_isWordStart named.1)
      have parts : ∀ x ∈ others, isWordPart x = true := by
        cases spells with
        | word _ parts => exact parts
      have same (tail : others = cs) : word = name := by
        rw [← String.toList_inj, letters, ← spells.word_eq, tail]
      rcases List.append_eq_append_iff.1 split with ⟨more, rfl, left⟩ | ⟨more, rfl, rfl⟩
      · -- The word read is not longer, as a parenthesis is no part of it.
        cases more with
        | nil => exact ⟨same (List.append_nil _), left.symm⟩
        | cons d more =>
            cases left
            exact absurd (parts '(' (by simp)) (by decide)
      · -- Nor is it shorter, as another part of the name is no parenthesis.
        cases more with
        | nil => exact ⟨same (List.append_nil _).symm, rfl⟩
        | cons d more =>
            have part : isWordPart d = true := named.2 d (by simp)
            have solid : Text.isSpace d = false := by
              by_contra space
              rw [not_isWordPart_of_isSpace (by simpa using space)] at part
              cases part
            obtain ⟨_, spells', -⟩ := opened.spelled_cons solid
            cases spells'
            exact absurd part (by decide)

theorem Writes.named {gap inner rest : List Char} {name : String} {call : Call}
    (spaces : ∀ c ∈ gap, Text.isSpace c = true) (named : isWord name = true)
    (writes : Writes decode (gap ++ (name.toList ++ '(' :: inner)) call rest) :
    ∃ contents method after, call.WrittenAs ⟨name, contents, method⟩ ∧
      Arguments decode ('(' :: inner) contents after ∧ MethodPart decode after method rest := by
  obtain ⟨written, ⟨word, arguments, chained⟩, form⟩ := writes
  obtain ⟨_, opened, -⟩ := arguments.opened
  obtain ⟨rfl, rfl⟩ := word.name_opened spaces named opened
  exact ⟨_, _, _, form, arguments, chained⟩

theorem ChainPhrase.head {text rest : List Char} {first : Call} {others : List Call}
    (phrase : ChainPhrase decode text first others rest) :
    ∃ rest', Writes decode text first rest' := by
  cases phrase with
  | last writes | next writes => exact ⟨_, writes⟩

/-! ## Chains with spaces -/

theorem Writes.after {text rest : List Char} {call : Call} (writes : Writes decode text call rest)
    (gap : List Char) (spaces : gap.all Text.isSpace = true) :
    Writes decode (gap ++ text) call rest := by
  obtain ⟨written, ⟨word, arguments, chained⟩, form⟩ := writes
  exact ⟨_, ⟨word.after gap spaces, arguments, chained⟩, form⟩

theorem ChainPhrase.after {text rest : List Char} {first : Call} {others : List Call}
    (phrase : ChainPhrase decode text first others rest) (gap : List Char)
    (spaces : gap.all Text.isSpace = true) : ChainPhrase decode (gap ++ text) first others rest := by
  cases phrase with
  | last writes => exact .last (writes.after gap spaces)
  | next writes both more => exact .next (writes.after gap spaces) both more

def joint : List Char := [' ', '&', '&', ' ']

theorem ChainPhrase.joined {text text' rest : List Char} {first next : Call} {others : List Call}
    (writes : Writes decode text first (joint ++ text'))
    (phrase : ChainPhrase decode text' next others rest) :
    ChainPhrase decode text first (next :: others) rest := by
  have both : Token.both.Starts decode (joint ++ text') (' ' :: text') :=
    (Token.Spells.both.starts _).after [' '] rfl
  exact .next writes both (phrase.after [' '] rfl)

end

end TagQuery.Selector
