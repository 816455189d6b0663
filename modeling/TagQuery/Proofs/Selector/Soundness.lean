import TagQuery.Proofs.Selector.Acceptance

/-!
# What is read, the grammar derives

The invariant of the reader: the operators that are pending, together with the operand that it
holds, account for all of the text that has been read. Completing an operator turns it and its
operands into one phrase, so that at the end of the text nothing but the phrase is left. A reader
that stops before has reached the place with the same account.
-/

namespace TagQuery.Selector

/-! ## Calls -/

theorem moreArguments_of_read {text : List Char} {contents : List String} {after : List Lexeme}
    (taken : readMoreArguments (lexemes text) = some (contents, after)) :
    ∃ rest, MoreArguments unescape text contents rest ∧ after = lexemes rest := by
  generalize found : lexemes text = ls at taken
  fun_induction readMoreArguments ls generalizing text contents after with
  | case1 left others =>
      cases taken
      obtain ⟨rest, closed, rfl⟩ := starts_of_lexemes found (by simp)
      exact ⟨rest, .close closed, rfl⟩
  | case2 left₁ content left₂ others ih =>
      simp only [Option.map_eq_some_iff, Prod.mk.injEq] at taken
      obtain ⟨⟨more, after'⟩, taken', rfl, rfl⟩ := taken
      obtain ⟨t₁, comma, found₁⟩ := starts_of_lexemes found (by simp)
      obtain ⟨t₂, literal, found₂⟩ := starts_of_lexemes found₁.symm (by simp)
      obtain ⟨rest, phrase, rfl⟩ := ih found₂.symm taken'
      exact ⟨rest, .next comma literal phrase, rfl⟩
  | case3 => cases taken

theorem arguments_of_read {text : List Char} {contents : List String} {after : List Lexeme}
    (taken : readArguments (lexemes text) = some (contents, after)) :
    ∃ rest, Arguments unescape text contents rest ∧ after = lexemes rest := by
  generalize found : lexemes text = ls at taken
  unfold readArguments at taken
  split at taken
  · cases taken
    obtain ⟨t₁, opened, found₁⟩ := starts_of_lexemes found (by simp)
    obtain ⟨rest, closed, rfl⟩ := starts_of_lexemes found₁.symm (by simp)
    exact ⟨rest, .none opened closed, rfl⟩
  · simp only [Option.map_eq_some_iff, Prod.mk.injEq] at taken
    obtain ⟨⟨more, after'⟩, taken', rfl, rfl⟩ := taken
    obtain ⟨t₁, opened, found₁⟩ := starts_of_lexemes found (by simp)
    obtain ⟨t₂, literal, found₂⟩ := starts_of_lexemes found₁.symm (by simp)
    rw [found₂] at taken'
    obtain ⟨rest, phrase, rfl⟩ := moreArguments_of_read taken'
    exact ⟨rest, .some opened literal phrase, rfl⟩
  · cases taken

theorem methodPart_of_read (text : List Char) :
    ∃ rest, MethodPart unescape text (readMethod (lexemes text)).1 rest ∧
      (readMethod (lexemes text)).2 = lexemes rest := by
  generalize found : lexemes text = ls
  unfold readMethod
  split
  · obtain ⟨t₁, dot, found₁⟩ := starts_of_lexemes found (by simp)
    obtain ⟨t₂, word, found₂⟩ := starts_of_lexemes found₁.symm (by simp)
    split
    · rename_i taken
      rw [found₂] at taken
      obtain ⟨rest, phrase, rfl⟩ := arguments_of_read taken
      exact ⟨rest, .called dot word phrase, rfl⟩
    · exact ⟨t₂, .bare dot word, found₂⟩
  · exact ⟨text, .absent, found.symm⟩

theorem callPhrase_of_read {text : List Char} {call : WrittenCall} {after : List Lexeme}
    (taken : readCall (lexemes text) = some (call, after)) :
    ∃ rest, CallPhrase unescape text call rest ∧ after = lexemes rest := by
  generalize found : lexemes text = ls at taken
  unfold readCall at taken
  split at taken
  · simp only [Option.map_eq_some_iff, Prod.mk.injEq] at taken
    obtain ⟨⟨contents, after'⟩, taken', rfl, rfl⟩ := taken
    obtain ⟨t₁, word, found₁⟩ := starts_of_lexemes found (by simp)
    rw [found₁] at taken'
    obtain ⟨t₂, phrase, rfl⟩ := arguments_of_read taken'
    obtain ⟨rest, chained, same⟩ := methodPart_of_read t₂
    exact ⟨rest, .mk word phrase chained, same⟩
  · cases taken

/-! ## The invariant -/

section
variable {α : Type} {check : WrittenCall → Except Violation α} {start : List Char}

def Accepted (check : WrittenCall → Except Violation α) (text : List Char) (c : α)
    (rest : List Char) : Prop :=
  ∃ call, CallPhrase unescape text call rest ∧ check call = .ok c

/-- The pending operators account for the text between the start and the place reached. -/
inductive Consumed (check : WrittenCall → Except Violation α) (start : List Char) :
    List (Pending α) → List Char → Prop where
  | nil : Consumed check start [] start
  | negation {stack text rest} (before : Consumed check start stack text)
      (bang : Token.bang.Starts unescape text rest) : Consumed check start (.negation :: stack) rest
  | parenthesis {stack text rest} (before : Consumed check start stack text)
      (opened : Token.opening.Starts unescape text rest) :
      Consumed check start (.parenthesis :: stack) rest
  | conjunction {stack text t₁ left rest} (before : Consumed check start stack text)
      (opens : Level.conjunction.Opens stack)
      (first : Derives unescape (Accepted check) .unary text left t₁)
      (both : Token.both.Starts unescape t₁ rest) :
      Consumed check start (.conjunction left :: stack) rest
  | disjunction {stack text t₁ left rest} (before : Consumed check start stack text)
      (opens : Level.disjunction.Opens stack)
      (first : Derives unescape (Accepted check) .conjunction text left t₁)
      (either : Token.either.Starts unescape t₁ rest) :
      Consumed check start (.disjunction left :: stack) rest

def Completed (check : WrittenCall → Except Violation α) (start : List Char) (level : Level)
    (state : List (Pending α) × Tree α) (rest : List Char) : Prop :=
  ∃ text, Consumed check start state.1 text ∧
    Derives unescape (Accepted check) level text state.2 rest

theorem Completed.closeNegations {stack : List (Pending α)} {tree : Tree α} {rest : List Char}
    (completed : Completed check start .unary (stack, tree) rest) :
    Completed check start .unary (closeNegations stack tree) rest ∧
      Level.conjunction.Opens (closeNegations stack tree).1 := by
  induction stack generalizing tree with
  | nil => exact ⟨completed, Level.opens_nil _⟩
  | cons top stack ih =>
      cases top with
      | negation =>
          obtain ⟨text, consumed, operand⟩ := completed
          cases consumed with
          | negation before bang => exact ih ⟨_, before, .negation bang operand⟩
      | _ => exact ⟨completed, trivial⟩

theorem Completed.closeConjunctions {stack : List (Pending α)} {tree : Tree α}
    {rest : List Char} (completed : Completed check start .conjunction (stack, tree) rest)
    (opens : Level.conjunction.Opens stack) :
    Completed check start .conjunction (closeConjunctions stack tree) rest ∧
      Level.disjunction.Opens (closeConjunctions stack tree).1 := by
  induction stack generalizing tree with
  | nil => exact ⟨completed, Level.opens_nil _⟩
  | cons top stack ih =>
      cases top with
      | conjunction left =>
          obtain ⟨text, consumed, operand⟩ := completed
          cases consumed with
          | conjunction before opens' first both =>
              exact ih ⟨_, before, .conjunction first both operand⟩ opens'
      | negation => exact absurd opens id
      | _ => exact ⟨completed, trivial⟩

theorem Completed.closeDisjunctions {stack : List (Pending α)} {tree : Tree α}
    {rest : List Char} (completed : Completed check start .disjunction (stack, tree) rest)
    (opens : Level.disjunction.Opens stack) :
    Completed check start .disjunction (closeOperators stack tree) rest := by
  induction stack generalizing tree with
  | nil => exact completed
  | cons top stack ih =>
      cases top with
      | disjunction left =>
          obtain ⟨text, consumed, operand⟩ := completed
          cases consumed with
          | disjunction before opens' first either =>
              exact ih ⟨_, before, .disjunction first either operand⟩ opens'
      | parenthesis => exact completed
      | _ => exact absurd opens id

theorem Completed.closeOperators {stack : List (Pending α)} {tree : Tree α} {rest : List Char}
    (completed : Completed check start .conjunction (stack, tree) rest)
    (opens : Level.conjunction.Opens stack) :
    Completed check start .disjunction (closeOperators stack tree) rest := by
  induction stack generalizing tree with
  | nil =>
      obtain ⟨text, consumed, operand⟩ := completed
      exact ⟨text, consumed, .single operand⟩
  | cons top stack ih =>
      obtain ⟨text, consumed, operand⟩ := completed
      cases top with
      | negation => exact absurd opens id
      | conjunction left =>
          cases consumed with
          | conjunction before opens' first both =>
              exact ih ⟨_, before, .conjunction first both operand⟩ opens'
      | disjunction left =>
          exact Completed.closeDisjunctions ⟨text, consumed, .single operand⟩ trivial
      | parenthesis => exact ⟨text, consumed, .single operand⟩

def Reached (check : WrittenCall → Except Violation α) (start : List Char)
    (stack : List (Pending α)) : Option (Tree α) → List Char → Prop
  | none, text => Consumed check start stack text
  | some tree, rest =>
    Completed check start .unary (stack, tree) rest ∧ Level.conjunction.Opens stack

theorem reached_closeNegations {stack : List (Pending α)} {tree : Tree α} {text rest : List Char}
    (consumed : Consumed check start stack text)
    (operand : Derives unescape (Accepted check) .primary text tree rest) :
    Reached check start (closeNegations stack tree).1 (some (closeNegations stack tree).2) rest :=
  Completed.closeNegations ⟨text, consumed, .primary operand⟩

theorem Reached.conjunct {stack : List (Pending α)} {tree : Tree α} {rest : List Char}
    (reached : Reached check start stack (some tree) rest) :
    Completed check start .conjunction (stack, tree) rest := by
  obtain ⟨⟨text, consumed, operand⟩, -⟩ := reached
  exact ⟨text, consumed, .unary operand⟩

theorem left_of_lexemes {text : List Char} {token : Token} {left : Nat} {others : List Lexeme}
    (found : lexemes text = ⟨token, left⟩ :: others) : left = (Text.skipSpace text).length := by
  cases skipped : Text.skipSpace text with
  | nil =>
      rw [Text.skipSpace, List.dropWhile_eq_nil_iff, ← lexemes_eq_nil_iff] at skipped
      rw [skipped] at found
      cases found
  | cons c rest =>
      rw [lexemes_cons skipped, List.cons.injEq, Lexeme.mk.injEq] at found
      exact found.1.2.symm

def Stopped (check : WrittenCall → Except Violation α) (start : List Char) (stop : Stop) : Prop :=
  ∃ stack operand text, Reached check start stack operand text ∧
    stop.left = (Text.skipSpace text).length

theorem Reached.stopped {stack : List (Pending α)} {operand : Option (Tree α)} {text : List Char}
    {token : Token} {left : Nat} {others : List Lexeme} {reason : Reason}
    (reached : Reached check start stack operand text)
    (found : lexemes text = ⟨token, left⟩ :: others) : Stopped check start ⟨reason, left⟩ :=
  ⟨stack, operand, text, reached, left_of_lexemes found⟩

theorem Reached.stopped_at_end {stack : List (Pending α)} {operand : Option (Tree α)}
    {text : List Char} {reason : Reason} (reached : Reached check start stack operand text)
    (found : lexemes text = []) : Stopped check start ⟨reason, 0⟩ := by
  rw [lexemes_eq_nil_iff, ← List.dropWhile_eq_nil_iff, ← Text.skipSpace] at found
  exact ⟨stack, operand, text, reached, by rw [found, List.length_nil]⟩

def Ends (check : WrittenCall → Except Violation α) (start : List Char) :
    Except Stop (Tree α) → Prop
  | .ok tree => Spells unescape (Accepted check) start tree
  | .error stop => Stopped check start stop

theorem ends_of_read {stack : List (Pending α)} {operand : Option (Tree α)} {text : List Char}
    (reached : Reached check start stack operand text) :
    Ends check start (read check stack operand (lexemes text)) := by
  -- Each step of the reader keeps `Reached`.
  generalize found : lexemes text = ls
  fun_induction read check stack operand ls generalizing text with
  | case1 => exact reached.stopped_at_end found
  | case2 stack left others ih =>
      obtain ⟨rest, bang, same⟩ := starts_of_lexemes found (by simp)
      exact ih (Consumed.negation reached bang) same.symm
  | case3 stack left others ih =>
      obtain ⟨rest, opened, same⟩ := starts_of_lexemes found (by simp)
      exact ih (Consumed.parenthesis reached opened) same.symm
  | case4 => exact reached.stopped found
  | case5 => exact reached.stopped found
  | case6 stack token left others _ _ written after taken c accepted stack' tree' closed ih =>
      rw [← found] at taken
      obtain ⟨rest, phrase, rfl⟩ := callPhrase_of_read taken
      have next := reached_closeNegations reached (.call ⟨written, phrase, accepted⟩)
      rw [closed] at next
      exact ih next rfl
  | case7 stack operand tree' closed =>
      have whole := reached.conjunct.closeOperators reached.2
      rw [closed] at whole
      obtain ⟨text', consumed, derivation⟩ := whole
      cases consumed with
      | nil => exact ⟨text, derivation, lexemes_eq_nil_iff.mp found⟩
  | case8 => exact reached.stopped_at_end found
  | case9 stack operand left others ih =>
      obtain ⟨rest, both, same⟩ := starts_of_lexemes found (by simp)
      obtain ⟨⟨text', consumed, first⟩, opens⟩ := reached
      exact ih (Consumed.conjunction consumed opens first both) same.symm
  | case10 stack operand left others stack' tree' closed ih =>
      obtain ⟨rest, either, same⟩ := starts_of_lexemes found (by simp)
      have chain := reached.conjunct.closeConjunctions reached.2
      rw [closed] at chain
      obtain ⟨⟨text', consumed, first⟩, opens⟩ := chain
      exact ih (Consumed.disjunction consumed opens first either) same.symm
  | case11 stack operand left others outer inner closed stack' tree' negated _ _ ih =>
      obtain ⟨rest, closing, same⟩ := starts_of_lexemes found (by simp)
      have whole := reached.conjunct.closeOperators reached.2
      rw [closed] at whole
      obtain ⟨text', consumed, derivation⟩ := whole
      cases consumed with
      | parenthesis before opened =>
          have next := reached_closeNegations before (.parenthesis opened derivation closing)
          rw [negated] at next
          exact ih next same.symm
  | case12 => exact reached.stopped found
  | case13 => exact reached.stopped found

theorem ends_of_readText (text : List Char) : Ends check text (readText check text) := by
  have reached : Reached check text [] none text := Consumed.nil
  exact ends_of_read reached

theorem spells_of_readText {text : List Char} {tree : Tree α}
    (done : readText check text = .ok tree) : Spells unescape (Accepted check) text tree := by
  have ends : Ends check text (readText check text) := ends_of_readText text
  rwa [done] at ends

theorem stopped_of_readText {text : List Char} {stop : Stop}
    (failed : readText check text = .error stop) : Stopped check text stop := by
  have ends : Ends check text (readText check text) := ends_of_readText text
  rwa [failed] at ends

end

end TagQuery.Selector
