import TagQuery.Proofs.Selector.Rendering
import TagQuery.Proofs.Texts

/-!
# Where reading stops

A refused text is a selector up to the place where reading stops: what has been read there can be
completed. A phrase takes the same characters whatever comes behind it, so that a call can be put
where an operand is missing and parentheses where some are open, and the operators that are pending
then become a selector. The message shows the line of that place.
-/

namespace TagQuery.Selector

/-! ## What a phrase takes -/

/-- The phrase takes a front of the text, and takes it whatever comes behind. -/
def Takes (Phrase : List Char → List Char → Prop) (text rest : List Char) : Prop :=
  ∃ front, text = front ++ rest ∧ ∀ rest', Phrase (front ++ rest') rest'

section
variable {P Q : List Char → List Char → Prop} {text middle rest : List Char}

theorem Takes.imp (taken : Takes P text rest) (implies : ∀ {text rest}, P text rest → Q text rest) :
    Takes Q text rest := by
  obtain ⟨front, rfl, whatever⟩ := taken
  exact ⟨front, rfl, fun rest' => implies (whatever rest')⟩

theorem Takes.next (first : Takes P text middle) (second : Takes Q middle rest) :
    Takes (fun text rest => ∃ middle, P text middle ∧ Q middle rest) text rest := by
  obtain ⟨front, rfl, takesFirst⟩ := first
  obtain ⟨next, rfl, takesSecond⟩ := second
  refine ⟨front ++ next, (List.append_assoc _ _ _).symm, fun rest' => ?_⟩
  rw [List.append_assoc]
  exact ⟨_, takesFirst _, takesSecond rest'⟩

end

section
variable {decode : List Char → List Char} {text rest : List Char}

theorem Token.Starts.takes {token : Token} (starts : token.Starts decode text rest) :
    Takes (token.Starts decode) text rest := by
  obtain ⟨gap, spelling, spaces, spells, rfl⟩ := starts
  refine ⟨gap ++ spelling, (List.append_assoc _ _ _).symm, fun rest' => ?_⟩
  exact ⟨gap, spelling, spaces, spells, List.append_assoc _ _ _⟩

theorem MoreArguments.takes {contents : List String}
    (phrase : MoreArguments decode text contents rest) :
    Takes (MoreArguments decode · contents ·) text rest := by
  induction phrase with
  | close closed => exact closed.takes.imp .close
  | next comma literal _ ih =>
      refine (comma.takes.next (literal.takes.next ih)).imp ?_
      rintro _ _ ⟨_, comma', _, literal', more'⟩
      exact .next comma' literal' more'

theorem Arguments.takes {contents : List String} (phrase : Arguments decode text contents rest) :
    Takes (Arguments decode · contents ·) text rest := by
  cases phrase with
  | none opened closed =>
      refine (opened.takes.next closed.takes).imp ?_
      rintro _ _ ⟨_, opened', closed'⟩
      exact .none opened' closed'
  | some opened literal more =>
      refine (opened.takes.next (literal.takes.next more.takes)).imp ?_
      rintro _ _ ⟨_, opened', _, literal', more'⟩
      exact .some opened' literal' more'

theorem MethodPart.takes {method : Option WrittenMethod}
    (phrase : MethodPart decode text method rest) :
    Takes (MethodPart decode · method ·) text rest := by
  cases phrase with
  | absent => exact ⟨[], rfl, fun _ => .absent⟩
  | bare dot word =>
      refine (dot.takes.next word.takes).imp ?_
      rintro _ _ ⟨_, dot', word'⟩
      exact .bare dot' word'
  | called dot word arguments =>
      refine (dot.takes.next (word.takes.next arguments.takes)).imp ?_
      rintro _ _ ⟨_, dot', _, word', arguments'⟩
      exact .called dot' word' arguments'

theorem CallPhrase.takes {call : WrittenCall} (phrase : CallPhrase decode text call rest) :
    Takes (CallPhrase decode · call ·) text rest := by
  obtain ⟨word, arguments, chained⟩ := phrase
  refine (word.takes.next (arguments.takes.next chained.takes)).imp ?_
  rintro _ _ ⟨_, word', _, arguments', chained'⟩
  exact .mk word' arguments' chained'

theorem Derives.takes {α : Type} {IsCall : List Char → α → List Char → Prop} {level : Level}
    {tree : Tree α} (calls : ∀ {text c rest}, IsCall text c rest → Takes (IsCall · c ·) text rest)
    (derivation : Derives decode IsCall level text tree rest) :
    Takes (Derives decode IsCall level · tree ·) text rest := by
  induction derivation with
  | call call => exact (calls call).imp .call
  | parenthesis opened _ closed ih =>
      refine (opened.takes.next (ih.next closed.takes)).imp ?_
      rintro _ _ ⟨_, opened', _, inner', closed'⟩
      exact .parenthesis opened' inner' closed'
  | primary _ ih => exact ih.imp .primary
  | negation bang _ ih =>
      refine (bang.takes.next ih).imp ?_
      rintro _ _ ⟨_, bang', operand'⟩
      exact .negation bang' operand'
  | unary _ ih => exact ih.imp .unary
  | conjunction _ both _ ihFirst ihOthers =>
      refine (ihFirst.next (both.takes.next ihOthers)).imp ?_
      rintro _ _ ⟨_, first', _, both', others'⟩
      exact .conjunction first' both' others'
  | single _ ih => exact ih.imp .single
  | disjunction _ either _ ihFirst ihOthers =>
      refine (ihFirst.next (either.takes.next ihOthers)).imp ?_
      rintro _ _ ⟨_, first', _, either', others'⟩
      exact .disjunction first' either' others'

end

section
variable {α : Type} {check : WrittenCall → Except Violation α} {start text rest : List Char}
  {stack : List (Pending α)} {tree : Tree α} {level : Level}

theorem Derives.takes_accepted
    (derivation : Derives unescape (Accepted check) level text tree rest) :
    Takes (Derives unescape (Accepted check) level · tree ·) text rest := by
  apply derivation.takes
  rintro text c rest ⟨call, phrase, accepted⟩
  exact phrase.takes.imp fun phrase' => ⟨call, phrase', accepted⟩

theorem Consumed.takes (consumed : Consumed check start stack text) :
    Takes (Consumed check · stack ·) start text := by
  induction consumed with
  | nil => exact ⟨[], rfl, fun _ => .nil⟩
  | negation _ bang ih =>
      refine (ih.next bang.takes).imp ?_
      rintro _ _ ⟨_, before', bang'⟩
      exact .negation before' bang'
  | parenthesis _ opened ih =>
      refine (ih.next opened.takes).imp ?_
      rintro _ _ ⟨_, before', opened'⟩
      exact .parenthesis before' opened'
  | conjunction _ opens first both ih =>
      refine (ih.next (first.takes_accepted.next both.takes)).imp ?_
      rintro _ _ ⟨_, before', _, first', both'⟩
      exact .conjunction before' opens first' both'
  | disjunction _ opens first either ih =>
      refine (ih.next (first.takes_accepted.next either.takes)).imp ?_
      rintro _ _ ⟨_, before', _, first', either'⟩
      exact .disjunction before' opens first' either'

theorem Reached.takes {operand : Option (Tree α)}
    (reached : Reached check start stack operand text) :
    Takes (Reached check · stack operand ·) start text := by
  cases operand with
  | none => exact Consumed.takes reached
  | some tree =>
      obtain ⟨⟨before, consumed, operand⟩, opens⟩ := reached
      refine (consumed.takes.next operand.takes_accepted).imp ?_
      rintro _ _ ⟨before', consumed', operand'⟩
      exact ⟨⟨before', consumed', operand'⟩, opens⟩

/-! ## Completing what is pending -/

def unclosed : List (Pending α) → Nat
  | [] => 0
  | .parenthesis :: stack => unclosed stack + 1
  | _ :: stack => unclosed stack

def Closers (count : Nat) (text : List Char) : Prop :=
  ∃ gap, (∀ c ∈ gap, Text.isSpace c = true) ∧ text = gap ++ List.replicate count ')'

theorem Closers.starts {count : Nat} (closers : Closers (count + 1) text) :
    ∃ rest, Token.closing.Starts unescape text rest ∧ Closers count rest := by
  obtain ⟨gap, spaces, rfl⟩ := closers
  exact ⟨_, ⟨gap, [')'], spaces, .closing, rfl⟩, [], by simp, rfl⟩

theorem Derives.loosest {decode : List Char → List Char}
    {IsCall : List Char → α → List Char → Prop}
    (derivation : Derives decode IsCall level text tree rest) :
    Derives decode IsCall .disjunction text tree rest := by
  cases level with
  | primary => exact .single (.unary (.primary derivation))
  | unary => exact .single (.unary derivation)
  | conjunction => exact .single derivation
  | disjunction => exact derivation

theorem Consumed.spells (consumed : Consumed check start stack text) (opens : level.Opens stack)
    (phrase : Derives unescape (Accepted check) level text tree rest)
    (closers : Closers (unclosed stack) rest) :
    ∃ whole, Spells unescape (Accepted check) start whole := by
  have opensUnary (stack : List (Pending α)) : Level.unary.Opens stack := trivial
  induction consumed generalizing level tree rest with
  | nil =>
      obtain ⟨gap, spaces, rfl⟩ := closers
      exact ⟨tree, _, phrase.loosest, by simpa [unclosed] using spaces⟩
  | negation _ bang ih =>
      cases level with
      | primary => exact ih (opensUnary _) (.negation bang (.primary phrase)) closers
      | unary => exact ih (opensUnary _) (.negation bang phrase) closers
      | conjunction | disjunction => exact absurd opens id
  | parenthesis _ opened ih =>
      obtain ⟨_, closing, closers⟩ := closers.starts
      exact ih (opensUnary _) (.primary (.parenthesis opened phrase.loosest closing)) closers
  | conjunction _ opens' first both ih =>
      cases level with
      | primary => exact ih opens' (.conjunction first both (.unary (.primary phrase))) closers
      | unary => exact ih opens' (.conjunction first both (.unary phrase)) closers
      | conjunction => exact ih opens' (.conjunction first both phrase) closers
      | disjunction => exact absurd opens id
  | disjunction _ opens' first either ih =>
      exact ih opens' (.disjunction first either phrase.loosest) closers

def blankCall : WrittenCall := ⟨"anyOf", [], none⟩

theorem callPhrase_blank {gap : List Char} (spaces : ∀ c ∈ gap, Text.isSpace c = true) :
    CallPhrase unescape (gap ++ (blankCall.text ++ rest)) blankCall rest := by
  have word : (Token.word "anyOf").Starts unescape (gap ++ (blankCall.text ++ rest))
      ('(' :: ')' :: rest) :=
    ⟨gap, "anyOf".toList, spaces, .word (by decide) (List.all_eq_true.1 rfl), rfl⟩
  exact .mk word (.none (Token.Spells.opening.starts _) (Token.Spells.closing.starts _)) .absent

theorem Reached.spells {operand : Option (Tree α)} {c : α} {gap : List Char}
    (accepted : check blankCall = .ok c) (spaces : ∀ c ∈ gap, Text.isSpace c = true)
    (whatever : ∀ rest, Reached check (start ++ rest) stack operand rest) :
    ∃ continuation whole, '\t' ∉ continuation ∧
      Spells unescape (Accepted check) (start ++ (gap ++ continuation)) whole := by
  have closers : Closers (unclosed stack) (List.replicate (unclosed stack) ')') :=
    ⟨[], by simp, rfl⟩
  have noTab : '\t' ∉ List.replicate (unclosed stack) ')' :=
    fun mem => absurd (List.eq_of_mem_replicate mem) (by decide)
  cases operand with
  | none =>
      let continuation := blankCall.text ++ List.replicate (unclosed stack) ')'
      have consumed : Consumed check (start ++ (gap ++ continuation)) stack (gap ++ continuation) :=
        whatever _
      have call : Derives unescape (Accepted check) .primary (gap ++ continuation) (.call c)
          (List.replicate (unclosed stack) ')') :=
        .call ⟨blankCall, callPhrase_blank spaces, accepted⟩
      have opens : Level.primary.Opens stack := trivial
      obtain ⟨whole, spells⟩ := consumed.spells opens call closers
      refine ⟨continuation, whole, ?_, spells⟩
      rw [List.mem_append, not_or]
      exact ⟨by decide, noTab⟩
  | some tree =>
      have reached : Reached check (start ++ (gap ++ List.replicate (unclosed stack) ')')) stack
          (some tree) (gap ++ List.replicate (unclosed stack) ')') := whatever _
      obtain ⟨⟨_, consumed, operand⟩, -⟩ := reached
      have opens : Level.unary.Opens stack := trivial
      obtain ⟨whole, spells⟩ := consumed.spells opens operand ⟨gap, spaces, rfl⟩
      exact ⟨_, whole, noTab, spells⟩

theorem Stopped.viable {stop : Stop} {c : α} (stopped : Stopped check start stop)
    (accepted : check blankCall = .ok c) :
    stop.left ≤ start.length ∧ ∃ continuation whole, '\t' ∉ continuation ∧
      Spells unescape (Accepted check) (start.take (start.length - stop.left) ++ continuation)
        whole := by
  obtain ⟨stack, operand, text, reached, left⟩ := stopped
  obtain ⟨gap, solid, rfl, spaces, left⟩ : ∃ gap solid, text = gap ++ solid ∧
      (∀ c ∈ gap, Text.isSpace c = true) ∧ stop.left = solid.length :=
    ⟨text.takeWhile Text.isSpace, _, List.takeWhile_append_dropWhile.symm,
      fun c => List.mem_takeWhile_imp, left⟩
  obtain ⟨front, rfl, whatever⟩ := reached.takes
  have size : (front ++ (gap ++ solid)).length = (front ++ gap).length + stop.left := by
    rw [← List.append_assoc, List.length_append, left]
  have before : (front ++ (gap ++ solid)).take ((front ++ (gap ++ solid)).length - stop.left) =
      front ++ gap := by
    rw [size, Nat.add_sub_cancel, ← List.append_assoc, List.take_left]
  obtain ⟨continuation, whole, noTab, spells⟩ := Reached.spells accepted spaces whatever
  rw [before]
  refine ⟨by omega, continuation, whole, noTab, ?_⟩
  rwa [List.append_assoc]

end

/-! ## The marked line -/

/-- The line of the text that holds the position, cut at the position. -/
structure LineAt (text : List Char) (position : Nat) (front back : List Char) : Prop where
  within : ∃ above below, text = above ++ (front ++ (back ++ below)) ∧
    (above ++ front).length = position ∧ (∀ c ∈ above.getLast?, c = '\n') ∧
    ∀ c ∈ below.head?, c = '\n'
  unbroken : '\n' ∉ front ∧ '\n' ∉ back

def mark : List Char := ['@', '@', '@']

theorem exists_lineAt {text : List Char} {position : Nat} (inside : position ≤ text.length) :
    ∃ front back shown, LineAt text position front back ∧
      Text.Trims (front ++ (mark ++ back)) shown ∧
      markedLine text position = String.ofList shown := by
  let inLine : Char → Bool := (· != '\n')
  let above := ((text.take position).reverse.dropWhile inLine).reverse
  let front := ((text.take position).reverse.takeWhile inLine).reverse
  let back := (text.drop position).takeWhile inLine
  let below := (text.drop position).dropWhile inLine
  have before : above ++ front = text.take position := by
    rw [← List.reverse_append, List.takeWhile_append_dropWhile, List.reverse_reverse]
  have behind : back ++ below = text.drop position := List.takeWhile_append_dropWhile
  have ends {cs : List Char} : ∀ c ∈ (cs.dropWhile inLine).head?, c = '\n' := by
    intro c mem
    simpa [inLine] using Text.not_of_mem_head?_dropWhile c mem
  have unbroken {cs : List Char} : '\n' ∉ cs.takeWhile inLine :=
    fun mem => absurd (List.mem_takeWhile_imp mem) (by decide)
  have line : LineAt text position front back := by
    refine ⟨⟨above, below, ?_, ?_, ?_, ends⟩, ?_, unbroken⟩
    · rw [behind, ← List.append_assoc, before, List.take_append_drop]
    · rw [before, List.length_take_of_le inside]
    · rw [List.getLast?_reverse]
      exact ends
    · rw [List.mem_reverse]
      exact unbroken
  refine ⟨front, back, _, line, Text.trims_trimBlanks _, ?_⟩
  rw [markedLine, List.append_assoc]
  rfl

theorem Refusal.message_unreadable (text : List Char) (stop : Stop) :
    (Refusal.unreadable text stop).message = "Error parsing tag expression at \"@@@\": " ++
      markedLine text (text.length - stop.left) ++ " (" ++ stop.reason.message ++ ")" := by
  unfold Refusal.message
  with_reducible rfl

theorem Refusal.exists_shown_line (text : List Char) (stop : Stop) :
    ∃ front back shown, LineAt text (text.length - stop.left) front back ∧
      Text.Trims (front ++ (mark ++ back)) shown ∧
      (Refusal.unreadable text stop).message = "Error parsing tag expression at \"@@@\": " ++
        String.ofList shown ++ " (" ++ stop.reason.message ++ ")" := by
  obtain ⟨front, back, shown, line, trims, shows⟩ := exists_lineAt (Nat.sub_le text.length stop.left)
  refine ⟨front, back, shown, line, trims, ?_⟩
  rw [message_unreadable, shows]

/-! ## Refused texts -/

/-- A refused text has a place up to which it goes on to a selector, and the message shows the line
of that place with a mark there. -/
theorem viable_of_refused {source : String} {refusal : Refusal}
    (refused : parse source = .error refusal) :
    ∃ (position : Nat) (reason : Reason) (front back shown : List Char),
      LineAt (expandTabs 0 source.toList) position front back ∧
      Text.Trims (front ++ (mark ++ back)) shown ∧
      refusal.message = "Error parsing tag expression at \"@@@\": " ++ String.ofList shown ++
        " (" ++ reason.message ++ ")" ∧
      ∃ continuation selector, parse (String.ofList
        ((expandTabs 0 source.toList).take position ++ continuation)) = .ok selector := by
  obtain ⟨stop, stopped, rfl⟩ := parse_eq_error_iff.1 refused
  obtain ⟨within, continuation, selector, noTab, spells⟩ :=
    (stopped_of_readText stopped).viable (c := .anyOf []) rfl
  obtain ⟨front, back, shown, line, trims, message⟩ := Refusal.exists_shown_line _ stop
  refine ⟨_, stop.reason, front, back, shown, line, trims, message, continuation, selector, ?_⟩
  have kept : '\t' ∉ (expandTabs 0 source.toList).take
      ((expandTabs 0 source.toList).length - stop.left) ++ continuation := by
    rw [List.mem_append, not_or]
    exact ⟨fun mem => tab_not_mem_expandTabs _ _ (List.mem_of_mem_take mem), noTab⟩
  simpa [parse_eq_ok_iff, ← accepted_check, kept] using spells

theorem viable_of_refused_operand :
    ∃ source refusal, source = "anyOf('a')\n\t&& (!allOf() || )" ∧ parse source = .error refusal ∧
      ∃ (position : Nat) (reason : Reason) (front back shown : List Char),
        LineAt (expandTabs 0 source.toList) position front back ∧
        Text.Trims (front ++ (mark ++ back)) shown ∧
        refusal.message = "Error parsing tag expression at \"@@@\": " ++ String.ofList shown ++
          " (" ++ reason.message ++ ")" ∧
        ∃ continuation selector, parse (String.ofList
          ((expandTabs 0 source.toList).take position ++ continuation)) = .ok selector := by
  have stops : readText WrittenCall.check
      (expandTabs 0 "anyOf('a')\n\t&& (!allOf() || )".toList) = .error ⟨.operand, 1⟩ := by
    decide +kernel
  have refused := parse_eq_error_iff.2 ⟨_, stops, rfl⟩
  exact ⟨_, _, rfl, refused, viable_of_refused refused⟩

end TagQuery.Selector
