import TagQuery.Proofs.Selector.Parsing

namespace TagQuery.Selector

structure Plain (content : String) : Prop where
  tabs : '\t' ∉ content.toList
  escapes : '\\' ∉ content.toList
  lines : '\n' ∉ content.toList ∧ '\r' ∉ content.toList
  quotes : '\'' ∉ content.toList ∨ '"' ∉ content.toList

/-! ## Texts -/

def quoteOf (content : String) : Char := if '\'' ∈ content.toList then '"' else '\''

def literalText (content : String) : List Char :=
  quoteOf content :: (content.toList ++ [quoteOf content])

def moreArgumentsText : List String → List Char
  | [] => [')']
  | content :: contents => ',' :: (literalText content ++ moreArgumentsText contents)

def argumentsText : List String → List Char
  | [] => ['(', ')']
  | content :: contents => '(' :: (literalText content ++ moreArgumentsText contents)

def methodText : Option WrittenMethod → List Char
  | none => []
  | some method =>
    '.' :: (method.name.toList ++ argumentsText (method.arguments.getD []))

def WrittenCall.text (call : WrittenCall) : List Char :=
  call.function.toList ++ (argumentsText call.arguments ++ methodText call.method)

def Tree.text : Selector → List Char
  | .call c => c.written.text
  | .negation operand => '!' :: '(' :: (operand.text ++ [')'])
  | .conjunction left right =>
    '(' :: (left.text ++ ')' :: '&' :: '&' :: '(' :: (right.text ++ [')']))
  | .disjunction left right =>
    '(' :: (left.text ++ ')' :: '|' :: '|' :: '(' :: (right.text ++ [')']))

/-! ## Their derivations -/

theorem Token.Spells.starts {decode : List Char → List Char} {token : Token} {spelling : List Char}
    (spells : token.Spells decode spelling) (rest : List Char) :
    token.Starts decode (spelling ++ rest) rest :=
  ⟨[], spelling, by simp, spells, rfl⟩

theorem Token.Starts.after {decode : List Char → List Char} {token : Token} {text rest : List Char}
    (starts : token.Starts decode text rest) (gap : List Char)
    (spaces : gap.all Text.isSpace = true) : token.Starts decode (gap ++ text) rest := by
  obtain ⟨others, spelling, spacesOthers, spells, rfl⟩ := starts
  refine ⟨gap ++ others, spelling, ?_, spells, by rw [List.append_assoc]⟩
  intro c mem
  rcases List.mem_append.1 mem with mem | mem
  · exact List.all_eq_true.1 spaces c mem
  · exact spacesOthers c mem

theorem quoteOf_not_mem {content : String} (plain : Plain content) :
    quoteOf content ∉ content.toList := by
  unfold quoteOf
  split
  · rename_i single
    exact plain.quotes.resolve_left (not_not_intro single)
  · assumption

@[simp] theorem isQuote_quoteOf (content : String) : isQuote (quoteOf content) = true := by
  unfold quoteOf
  split <;> rfl

theorem starts_literalText {content : String} (plain : Plain content) (rest : List Char) :
    (Token.literal content).Starts id (literalText content ++ rest) rest := by
  have inside : ∀ x ∈ content.toList, isContent (quoteOf content) x = true := by
    intro x mem
    have h₁ : x ≠ quoteOf content := fun same => quoteOf_not_mem plain (same ▸ mem)
    have h₂ : x ≠ '\n' := fun same => plain.lines.1 (same ▸ mem)
    have h₃ : x ≠ '\r' := fun same => plain.lines.2 (same ▸ mem)
    simp [isContent, h₁, h₂, h₃]
  have spells : (Token.literal (String.ofList content.toList)).Spells id (literalText content) :=
    .literal (isQuote_quoteOf content) inside
  rw [String.ofList_toList] at spells
  exact spells.starts rest

theorem moreArguments_text {contents : List String} (plain : ∀ s ∈ contents, Plain s)
    (rest : List Char) : MoreArguments id (moreArgumentsText contents ++ rest) contents rest := by
  induction contents with
  | nil => exact .close (Token.Spells.closing.starts rest)
  | cons content contents ih =>
      have others := ih fun s mem => plain s (List.mem_cons_of_mem _ mem)
      have literal := starts_literalText (plain content List.mem_cons_self)
        (moreArgumentsText contents ++ rest)
      rw [moreArgumentsText, List.cons_append, List.append_assoc]
      exact .next (Token.Spells.comma.starts _) literal others

theorem arguments_text {contents : List String} (plain : ∀ s ∈ contents, Plain s)
    (rest : List Char) : Arguments id (argumentsText contents ++ rest) contents rest := by
  cases contents with
  | nil => exact .none (Token.Spells.opening.starts _) (Token.Spells.closing.starts rest)
  | cons content contents =>
      have others := moreArguments_text (fun s mem => plain s (List.mem_cons_of_mem _ mem)) rest
      have literal := starts_literalText (plain content List.mem_cons_self)
        (moreArgumentsText contents ++ rest)
      rw [argumentsText, List.cons_append, List.append_assoc]
      exact .some (Token.Spells.opening.starts _) literal others

def isWord (name : String) : Bool :=
  match name.toList with
  | [] => false
  | c :: cs => isWordStart c && cs.all isWordPart

theorem starts_word {name : String} (word : isWord name = true) (rest : List Char) :
    (Token.word name).Starts id (name.toList ++ rest) rest := by
  unfold isWord at word
  split at word
  · cases word
  · rename_i c cs letters
    rw [Bool.and_eq_true, List.all_eq_true] at word
    have spells : (Token.word (String.ofList (c :: cs))).Spells id (c :: cs) :=
      .word word.1 word.2
    rw [← letters, String.ofList_toList] at spells
    exact spells.starts rest

theorem isWord_of_mem {names : List String} (words : names.all isWord = true) {name : String}
    (known : name ∈ names) : isWord name = true :=
  List.all_eq_true.mp words name known

theorem methodPart_text {method : Option WrittenMethod}
    (form : ∀ written, method = some written → written.WellFormed)
    (plain : ∀ s ∈ (method.bind (·.arguments)).getD [], Plain s) (rest : List Char) :
    MethodPart id (methodText method ++ rest) method rest := by
  cases method with
  | none => exact .absent
  | some written =>
      obtain ⟨known, called, -⟩ := form written rfl
      obtain ⟨name, arguments⟩ := written
      cases arguments with
      | none => exact absurd rfl called
      | some contents =>
          have word := starts_word (isWord_of_mem (by decide) known) (argumentsText contents ++ rest)
          rw [methodText, List.cons_append, List.append_assoc]
          exact .called (Token.Spells.dot.starts _) word (arguments_text plain rest)

theorem callPhrase_text {call : WrittenCall} (form : call.WellFormed)
    (plain : ∀ s ∈ call.contents, Plain s) (rest : List Char) :
    CallPhrase id (call.text ++ rest) call rest := by
  obtain ⟨known, -, -, method⟩ := form
  have chained := methodPart_text method (fun s mem => plain s (List.mem_append_right _ mem)) rest
  have arguments := arguments_text (fun s mem => plain s (List.mem_append_left _ mem))
    (methodText call.method ++ rest)
  have word := starts_word (isWord_of_mem (by decide) known)
    (argumentsText call.arguments ++ (methodText call.method ++ rest))
  rw [WrittenCall.text, List.append_assoc, List.append_assoc]
  exact .mk word arguments chained

theorem Derives.parenthesized {α : Type} {decode : List Char → List Char}
    {IsCall : List Char → α → List Char → Prop} {text rest : List Char} {tree : Tree α}
    (inner : Derives decode IsCall .disjunction text tree (')' :: rest)) :
    Derives decode IsCall .unary ('(' :: text) tree rest :=
  .primary (.parenthesis (Token.Spells.opening.starts text) inner
    (Token.Spells.closing.starts rest))

theorem derives_text {tree : Selector}
    (plain : ∀ call ∈ tree.calls, ∀ s ∈ call.written.contents, Plain s) (rest : List Char) :
    Derives id (Writes id) .disjunction (tree.text ++ rest) tree rest := by
  induction tree generalizing rest with
  | call c =>
      have phrase := callPhrase_text c.written_wellFormed (plain c List.mem_cons_self) rest
      exact .single (.unary (.primary (.call ⟨_, phrase, .full c⟩)))
  | negation operand ih =>
      have inner := (ih plain (')' :: rest)).parenthesized
      have whole := Derives.negation (Token.Spells.bang.starts _) inner
      simpa [Tree.text] using Derives.single (.unary whole)
  | conjunction left right ihLeft ihRight =>
      have last := (ihRight (fun c mem => plain c (List.mem_append_right _ mem))
        (')' :: rest)).parenthesized
      have first := (ihLeft (fun c mem => plain c (List.mem_append_left _ mem))
        (')' :: '&' :: '&' :: '(' :: (right.text ++ ')' :: rest))).parenthesized
      have whole := Derives.conjunction first (Token.Spells.both.starts _) (.unary last)
      simpa [Tree.text] using Derives.single whole
  | disjunction left right ihLeft ihRight =>
      have last := (ihRight (fun c mem => plain c (List.mem_append_right _ mem))
        (')' :: rest)).parenthesized
      have first := (ihLeft (fun c mem => plain c (List.mem_append_left _ mem))
        (')' :: '|' :: '|' :: '(' :: (right.text ++ ')' :: rest))).parenthesized
      have whole := Derives.disjunction (.unary first) (Token.Spells.either.starts _)
        (.single (.unary last))
      simpa [Tree.text] using whole

theorem spells_text {tree : Selector}
    (plain : ∀ call ∈ tree.calls, ∀ s ∈ call.written.contents, Plain s) :
    Spells id (Writes id) tree.text tree := by
  have derivation := derives_text plain []
  rw [List.append_nil] at derivation
  exact ⟨[], derivation, by simp⟩

end TagQuery.Selector
