import TagQuery.Proofs.Selector.Lexing
import TagQuery.Selector.Refusal

/-!
# What the grammar derives is read

The reader runs through a derivation: behind a phrase it holds the tree of the phrase as its
operand, with the same operators pending, and goes on with the rest of the text. A phrase has to be
followed by something that cannot be taken for a part of it, and the operators that are pending
must not bind tighter than the phrase.
-/

namespace TagQuery.Selector

/-! ## What may follow a phrase -/

def Level.followers : Level → List Token
  | .primary | .unary => [.closing, .either, .both]
  | .conjunction => [.closing, .either]
  | .disjunction => [.closing]

def Level.Follows (level : Level) (text : List Char) : Prop :=
  (∀ c ∈ text, Text.isSpace c = true) ∨
    ∃ token ∈ level.followers, ∃ rest, token.Starts unescape text rest

theorem Level.ne_word_of_mem {level : Level} {token : Token} (follower : token ∈ level.followers) :
    ∀ name, token ≠ .word name := by
  rintro name rfl
  cases level <;> simp [followers] at follower

theorem Level.Follows.of_starts {level : Level} {token : Token} {text rest : List Char}
    (starts : token.Starts unescape text rest) (follower : token ∈ level.followers) :
    level.Follows text :=
  .inr ⟨token, follower, rest, starts⟩

theorem Level.Follows.mono {level looser : Level} {text : List Char}
    (follows : looser.Follows text) (subset : looser.followers ⊆ level.followers) :
    level.Follows text := by
  rcases follows with spaces | ⟨token, follower, rest, starts⟩
  · exact .inl spaces
  · exact .of_starts starts (subset follower)

theorem not_isWordPart_of_isSpace {c : Char} (space : Text.isSpace c = true) :
    isWordPart c = false := by
  simp only [Text.isSpace, Bool.or_eq_true, beq_iff_eq] at space
  rcases space with ((rfl | rfl) | rfl) | rfl <;> decide

theorem Token.Starts.not_isWordPart {decode : List Char → List Char} {token : Token}
    {text rest : List Char} (starts : token.Starts decode text rest)
    (mark : ∀ name, token ≠ .word name) : ∀ c ∈ text.head?, isWordPart c = false := by
  obtain ⟨gap, spelling, spaces, spells, rfl⟩ := starts
  intro c mem
  cases gap with
  | cons g gap =>
      cases mem
      exact not_isWordPart_of_isSpace (spaces _ List.mem_cons_self)
  | nil =>
      cases spells with
      | word => exact absurd rfl (mark _)
      | literal quotes =>
          cases mem
          rcases eq_of_isQuote quotes with rfl | rfl <;> decide
      | _ =>
          cases mem
          decide

theorem Level.Follows.not_isWordPart {level : Level} {text : List Char}
    (follows : level.Follows text) : ∀ c ∈ text.head?, isWordPart c = false := by
  rcases follows with spaces | ⟨token, follower, rest, starts⟩
  · intro c mem
    exact not_isWordPart_of_isSpace (spaces c (List.mem_of_mem_head? mem))
  · exact starts.not_isWordPart (Level.ne_word_of_mem follower)

theorem Level.Follows.lexemes {level : Level} {text : List Char} (follows : level.Follows text) :
    Selector.lexemes text = [] ∨ ∃ token ∈ level.followers, ∃ left others,
      Selector.lexemes text = ⟨token, left⟩ :: others := by
  rcases follows with spaces | ⟨token, follower, rest, starts⟩
  · exact .inl (lexemes_eq_nil_iff.mpr spaces)
  · obtain ⟨left, found⟩ := lexemes_of_mark starts (Level.ne_word_of_mem follower)
    exact .inr ⟨token, follower, left, _, found⟩

theorem Level.Follows.head_ne {level : Level} {text : List Char} (follows : level.Follows text)
    {token : Token} (other : token ∉ level.followers) :
    ∀ l ∈ (Selector.lexemes text).head?, l.token ≠ token := by
  intro l mem same
  rcases follows.lexemes with found | ⟨token', follower, left, others, found⟩
  · rw [found] at mem
    cases mem
  · rw [found] at mem
    cases mem
    exact other (same ▸ follower)

/-! ## Calls -/

theorem readMoreArguments_of {text rest : List Char} {contents : List String}
    (phrase : MoreArguments unescape text contents rest) :
    readMoreArguments (lexemes text) = some (contents, lexemes rest) := by
  induction phrase with
  | close closed =>
      obtain ⟨left, found⟩ := lexemes_of_mark closed (by simp)
      rw [found, readMoreArguments]
  | next comma literal _ ih =>
      obtain ⟨left₁, found₁⟩ := lexemes_of_mark comma (by simp)
      obtain ⟨left₂, found₂⟩ := lexemes_of_mark literal (by simp)
      rw [found₁, found₂, readMoreArguments, ih]
      rfl

theorem readArguments_of {text rest : List Char} {contents : List String}
    (phrase : Arguments unescape text contents rest) :
    readArguments (lexemes text) = some (contents, lexemes rest) := by
  cases phrase with
  | none opened closed =>
      obtain ⟨left₁, found₁⟩ := lexemes_of_mark opened (by simp)
      obtain ⟨left₂, found₂⟩ := lexemes_of_mark closed (by simp)
      rw [found₁, found₂, readArguments]
  | some opened literal more =>
      obtain ⟨left₁, found₁⟩ := lexemes_of_mark opened (by simp)
      obtain ⟨left₂, found₂⟩ := lexemes_of_mark literal (by simp)
      rw [found₁, found₂, readArguments, readMoreArguments_of more]
      rfl

theorem Arguments.not_isWordPart {text rest : List Char} {contents : List String}
    (phrase : Arguments unescape text contents rest) :
    ∀ c ∈ text.head?, isWordPart c = false := by
  cases phrase with
  | none opened | some opened => exact opened.not_isWordPart (by simp)

theorem readArguments_of_follows {text : List Char} (follows : Level.primary.Follows text) :
    readArguments (lexemes text) = none := by
  rcases follows.lexemes with found | ⟨token, follower, left, others, found⟩
  · rw [found]
    rfl
  · rw [found]
    simp only [Level.followers, List.mem_cons, List.not_mem_nil, or_false] at follower
    rcases follower with rfl | rfl | rfl <;> rfl

theorem readMethod_of {text rest : List Char} {method : Option WrittenMethod}
    (phrase : MethodPart unescape text method rest) (follows : Level.primary.Follows rest) :
    readMethod (lexemes text) = (method, lexemes rest) := by
  cases phrase with
  | absent =>
      rcases follows.lexemes with found | ⟨token, follower, left, others, found⟩
      · rw [found]
        rfl
      · rw [found]
        simp only [Level.followers, List.mem_cons, List.not_mem_nil, or_false] at follower
        rcases follower with rfl | rfl | rfl <;> rfl
  | bare dot word =>
      obtain ⟨left₁, found₁⟩ := lexemes_of_mark dot (by simp)
      obtain ⟨left₂, found₂⟩ := lexemes_of_starts word fun _ _ => follows.not_isWordPart
      rw [found₁, found₂, readMethod, readArguments_of_follows follows]
  | called dot word arguments =>
      obtain ⟨left₁, found₁⟩ := lexemes_of_mark dot (by simp)
      obtain ⟨left₂, found₂⟩ := lexemes_of_starts word fun _ _ => arguments.not_isWordPart
      rw [found₁, found₂, readMethod, readArguments_of arguments]

theorem readCall_of {text rest : List Char} {call : WrittenCall}
    (phrase : CallPhrase unescape text call rest) (follows : Level.primary.Follows rest) :
    ∃ left others, lexemes text = ⟨.word call.function, left⟩ :: others ∧
      readCall (lexemes text) = some (call, lexemes rest) := by
  obtain ⟨word, arguments, chained⟩ := phrase
  obtain ⟨left, found⟩ := lexemes_of_starts word fun _ _ => arguments.not_isWordPart
  refine ⟨left, _, found, ?_⟩
  rw [found, readCall, readArguments_of arguments]
  simp only [Option.map_some, readMethod_of chained follows]

/-! ## Steps of the reader -/

section
variable {α : Type} {check : WrittenCall → Except Violation α} {stack : List (Pending α)}

theorem read_bang {left : Nat} {others : List Lexeme} :
    read check stack none (⟨.bang, left⟩ :: others) =
      read check (.negation :: stack) none others := by
  rw [read]

theorem read_opening {left : Nat} {others : List Lexeme} :
    read check stack none (⟨.opening, left⟩ :: others) =
      read check (.parenthesis :: stack) none others := by
  rw [read]

theorem read_both {tree : Tree α} {left : Nat} {others : List Lexeme} :
    read check stack (some tree) (⟨.both, left⟩ :: others) =
      read check (.conjunction tree :: stack) none others := by
  rw [read]

theorem read_either {tree : Tree α} {left : Nat} {others : List Lexeme} :
    read check stack (some tree) (⟨.either, left⟩ :: others) =
      read check (.disjunction (closeConjunctions stack tree).2 ::
        (closeConjunctions stack tree).1) none others := by
  rw [read]

def resume (check : WrittenCall → Except Violation α) (stack : List (Pending α)) (tree : Tree α)
    (others : List Lexeme) : Except Stop (Tree α) :=
  read check (closeNegations stack tree).1 (some (closeNegations stack tree).2) others

theorem read_closing {tree : Tree α} {left : Nat} {others : List Lexeme} :
    read check (.parenthesis :: stack) (some tree) (⟨.closing, left⟩ :: others) =
      resume check stack tree others := by
  rw [read.eq_def]
  rfl

theorem read_call {name : String} {left : Nat} {others after : List Lexeme} {call : WrittenCall}
    (found : readCall (⟨.word name, left⟩ :: others) = some (call, after)) :
    read check stack none (⟨.word name, left⟩ :: others) =
      (check call).mapError (fun violation => ⟨.call violation, left⟩) >>= fun c =>
        resume check stack (.call c) after := by
  rw [read]
  · split
    · rename_i none
      rw [found] at none
      cases none
    · rename_i found'
      rw [found] at found'
      cases found'
      cases check call <;> rfl
  all_goals simp

theorem read_conjunction {first tree : Tree α} {others : List Lexeme}
    (ends : ∀ l ∈ others.head?, l.token ≠ .both) :
    read check (.conjunction first :: stack) (some tree) others =
      read check stack (some (.conjunction first tree)) others := by
  have closed : closeOperators (.conjunction first :: stack) tree =
      closeOperators stack (.conjunction first tree) := by rw [closeOperators]
  cases others with
  | nil => rw [read, read, closed]
  | cons l others =>
      obtain ⟨token, left⟩ := l
      have differs : token ≠ .both := ends _ rfl
      cases token with
      | both => exact absurd rfl differs
      | either => rw [read_either, read_either, closeConjunctions]
      | _ =>
          rw [read.eq_def, read.eq_def check stack]
          simp only [closed]

theorem read_disjunction {first tree : Tree α} {others : List Lexeme}
    (ends : ∀ l ∈ others.head?, l.token ≠ .both ∧ l.token ≠ .either) :
    read check (.disjunction first :: stack) (some tree) others =
      read check stack (some (.disjunction first tree)) others := by
  have closed : closeOperators (.disjunction first :: stack) tree =
      closeOperators stack (.disjunction first tree) := by rw [closeOperators]
  cases others with
  | nil => rw [read, read, closed]
  | cons l others =>
      obtain ⟨token, left⟩ := l
      have differs : token ≠ .both ∧ token ≠ .either := ends _ rfl
      cases token with
      | both => exact absurd rfl differs.1
      | either => exact absurd rfl differs.2
      | _ =>
          rw [read.eq_def, read.eq_def check stack]
          simp only [closed]

/-! ## The run through a derivation -/

/-- The operators that may be pending where a phrase of the level begins. -/
def Level.Opens : Level → List (Pending α) → Prop
  | .disjunction, .conjunction _ :: _ => False
  | .disjunction, .negation :: _ => False
  | .conjunction, .negation :: _ => False
  | _, _ => True

theorem Level.opens_nil (level : Level) : level.Opens ([] : List (Pending α)) := by
  cases level <;> trivial

theorem Level.opens_parenthesis (level : Level) :
    level.Opens (.parenthesis :: stack : List (Pending α)) := by
  cases level <;> trivial

theorem Level.Opens.conjunction (opens : Level.disjunction.Opens stack) :
    Level.conjunction.Opens stack := by
  cases stack with
  | nil => trivial
  | cons top stack =>
      cases top with
      | negation => exact opens
      | _ => trivial

theorem closeNegations_of_opens (opens : Level.conjunction.Opens stack) (tree : Tree α) :
    closeNegations stack tree = (stack, tree) := by
  cases stack with
  | nil => rfl
  | cons top stack =>
      cases top with
      | negation => exact absurd opens id
      | _ => rfl

theorem closeConjunctions_of_opens (opens : Level.disjunction.Opens stack) (tree : Tree α) :
    closeConjunctions stack tree = (stack, tree) := by
  cases stack with
  | nil => rfl
  | cons top stack =>
      cases top with
      | conjunction => exact absurd opens id
      | _ => rfl

theorem resume_of_opens (opens : Level.conjunction.Opens stack) (tree : Tree α)
    (others : List Lexeme) :
    resume check stack tree others = read check stack (some tree) others := by
  rw [resume, closeNegations_of_opens opens]

end

def Tree.settle {α β ε : Type} (verdict : α → Except ε β) : Tree α → Except ε (Tree β)
  | .call c => verdict c >>= fun c => .ok (.call c)
  | .negation operand => operand.settle verdict >>= fun operand => .ok (.negation operand)
  | .conjunction left right =>
    left.settle verdict >>= fun left =>
      right.settle verdict >>= fun right => .ok (.conjunction left right)
  | .disjunction left right =>
    left.settle verdict >>= fun left =>
      right.settle verdict >>= fun right => .ok (.disjunction left right)

/-- Each call of a derivation is read as a call, and the check comes to the given verdict on it. -/
def Judged {α β : Type} (check : WrittenCall → Except Violation β)
    (IsCall : List Char → α → List Char → Prop) (verdict : α → Except Stop β) : Prop :=
  ∀ text c rest, IsCall text c rest → Level.primary.Follows rest →
    ∃ call left others, lexemes text = ⟨.word call.function, left⟩ :: others ∧
      readCall (lexemes text) = some (call, lexemes rest) ∧
      (check call).mapError (fun violation => ⟨.call violation, left⟩) = verdict c

theorem read_of_derives {α β : Type} {check : WrittenCall → Except Violation β}
    {IsCall : List Char → α → List Char → Prop} {verdict : α → Except Stop β}
    (judged : Judged check IsCall verdict) {level : Level} {text rest : List Char} {tree : Tree α}
    (derivation : Derives unescape IsCall level text tree rest) {stack : List (Pending β)}
    (opens : level.Opens stack) (follows : level.Follows rest) :
    read check stack none (lexemes text) =
      tree.settle verdict >>= fun tree => resume check stack tree (lexemes rest) := by
  -- The stack varies: each operand is read above the operators that wait for it.
  induction derivation generalizing stack with
  | call call =>
      obtain ⟨written, left, others, found, taken, same⟩ := judged _ _ _ call follows
      rw [found] at taken ⊢
      rw [read_call taken, same, Tree.settle, bind_assoc]
      rfl
  | parenthesis opened _ closed ih =>
      obtain ⟨left₁, found₁⟩ := lexemes_of_mark opened (by simp)
      obtain ⟨left₂, found₂⟩ := lexemes_of_mark closed (by simp)
      have follows' : Level.disjunction.Follows _ := .of_starts closed (by simp [Level.followers])
      rw [found₁, read_opening, ih (Level.opens_parenthesis _) follows', found₂]
      congr 1
      funext tree
      rw [resume_of_opens (Level.opens_parenthesis _), read_closing]
  | primary _ ih => exact ih trivial follows
  | negation bang _ ih =>
      obtain ⟨left, found⟩ := lexemes_of_mark bang (by simp)
      rw [found, read_bang, ih trivial follows, Tree.settle, bind_assoc]
      rfl
  | unary _ ih => exact ih trivial (follows.mono (by simp [Level.followers]))
  | conjunction _ both _ ihFirst ihOthers =>
      obtain ⟨left, found⟩ := lexemes_of_mark both (by simp)
      rw [ihFirst trivial (.of_starts both (by simp [Level.followers])), Tree.settle, bind_assoc]
      congr 1
      funext first
      have opened : Level.conjunction.Opens (.conjunction first :: stack) := trivial
      rw [resume_of_opens opens, found, read_both, ihOthers opened follows, bind_assoc]
      congr 1
      funext others
      rw [resume_of_opens opened, read_conjunction (follows.head_ne (by simp [Level.followers]))]
      exact (resume_of_opens opens _ _).symm
  | single _ ih => exact ih opens.conjunction (follows.mono (by simp [Level.followers]))
  | disjunction _ either _ ihFirst ihOthers =>
      obtain ⟨left, found⟩ := lexemes_of_mark either (by simp)
      rw [ihFirst opens.conjunction (.of_starts either (by simp [Level.followers])), Tree.settle,
        bind_assoc]
      congr 1
      funext first
      have opened : Level.disjunction.Opens (.disjunction first :: stack) := trivial
      rw [resume_of_opens opens.conjunction, found, read_either, closeConjunctions_of_opens opens,
        ihOthers opened follows, bind_assoc]
      congr 1
      funext others
      rw [resume_of_opens opened.conjunction, read_disjunction fun l mem =>
        ⟨follows.head_ne (by simp [Level.followers]) l mem,
          follows.head_ne (by simp [Level.followers]) l mem⟩]
      exact (resume_of_opens opens.conjunction _ _).symm

theorem readText_of_spells {α β : Type} {check : WrittenCall → Except Violation β}
    {IsCall : List Char → α → List Char → Prop} {verdict : α → Except Stop β}
    (judged : Judged check IsCall verdict) {text : List Char} {tree : Tree α}
    (spells : Spells unescape IsCall text tree) : readText check text = tree.settle verdict := by
  obtain ⟨rest, derivation, spaces⟩ := spells
  have opens := Level.opens_nil (α := β)
  rw [readText, read_of_derives judged derivation (opens _) (.inl spaces),
    lexemes_eq_nil_iff.mpr spaces]
  cases tree.settle verdict with
  | error stop => rfl
  | ok tree =>
      calc resume check [] tree [] = read check [] (some tree) [] := resume_of_opens (opens _) _ _
        _ = .ok tree := by
            rw [read]
            rfl

end TagQuery.Selector
