import Mathlib.Data.List.Forall2
import TagQuery.Selector.Reader

/-!
# The grammar of selectors

The texts that stand for a tree, without regard to how they are read. Every rule relates a text to
what is left of it behind the phrase that it begins with, so that a phrase says nothing about what
comes after it. Space may precede each token and nothing else may stand between two of them.

Two things are left open. `decode` is what the characters between two quotes stand for, and
`IsCall` is how the calls of a tree are written; the operators are the same for all of them.
-/

namespace TagQuery.Selector

inductive Token.Spells (decode : List Char → List Char) : Token → List Char → Prop where
  | bang : Spells decode .bang ['!']
  | both : Spells decode .both ['&', '&']
  | either : Spells decode .either ['|', '|']
  | opening : Spells decode .opening ['(']
  | closing : Spells decode .closing [')']
  | comma : Spells decode .comma [',']
  | dot : Spells decode .dot ['.']
  | word {c : Char} {cs : List Char} (first : isWordStart c = true)
      (others : ∀ x ∈ cs, isWordPart x = true) :
      Spells decode (.word (String.ofList (c :: cs))) (c :: cs)
  | literal {quote : Char} {content : List Char} (quotes : isQuote quote = true)
      (inside : ∀ x ∈ content, isContent quote x = true) :
      Spells decode (.literal (String.ofList (decode content))) (quote :: (content ++ [quote]))

def Token.Starts (decode : List Char → List Char) (token : Token) (text rest : List Char) : Prop :=
  ∃ gap spelling, (∀ c ∈ gap, Text.isSpace c = true) ∧ token.Spells decode spelling ∧
    text = gap ++ (spelling ++ rest)

/-! ## Calls -/

section
variable (decode : List Char → List Char)

inductive MoreArguments : List Char → List String → List Char → Prop where
  | close {text rest} (closed : Token.closing.Starts decode text rest) :
      MoreArguments text [] rest
  | next {text t₁ t₂ rest content contents} (comma : Token.comma.Starts decode text t₁)
      (literal : (Token.literal content).Starts decode t₁ t₂)
      (more : MoreArguments t₂ contents rest) : MoreArguments text (content :: contents) rest

inductive Arguments : List Char → List String → List Char → Prop where
  | none {text t₁ rest} (opened : Token.opening.Starts decode text t₁)
      (closed : Token.closing.Starts decode t₁ rest) : Arguments text [] rest
  | some {text t₁ t₂ rest content contents} (opened : Token.opening.Starts decode text t₁)
      (literal : (Token.literal content).Starts decode t₁ t₂)
      (more : MoreArguments decode t₂ contents rest) : Arguments text (content :: contents) rest

inductive MethodPart : List Char → Option WrittenMethod → List Char → Prop where
  | absent {text} : MethodPart text none text
  | bare {text t₁ rest name} (dot : Token.dot.Starts decode text t₁)
      (word : (Token.word name).Starts decode t₁ rest) : MethodPart text (some ⟨name, none⟩) rest
  | called {text t₁ t₂ rest name contents} (dot : Token.dot.Starts decode text t₁)
      (word : (Token.word name).Starts decode t₁ t₂)
      (arguments : Arguments decode t₂ contents rest) :
      MethodPart text (some ⟨name, some contents⟩) rest

inductive CallPhrase : List Char → WrittenCall → List Char → Prop where
  | mk {text t₁ t₂ rest function contents method}
      (word : (Token.word function).Starts decode text t₁)
      (arguments : Arguments decode t₁ contents t₂) (chained : MethodPart decode t₂ method rest) :
      CallPhrase text ⟨function, contents, method⟩ rest

end

/-! ## Operators -/

inductive Level where
  | primary | unary | conjunction | disjunction
deriving DecidableEq, Repr

section
variable {α : Type} (decode : List Char → List Char) (IsCall : List Char → α → List Char → Prop)

/-- A text begins with a phrase of the given level that stands for the tree. The left operand of an
operator is bound tighter than the operator, so that a chain nests to the right. -/
inductive Derives : Level → List Char → Tree α → List Char → Prop where
  | call {text c rest} (call : IsCall text c rest) : Derives .primary text (.call c) rest
  | parenthesis {text t₁ t₂ tree rest} (opened : Token.opening.Starts decode text t₁)
      (inner : Derives .disjunction t₁ tree t₂) (closed : Token.closing.Starts decode t₂ rest) :
      Derives .primary text tree rest
  | primary {text tree rest} (operand : Derives .primary text tree rest) :
      Derives .unary text tree rest
  | negation {text t₁ tree rest} (bang : Token.bang.Starts decode text t₁)
      (operand : Derives .unary t₁ tree rest) : Derives .unary text (.negation tree) rest
  | unary {text tree rest} (operand : Derives .unary text tree rest) :
      Derives .conjunction text tree rest
  | conjunction {text t₁ t₂ left right rest} (first : Derives .unary text left t₁)
      (both : Token.both.Starts decode t₁ t₂) (others : Derives .conjunction t₂ right rest) :
      Derives .conjunction text (.conjunction left right) rest
  | single {text tree rest} (operand : Derives .conjunction text tree rest) :
      Derives .disjunction text tree rest
  | disjunction {text t₁ t₂ left right rest} (first : Derives .conjunction text left t₁)
      (either : Token.either.Starts decode t₁ t₂) (others : Derives .disjunction t₂ right rest) :
      Derives .disjunction text (.disjunction left right) rest

def Spells (text : List Char) (tree : Tree α) : Prop :=
  ∃ rest, Derives decode IsCall .disjunction text tree rest ∧ ∀ c ∈ rest, Text.isSpace c = true

end

/-! ## Derivations over other texts

A derivation is carried from one text to another when each of its tokens is. The second text may
differ in its space and in what follows, and its literals may be decoded in another way. What the
second text stands for has the same structure, with other contents or other calls in it. -/

inductive Tree.Alike {α β : Type} (alike : α → β → Prop) : Tree α → Tree β → Prop where
  | call {c c'} (same : alike c c') : Alike alike (.call c) (.call c')
  | negation {operand operand'} (same : Alike alike operand operand') :
      Alike alike (.negation operand) (.negation operand')
  | conjunction {left right left' right'} (sameLeft : Alike alike left left')
      (sameRight : Alike alike right right') :
      Alike alike (.conjunction left right) (.conjunction left' right')
  | disjunction {left right left' right'} (sameLeft : Alike alike left left')
      (sameRight : Alike alike right right') :
      Alike alike (.disjunction left right) (.disjunction left' right')

inductive WrittenMethod.Alike (alike : String → String → Prop) :
    WrittenMethod → WrittenMethod → Prop where
  | bare {name} : Alike alike ⟨name, none⟩ ⟨name, none⟩
  | called {name contents contents'} (same : List.Forall₂ alike contents contents') :
      Alike alike ⟨name, some contents⟩ ⟨name, some contents'⟩

inductive WrittenCall.Alike (alike : String → String → Prop) :
    WrittenCall → WrittenCall → Prop where
  | plain {function contents contents'} (same : List.Forall₂ alike contents contents') :
      Alike alike ⟨function, contents, none⟩ ⟨function, contents', none⟩
  | chained {function contents contents' method method'}
      (same : List.Forall₂ alike contents contents') (sameMethod : method.Alike alike method') :
      Alike alike ⟨function, contents, some method⟩ ⟨function, contents', some method'⟩

theorem Tree.Alike.eq {α : Type} {tree tree' : Tree α} (same : tree.Alike Eq tree') :
    tree = tree' := by
  induction same with
  | call same => rw [same]
  | negation _ ih => rw [ih]
  | conjunction _ _ ihLeft ihRight | disjunction _ _ ihLeft ihRight => rw [ihLeft, ihRight]

theorem WrittenMethod.Alike.eq {method method' : WrittenMethod} (same : method.Alike Eq method') :
    method = method' := by
  cases same with
  | bare => rfl
  | called same =>
      rw [List.forall₂_eq_eq_eq] at same
      rw [same]

theorem WrittenCall.Alike.eq {call call' : WrittenCall} (same : call.Alike Eq call') :
    call = call' := by
  cases same with
  | plain same =>
      rw [List.forall₂_eq_eq_eq] at same
      rw [same]
  | chained same sameMethod =>
      rw [List.forall₂_eq_eq_eq] at same
      rw [same, sameMethod.eq]

section
variable {α β : Type} {decode decode' : List Char → List Char}
  {related : List Char → List Char → Prop} {alike : String → String → Prop}

/-- In related texts the token stands in the same place, and the rests are related again. -/
def Token.Carried (decode decode' : List Char → List Char) (related : List Char → List Char → Prop)
    (token : Token) : Prop :=
  ∀ {text rest text'}, related text text' → token.Starts decode text rest →
    ∃ rest', related rest rest' ∧ token.Starts decode' text' rest'

def MarksCarried (decode decode' : List Char → List Char)
    (related : List Char → List Char → Prop) : Prop :=
  ∀ token : Token, (∀ content, token ≠ .literal content) → token.Carried decode decode' related

def LiteralCarried (decode decode' : List Char → List Char)
    (related : List Char → List Char → Prop) (alike : String → String → Prop) (content : String) :
    Prop :=
  ∀ {text rest text'}, related text text' → (Token.literal content).Starts decode text rest →
    ∃ content' rest', alike content content' ∧ related rest rest' ∧
      (Token.literal content').Starts decode' text' rest'

theorem MoreArguments.transfer (marks : MarksCarried decode decode' related)
    {text rest text' : List Char} {contents : List String}
    (literals : ∀ content ∈ contents, LiteralCarried decode decode' related alike content)
    (phrase : MoreArguments decode text contents rest) (rel : related text text') :
    ∃ contents' rest', List.Forall₂ alike contents contents' ∧ related rest rest' ∧
      MoreArguments decode' text' contents' rest' := by
  induction phrase generalizing text' with
  | close closed =>
      obtain ⟨rest', rel', closed'⟩ := marks _ (by simp) rel closed
      exact ⟨[], rest', .nil, rel', .close closed'⟩
  | next comma literal _ ih =>
      obtain ⟨u₁, rel₁, comma'⟩ := marks _ (by simp) rel comma
      obtain ⟨content', u₂, same, rel₂, literal'⟩ := literals _ List.mem_cons_self rel₁ literal
      obtain ⟨contents', rest', others, rel', more'⟩ :=
        ih (fun s mem => literals s (List.mem_cons_of_mem _ mem)) rel₂
      exact ⟨content' :: contents', rest', .cons same others, rel', .next comma' literal' more'⟩

theorem Arguments.transfer (marks : MarksCarried decode decode' related)
    {text rest text' : List Char} {contents : List String}
    (literals : ∀ content ∈ contents, LiteralCarried decode decode' related alike content)
    (phrase : Arguments decode text contents rest) (rel : related text text') :
    ∃ contents' rest', List.Forall₂ alike contents contents' ∧ related rest rest' ∧
      Arguments decode' text' contents' rest' := by
  cases phrase with
  | none opened closed =>
      obtain ⟨u₁, rel₁, opened'⟩ := marks _ (by simp) rel opened
      obtain ⟨rest', rel', closed'⟩ := marks _ (by simp) rel₁ closed
      exact ⟨[], rest', .nil, rel', .none opened' closed'⟩
  | some opened literal more =>
      obtain ⟨u₁, rel₁, opened'⟩ := marks _ (by simp) rel opened
      obtain ⟨content', u₂, same, rel₂, literal'⟩ := literals _ List.mem_cons_self rel₁ literal
      obtain ⟨contents', rest', others, rel', more'⟩ :=
        more.transfer marks (fun s mem => literals s (List.mem_cons_of_mem _ mem)) rel₂
      exact ⟨content' :: contents', rest', .cons same others, rel', .some opened' literal' more'⟩

def WrittenCall.contents (call : WrittenCall) : List String :=
  call.arguments ++ ((call.method.bind (·.arguments)).getD [])

theorem CallPhrase.transfer (marks : MarksCarried decode decode' related)
    {text rest text' : List Char} {call : WrittenCall}
    (literals : ∀ content ∈ call.contents, LiteralCarried decode decode' related alike content)
    (phrase : CallPhrase decode text call rest) (rel : related text text') :
    ∃ call' rest', call.Alike alike call' ∧ related rest rest' ∧
      CallPhrase decode' text' call' rest' := by
  obtain ⟨word, arguments, chained⟩ := phrase
  obtain ⟨u₁, rel₁, word'⟩ := marks _ (by simp) rel word
  obtain ⟨contents', u₂, same, rel₂, arguments'⟩ :=
    arguments.transfer marks (fun s mem => literals s (List.mem_append_left _ mem)) rel₁
  cases chained with
  | absent => exact ⟨_, u₂, .plain same, rel₂, .mk word' arguments' .absent⟩
  | bare dot name =>
      obtain ⟨u₃, rel₃, dot'⟩ := marks _ (by simp) rel₂ dot
      obtain ⟨rest', rel', name'⟩ := marks _ (by simp) rel₃ name
      exact ⟨_, rest', .chained same .bare, rel',
        .mk word' arguments' (.bare dot' name')⟩
  | called dot name inner =>
      obtain ⟨u₃, rel₃, dot'⟩ := marks _ (by simp) rel₂ dot
      obtain ⟨u₄, rel₄, name'⟩ := marks _ (by simp) rel₃ name
      obtain ⟨inner', rest', sameInner, rel', called'⟩ :=
        inner.transfer marks (fun s mem => literals s (List.mem_append_right _ mem)) rel₄
      exact ⟨_, rest', .chained same (.called sameInner), rel',
        .mk word' arguments' (.called dot' name' called')⟩

theorem Derives.transfer {IsCall : List Char → α → List Char → Prop}
    {IsCall' : List Char → β → List Char → Prop} {alike : α → β → Prop}
    (marks : MarksCarried decode decode' related) {level : Level} {text rest text' : List Char}
    {tree : Tree α}
    (calls : ∀ c ∈ tree.calls, ∀ {text rest text'}, related text text' → IsCall text c rest →
      ∃ c' rest', alike c c' ∧ related rest rest' ∧ IsCall' text' c' rest')
    (derivation : Derives decode IsCall level text tree rest) (rel : related text text') :
    ∃ tree' rest', tree.Alike alike tree' ∧ related rest rest' ∧
      Derives decode' IsCall' level text' tree' rest' := by
  induction derivation generalizing text' with
  | call call =>
      obtain ⟨c', rest', same, rel', call'⟩ := calls _ List.mem_cons_self rel call
      exact ⟨.call c', rest', .call same, rel', .call call'⟩
  | parenthesis opened _ closed ih =>
      obtain ⟨u₁, rel₁, opened'⟩ := marks _ (by simp) rel opened
      obtain ⟨tree', u₂, same, rel₂, inner'⟩ := ih calls rel₁
      obtain ⟨rest', rel', closed'⟩ := marks _ (by simp) rel₂ closed
      exact ⟨tree', rest', same, rel', .parenthesis opened' inner' closed'⟩
  | primary _ ih =>
      obtain ⟨tree', rest', same, rel', operand'⟩ := ih calls rel
      exact ⟨tree', rest', same, rel', .primary operand'⟩
  | negation bang _ ih =>
      obtain ⟨u₁, rel₁, bang'⟩ := marks _ (by simp) rel bang
      obtain ⟨tree', rest', same, rel', operand'⟩ := ih calls rel₁
      exact ⟨.negation tree', rest', .negation same, rel', .negation bang' operand'⟩
  | unary _ ih =>
      obtain ⟨tree', rest', same, rel', operand'⟩ := ih calls rel
      exact ⟨tree', rest', same, rel', .unary operand'⟩
  | conjunction _ both _ ihFirst ihOthers =>
      obtain ⟨left', u₁, sameLeft, rel₁, first'⟩ :=
        ihFirst (fun c mem => calls c (List.mem_append_left _ mem)) rel
      obtain ⟨u₂, rel₂, both'⟩ := marks _ (by simp) rel₁ both
      obtain ⟨right', rest', sameRight, rel', others'⟩ :=
        ihOthers (fun c mem => calls c (List.mem_append_right _ mem)) rel₂
      exact ⟨.conjunction left' right', rest', .conjunction sameLeft sameRight, rel',
        .conjunction first' both' others'⟩
  | single _ ih =>
      obtain ⟨tree', rest', same, rel', operand'⟩ := ih calls rel
      exact ⟨tree', rest', same, rel', .single operand'⟩
  | disjunction _ either _ ihFirst ihOthers =>
      obtain ⟨left', u₁, sameLeft, rel₁, first'⟩ :=
        ihFirst (fun c mem => calls c (List.mem_append_left _ mem)) rel
      obtain ⟨u₂, rel₂, either'⟩ := marks _ (by simp) rel₁ either
      obtain ⟨right', rest', sameRight, rel', others'⟩ :=
        ihOthers (fun c mem => calls c (List.mem_append_right _ mem)) rel₂
      exact ⟨.disjunction left' right', rest', .disjunction sameLeft sameRight, rel',
        .disjunction first' either' others'⟩

/-! ### With the same contents and calls -/

theorem literalCarried_eq {content : String}
    (carried : (Token.literal content).Carried decode decode' related) :
    LiteralCarried decode decode' related Eq content := by
  intro text rest text' rel starts
  obtain ⟨rest', rel', starts'⟩ := carried rel starts
  exact ⟨content, rest', rfl, rel', starts'⟩

theorem MoreArguments.carry (marks : MarksCarried decode decode' related)
    {text rest text' : List Char} {contents : List String}
    (literals : ∀ content ∈ contents, (Token.literal content).Carried decode decode' related)
    (phrase : MoreArguments decode text contents rest) (rel : related text text') :
    ∃ rest', related rest rest' ∧ MoreArguments decode' text' contents rest' := by
  obtain ⟨contents', rest', same, carried⟩ :=
    phrase.transfer marks (fun s mem => literalCarried_eq (literals s mem)) rel
  rw [List.forall₂_eq_eq_eq] at same
  subst same
  exact ⟨rest', carried⟩

theorem Arguments.carry (marks : MarksCarried decode decode' related)
    {text rest text' : List Char} {contents : List String}
    (literals : ∀ content ∈ contents, (Token.literal content).Carried decode decode' related)
    (phrase : Arguments decode text contents rest) (rel : related text text') :
    ∃ rest', related rest rest' ∧ Arguments decode' text' contents rest' := by
  obtain ⟨contents', rest', same, carried⟩ :=
    phrase.transfer marks (fun s mem => literalCarried_eq (literals s mem)) rel
  rw [List.forall₂_eq_eq_eq] at same
  subst same
  exact ⟨rest', carried⟩

theorem CallPhrase.carry (marks : MarksCarried decode decode' related)
    {text rest text' : List Char} {call : WrittenCall}
    (literals : ∀ content ∈ call.contents,
      (Token.literal content).Carried decode decode' related)
    (phrase : CallPhrase decode text call rest) (rel : related text text') :
    ∃ rest', related rest rest' ∧ CallPhrase decode' text' call rest' := by
  obtain ⟨call', rest', same, carried⟩ :=
    phrase.transfer marks (fun s mem => literalCarried_eq (literals s mem)) rel
  obtain rfl := same.eq
  exact ⟨rest', carried⟩

theorem Derives.carry {IsCall IsCall' : List Char → α → List Char → Prop}
    (marks : MarksCarried decode decode' related) {level : Level} {text rest text' : List Char}
    {tree : Tree α}
    (calls : ∀ c ∈ tree.calls, ∀ {text rest text'}, related text text' → IsCall text c rest →
      ∃ rest', related rest rest' ∧ IsCall' text' c rest')
    (derivation : Derives decode IsCall level text tree rest) (rel : related text text') :
    ∃ rest', related rest rest' ∧ Derives decode' IsCall' level text' tree rest' := by
  have kept : ∀ c ∈ tree.calls, ∀ {text rest text'}, related text text' → IsCall text c rest →
      ∃ c' rest', c = c' ∧ related rest rest' ∧ IsCall' text' c' rest' := by
    intro c mem text rest text' rel call
    obtain ⟨rest', carried⟩ := calls c mem rel call
    exact ⟨c, rest', rfl, carried⟩
  obtain ⟨tree', rest', same, carried⟩ := derivation.transfer marks kept rel
  obtain rfl := same.eq
  exact ⟨rest', carried⟩

end

end TagQuery.Selector
