import TagQuery.Selector.Call
import TagQuery.Selector.Token

/-!
# Reading selectors

Tokens are read from left to right with the unfinished operators held in a list, innermost first.
Negation binds tightest, then conjunction, then disjunction, and a chain of one operator nests to
the right. A call is the longest one that the tokens allow: a method or its arguments that are
malformed are not part of it. The rules of a call are checked as soon as it is read, before
anything behind it is looked at. `read` takes the check as a parameter.
-/

namespace TagQuery.Selector

inductive Reason where
  /-- An operand is missing or malformed. -/
  | operand
  /-- An operand in a parenthesis is followed by neither an operator nor the end of it. -/
  | unbalanced
  /-- A complete selector is followed by something else. -/
  | trailing
  | call (violation : Violation)
deriving DecidableEq, Repr

/-- A reason with the number of characters from the place where it was found to the end. -/
structure Stop where
  reason : Reason
  left : Nat
deriving DecidableEq, Repr

/-! ## Calls -/

def readMoreArguments : List Lexeme → Option (List String × List Lexeme)
  | ⟨.closing, _⟩ :: rest => some ([], rest)
  | ⟨.comma, _⟩ :: ⟨.literal content, _⟩ :: rest =>
    (readMoreArguments rest).map fun (arguments, rest) => (content :: arguments, rest)
  | _ => none

def readArguments : List Lexeme → Option (List String × List Lexeme)
  | ⟨.opening, _⟩ :: ⟨.closing, _⟩ :: rest => some ([], rest)
  | ⟨.opening, _⟩ :: ⟨.literal content, _⟩ :: rest =>
    (readMoreArguments rest).map fun (arguments, rest) => (content :: arguments, rest)
  | _ => none

def readMethod : List Lexeme → Option WrittenMethod × List Lexeme
  | ⟨.dot, _⟩ :: ⟨.word name, _⟩ :: rest =>
    match readArguments rest with
    | some (arguments, rest) => (some ⟨name, some arguments⟩, rest)
    | none => (some ⟨name, none⟩, rest)
  | rest => (none, rest)

def readCall : List Lexeme → Option (WrittenCall × List Lexeme)
  | ⟨.word function, _⟩ :: rest =>
    (readArguments rest).map fun (arguments, rest) =>
      let (method, rest) := readMethod rest
      (⟨function, arguments, method⟩, rest)
  | _ => none

theorem length_readMoreArguments_lt {lexemes rest : List Lexeme} {arguments : List String}
    (read : readMoreArguments lexemes = some (arguments, rest)) :
    rest.length < lexemes.length := by
  fun_induction readMoreArguments lexemes generalizing arguments rest with
  | case1 =>
    simp only [Option.some.injEq, Prod.mk.injEq] at read
    simp [read.2]
  | case2 content _ _ tail ih =>
    simp only [Option.map_eq_some_iff, Prod.mk.injEq] at read
    obtain ⟨⟨more, after⟩, found, _, rfl⟩ := read
    have shorter := ih found
    simp only [List.length_cons]
    omega
  | case3 => simp at read

theorem length_readArguments_lt {lexemes rest : List Lexeme} {arguments : List String}
    (read : readArguments lexemes = some (arguments, rest)) : rest.length < lexemes.length := by
  unfold readArguments at read
  split at read
  · simp only [Option.some.injEq, Prod.mk.injEq] at read
    simp only [← read.2, List.length_cons]
    omega
  · simp only [Option.map_eq_some_iff, Prod.mk.injEq] at read
    obtain ⟨⟨more, after⟩, found, _, rfl⟩ := read
    have shorter := length_readMoreArguments_lt found
    simp only [List.length_cons]
    omega
  · simp at read

theorem length_readMethod_le (lexemes : List Lexeme) :
    (readMethod lexemes).2.length ≤ lexemes.length := by
  unfold readMethod
  split
  · split
    · next found =>
      have shorter := length_readArguments_lt found
      simp only [List.length_cons]
      omega
    · simp only [List.length_cons]
      omega
  · simp

theorem length_readCall_lt {lexemes rest : List Lexeme} {call : WrittenCall}
    (read : readCall lexemes = some (call, rest)) : rest.length < lexemes.length := by
  unfold readCall at read
  split at read
  · simp only [Option.map_eq_some_iff, Prod.mk.injEq] at read
    obtain ⟨⟨arguments, after⟩, found, _, rfl⟩ := read
    have shorter := length_readArguments_lt found
    have shorter' := length_readMethod_le after
    simp only [List.length_cons]
    omega
  · simp at read

/-! ## Operators -/

/-- What waits to the left of the place that has been reached. -/
inductive Pending (α : Type) where
  /-- A negation without its operand. -/
  | negation
  | conjunction (left : Tree α)
  /-- A disjunction without its right operand. -/
  | disjunction (left : Tree α)
  | parenthesis
deriving DecidableEq, Repr

variable {α : Type}

def closeNegations : List (Pending α) → Tree α → List (Pending α) × Tree α
  | .negation :: stack, tree => closeNegations stack (.negation tree)
  | stack, tree => (stack, tree)

def closeConjunctions : List (Pending α) → Tree α → List (Pending α) × Tree α
  | .conjunction left :: stack, tree => closeConjunctions stack (.conjunction left tree)
  | stack, tree => (stack, tree)

def closeOperators : List (Pending α) → Tree α → List (Pending α) × Tree α
  | .conjunction left :: stack, tree => closeOperators stack (.conjunction left tree)
  | .disjunction left :: stack, tree => closeOperators stack (.disjunction left tree)
  | stack, tree => (stack, tree)

/-- Reads on with what is pending, an operand if one has just been completed, and the tokens that
are left. -/
def read (check : WrittenCall → Except Violation α) (stack : List (Pending α)) :
    Option (Tree α) → List Lexeme → Except Stop (Tree α)
  | none, [] => .error ⟨.operand, 0⟩
  | none, ⟨.bang, _⟩ :: rest => read check (.negation :: stack) none rest
  | none, ⟨.opening, _⟩ :: rest => read check (.parenthesis :: stack) none rest
  | none, ⟨token, left⟩ :: rest =>
    match _found : readCall (⟨token, left⟩ :: rest) with
    | none => .error ⟨.operand, left⟩
    | some (call, after) =>
      match check call with
      | .error violation => .error ⟨.call violation, left⟩
      | .ok call =>
        let (stack, tree) := closeNegations stack (.call call)
        read check stack (some tree) after
  | some tree, [] =>
    match closeOperators stack tree with
    | ([], tree) => .ok tree
    | _ => .error ⟨.unbalanced, 0⟩
  | some tree, ⟨.both, _⟩ :: rest => read check (.conjunction tree :: stack) none rest
  | some tree, ⟨.either, _⟩ :: rest =>
    let (stack, tree) := closeConjunctions stack tree
    read check (.disjunction tree :: stack) none rest
  | some tree, ⟨token, left⟩ :: rest =>
    match token, closeOperators stack tree with
    | .closing, (.parenthesis :: stack, tree) =>
      let (stack, tree) := closeNegations stack tree
      read check stack (some tree) rest
    | _, ([], _) => .error ⟨.trailing, left⟩
    | _, _ => .error ⟨.unbalanced, left⟩
termination_by _ lexemes => lexemes.length
decreasing_by
  all_goals first
    | (have shorter := length_readCall_lt _found; simp only [List.length_cons] at shorter ⊢; omega)
    | simp

end TagQuery.Selector
