import Mathlib.Data.List.Basic
import Mathlib.Data.List.TakeWhile
import TagQuery.Proofs.Selector.Lexing

namespace TagQuery.Selector

section
variable {decode : List Char → List Char} {token : Token}

/-! ## What a phrase leaves -/

theorem Token.Starts.suffix {text rest : List Char} (starts : token.Starts decode text rest) :
    rest <:+ text := by
  obtain ⟨gap, spelling, -, -, rfl⟩ := starts
  exact ⟨gap ++ spelling, List.append_assoc _ _ _⟩

def EndOf (whole text text' : List Char) : Prop := text' = text ∧ text <:+ whole

theorem carried_endOf (whole : List Char) (token : Token) :
    token.Carried decode decode (EndOf whole) := by
  rintro text rest _ ⟨rfl, within⟩ starts
  exact ⟨rest, ⟨rfl, starts.suffix.trans within⟩, starts⟩

theorem MoreArguments.suffix {text rest : List Char} {contents : List String}
    (phrase : MoreArguments decode text contents rest) : rest <:+ text := by
  obtain ⟨_, ⟨-, within⟩, -⟩ := phrase.carry (fun token _ => carried_endOf text token)
    (fun _ _ => carried_endOf text _) ⟨rfl, List.suffix_rfl⟩
  exact within

theorem Arguments.suffix {text rest : List Char} {contents : List String}
    (phrase : Arguments decode text contents rest) : rest <:+ text := by
  obtain ⟨_, ⟨-, within⟩, -⟩ := phrase.carry (fun token _ => carried_endOf text token)
    (fun _ _ => carried_endOf text _) ⟨rfl, List.suffix_rfl⟩
  exact within

theorem MethodPart.suffix {text rest : List Char} {method : Option WrittenMethod}
    (phrase : MethodPart decode text method rest) : rest <:+ text := by
  cases phrase with
  | absent => exact List.suffix_rfl
  | bare dot word => exact word.suffix.trans dot.suffix
  | called dot word arguments => exact arguments.suffix.trans (word.suffix.trans dot.suffix)

theorem Derives.suffix {α : Type} {IsCall : List Char → α → List Char → Prop} {level : Level}
    {text rest : List Char} {tree : Tree α}
    (calls : ∀ {text c rest}, IsCall text c rest → rest <:+ text)
    (derivation : Derives decode IsCall level text tree rest) : rest <:+ text := by
  have kept : ∀ c ∈ tree.calls, ∀ {t rest t' : List Char}, EndOf text t t' → IsCall t c rest →
      ∃ rest', EndOf text rest rest' ∧ IsCall t' c rest' := by
    rintro c - t rest _ ⟨rfl, within⟩ call
    exact ⟨rest, ⟨rfl, (calls call).trans within⟩, call⟩
  obtain ⟨_, ⟨-, within⟩, -⟩ := derivation.carry (fun token _ => carried_endOf text token) kept
    ⟨rfl, List.suffix_rfl⟩
  exact within

/-! ## The first character -/

theorem Token.Spells.solid {spelling : List Char} (spells : token.Spells decode spelling) :
    ∃ c cs, spelling = c :: cs ∧ Text.isSpace c = false := by
  cases spells with
  | word first => exact ⟨_, _, rfl, isSpace_of_isWordStart first⟩
  | literal quotes =>
      refine ⟨_, _, rfl, ?_⟩
      rcases eq_of_isQuote quotes with rfl | rfl <;> rfl
  | _ => exact ⟨_, _, rfl, rfl⟩

theorem Token.Starts.spelled {gap cs rest : List Char} {c : Char}
    (starts : token.Starts decode (gap ++ c :: cs) rest)
    (spaces : ∀ x ∈ gap, Text.isSpace x = true) (solid : Text.isSpace c = false) :
    ∃ others, token.Spells decode (c :: others) ∧ cs = others ++ rest := by
  obtain ⟨gap', spelling, spaces', spells, split⟩ := starts
  obtain ⟨c', others, rfl, solid'⟩ := spells.solid
  have same := congrArg (List.dropWhile Text.isSpace) split
  rw [List.dropWhile_append_of_pos spaces, List.dropWhile_cons_of_neg (by simp [solid]),
    List.dropWhile_append_of_pos spaces', List.cons_append,
    List.dropWhile_cons_of_neg (by simp [solid']), List.cons.injEq] at same
  obtain ⟨rfl, rfl⟩ := same
  exact ⟨others, spells, rfl⟩

theorem Token.Starts.spelled_cons {cs rest : List Char} {c : Char}
    (starts : token.Starts decode (c :: cs) rest) (solid : Text.isSpace c = false) :
    ∃ others, token.Spells decode (c :: others) ∧ cs = others ++ rest := by
  have behindNothing : token.Starts decode ([] ++ c :: cs) rest := starts
  exact behindNothing.spelled (by simp) solid

theorem Token.Starts.single {gap cs rest : List Char} {c : Char}
    (starts : token.Starts decode (gap ++ c :: cs) rest) (mark : Char)
    (one : single? mark = some token) (spaces : ∀ x ∈ gap, Text.isSpace x = true)
    (solid : Text.isSpace c = false) : c = mark ∧ rest = cs := by
  obtain ⟨others, spells, split⟩ := starts.spelled spaces solid
  have whole : c :: others = [mark] := by
    unfold single? at one
    split at one
    all_goals cases one
    all_goals
      cases spells
      rfl
  cases whole
  exact ⟨rfl, split.symm⟩

theorem Token.Starts.single_cons {cs rest : List Char} {c : Char}
    (starts : token.Starts decode (c :: cs) rest) (mark : Char) (one : single? mark = some token)
    (solid : Text.isSpace c = false) : c = mark ∧ rest = cs := by
  have behindNothing : token.Starts decode ([] ++ c :: cs) rest := starts
  exact behindNothing.single mark one (by simp) solid

theorem spaces_or_solid (cs : List Char) :
    (∀ c ∈ cs, Text.isSpace c = true) ∨ ∃ gap c rest, cs = gap ++ c :: rest ∧
      (∀ x ∈ gap, Text.isSpace x = true) ∧ Text.isSpace c = false := by
  cases found : cs.dropWhile Text.isSpace with
  | nil => exact .inl (List.dropWhile_eq_nil_iff.1 found)
  | cons c rest =>
      have fails := List.head?_dropWhile_not Text.isSpace cs
      rw [found] at fails
      refine .inr ⟨cs.takeWhile Text.isSpace, c, rest, ?_, fun x => List.mem_takeWhile_imp, fails⟩
      rw [← found, List.takeWhile_append_dropWhile]

end

end TagQuery.Selector
