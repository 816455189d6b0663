import Mathlib.Data.List.TakeWhile
import TagQuery.Proofs.Selector.Grammar

namespace TagQuery.Selector

def Token.EndsBefore (token : Token) (rest : List Char) : Prop :=
  ∀ name, token = .word name → ∀ c ∈ rest.head?, isWordPart c = false

/-! ## Characters -/

theorem ne_of_isWordStart {c d : Char} (first : isWordStart c = true)
    (other : isWordStart d = false) : c ≠ d := by
  rintro rfl
  rw [first] at other
  cases other

theorem single?_of_isWordStart {c : Char} (first : isWordStart c = true) : single? c = none := by
  unfold single?
  split
  all_goals first | rfl | exact absurd rfl (ne_of_isWordStart first (by decide))

theorem doubled?_of_isWordStart {c : Char} (first : isWordStart c = true) :
    doubled? c = none := by
  unfold doubled?
  split
  all_goals first | rfl | exact absurd rfl (ne_of_isWordStart first (by decide))

theorem isQuote_of_isWordStart {c : Char} (first : isWordStart c = true) : isQuote c = false := by
  have h₁ := ne_of_isWordStart first (d := '\'') (by decide)
  have h₂ := ne_of_isWordStart first (d := '"') (by decide)
  simp [isQuote, h₁, h₂]

theorem isSpace_of_isWordStart {c : Char} (first : isWordStart c = true) :
    Text.isSpace c = false := by
  have h₁ := ne_of_isWordStart first (d := ' ') (by decide)
  have h₂ := ne_of_isWordStart first (d := '\t') (by decide)
  have h₃ := ne_of_isWordStart first (d := '\n') (by decide)
  have h₄ := ne_of_isWordStart first (d := '\r') (by decide)
  simp [Text.isSpace, h₁, h₂, h₃, h₄]

theorem eq_of_isQuote {c : Char} (quotes : isQuote c = true) : c = '\'' ∨ c = '"' := by
  simpa [isQuote] using quotes

/-! ## One token -/

theorem scanLiteral_append {quote : Char} {content rest : List Char}
    (inside : ∀ x ∈ content, isContent quote x = true) :
    scanLiteral quote (content ++ quote :: rest) =
      (.literal (String.ofList (unescape content)), rest) := by
  have outside : ¬ isContent quote quote = true := by simp [isContent]
  unfold scanLiteral
  rw [List.dropWhile_append_of_pos inside, List.takeWhile_append_of_pos inside,
    List.dropWhile_cons_of_neg outside, List.takeWhile_cons_of_neg outside]
  simp

theorem scan_word {c : Char} {cs rest : List Char} (first : isWordStart c = true)
    (others : ∀ x ∈ cs, isWordPart x = true) (ends : ∀ x ∈ rest.head?, isWordPart x = false) :
    scan c (cs ++ rest) = (.word (String.ofList (c :: cs)), rest) := by
  have taken : rest.takeWhile isWordPart = [] ∧ rest.dropWhile isWordPart = rest := by
    cases rest with
    | nil => exact ⟨rfl, rfl⟩
    | cons x xs => simp [ends x (by simp)]
  unfold scan
  rw [single?_of_isWordStart first, doubled?_of_isWordStart first]
  simp only [isQuote_of_isWordStart first, first, List.takeWhile_append_of_pos others,
    List.dropWhile_append_of_pos others, taken]
  simp

theorem Token.Spells.scan {token : Token} {spelling rest : List Char}
    (spells : token.Spells unescape spelling) (ends : token.EndsBefore rest) :
    ∃ c cs, spelling = c :: cs ∧ Text.isSpace c = false ∧
      Selector.scan c (cs ++ rest) = (token, rest) := by
  cases spells with
  | word first others =>
      exact ⟨_, _, rfl, isSpace_of_isWordStart first,
        scan_word first others (ends _ rfl)⟩
  | literal quotes inside =>
      refine ⟨_, _, rfl, ?_, ?_⟩
      · rcases eq_of_isQuote quotes with rfl | rfl <;> rfl
      · rw [List.append_assoc]
        rcases eq_of_isQuote quotes with rfl | rfl <;> exact scanLiteral_append inside
  | _ => exact ⟨_, _, rfl, rfl, rfl⟩

theorem spells_of_single? {c : Char} {token : Token} (found : single? c = some token) :
    token.Spells unescape [c] := by
  unfold single? at found
  split at found
  all_goals cases found
  · exact .bang
  · exact .opening
  · exact .closing
  · exact .comma
  · exact .dot

theorem spells_of_doubled? {c : Char} {token : Token} (found : doubled? c = some token) :
    token.Spells unescape [c, c] := by
  unfold doubled? at found
  split at found
  all_goals cases found
  · exact .both
  · exact .either

theorem scanDoubled_ok {c : Char} {cs rest : List Char} {doubled token : Token}
    (scanned : scanDoubled c doubled cs = (token, rest)) (readable : token ≠ .stray) :
    token = doubled ∧ cs = c :: rest := by
  unfold scanDoubled at scanned
  split at scanned
  · split at scanned
    · rename_i same
      cases scanned
      exact ⟨rfl, by rw [same]⟩
    · cases scanned
      exact absurd rfl readable
  · cases scanned
    exact absurd rfl readable

theorem scanLiteral_ok {quote : Char} {cs rest : List Char} {token : Token}
    (scanned : scanLiteral quote cs = (token, rest)) (readable : token ≠ .stray) :
    ∃ content, token = .literal (String.ofList (unescape content)) ∧
      (∀ x ∈ content, isContent quote x = true) ∧ cs = content ++ quote :: rest := by
  unfold scanLiteral at scanned
  split at scanned
  · cases scanned
    exact absurd rfl readable
  · rename_i c others dropped
    split at scanned
    · rename_i same
      cases scanned
      refine ⟨_, rfl, fun x => List.mem_takeWhile_imp, ?_⟩
      calc cs = cs.takeWhile (isContent quote) ++ cs.dropWhile (isContent quote) :=
            List.takeWhile_append_dropWhile.symm
        _ = cs.takeWhile (isContent quote) ++ quote :: rest := by rw [dropped, same]
    · cases scanned
      exact absurd rfl readable

theorem spells_of_scan {c : Char} {cs rest : List Char} {token : Token}
    (scanned : scan c cs = (token, rest)) (readable : token ≠ .stray) :
    ∃ spelling, token.Spells unescape spelling ∧ c :: cs = spelling ++ rest := by
  unfold scan at scanned
  split at scanned
  · rename_i found
    cases scanned
    exact ⟨[c], spells_of_single? found, rfl⟩
  · rename_i found
    obtain ⟨rfl, rfl⟩ := scanDoubled_ok scanned readable
    exact ⟨[c, c], spells_of_doubled? found, rfl⟩
  · split at scanned
    · rename_i quotes
      obtain ⟨content, rfl, inside, rfl⟩ := scanLiteral_ok scanned readable
      exact ⟨_, .literal quotes inside, by simp⟩
    · split at scanned
      · rename_i first
        cases scanned
        exact ⟨_, .word first fun x => List.mem_takeWhile_imp,
          by simp [List.takeWhile_append_dropWhile]⟩
      · cases scanned
        exact absurd rfl readable

/-! ## The first lexeme -/

theorem lexemes_cons {text rest : List Char} {c : Char} (found : Text.skipSpace text = c :: rest) :
    lexemes text = ⟨(scan c rest).1, rest.length + 1⟩ :: lexemes (scan c rest).2 := by
  rw [lexemes]
  split
  · rename_i none
    rw [found] at none
    cases none
  · rename_i found'
    rw [found] at found'
    cases found'
    rfl

theorem lexemes_eq_nil_iff {text : List Char} :
    lexemes text = [] ↔ ∀ c ∈ text, Text.isSpace c = true := by
  rw [← List.dropWhile_eq_nil_iff, ← Text.skipSpace]
  constructor
  · intro none
    cases found : Text.skipSpace text with
    | nil => rfl
    | cons c rest =>
        rw [lexemes_cons found] at none
        cases none
  · intro spaces
    rw [lexemes]
    split
    · rfl
    · rename_i found
      rw [spaces] at found
      cases found

theorem lexemes_of_starts {token : Token} {text rest : List Char}
    (starts : token.Starts unescape text rest) (ends : token.EndsBefore rest) :
    ∃ left, lexemes text = ⟨token, left⟩ :: lexemes rest := by
  obtain ⟨gap, spelling, spaces, spells, rfl⟩ := starts
  obtain ⟨c, cs, rfl, solid, scanned⟩ := spells.scan ends
  have found : Text.skipSpace (gap ++ (c :: cs ++ rest)) = c :: (cs ++ rest) := by
    rw [Text.skipSpace, List.dropWhile_append_of_pos spaces, List.cons_append,
      List.dropWhile_cons_of_neg (by simp [solid])]
  exact ⟨_, by rw [lexemes_cons found, scanned]⟩

theorem lexemes_of_mark {token : Token} {text rest : List Char}
    (starts : token.Starts unescape text rest) (mark : ∀ name, token ≠ .word name) :
    ∃ left, lexemes text = ⟨token, left⟩ :: lexemes rest := by
  apply lexemes_of_starts starts
  intro name same
  exact absurd same (mark name)

theorem starts_of_lexemes {token : Token} {left : Nat} {text : List Char} {others : List Lexeme}
    (found : lexemes text = ⟨token, left⟩ :: others) (readable : token ≠ .stray) :
    ∃ rest, token.Starts unescape text rest ∧ others = lexemes rest := by
  cases skipped : Text.skipSpace text with
  | nil =>
      rw [Text.skipSpace, List.dropWhile_eq_nil_iff, ← lexemes_eq_nil_iff] at skipped
      rw [skipped] at found
      cases found
  | cons c cs =>
      rw [lexemes_cons skipped, List.cons.injEq, Lexeme.mk.injEq] at found
      obtain ⟨⟨rfl, -⟩, rfl⟩ := found
      have scanned : scan c cs = ((scan c cs).1, (scan c cs).2) := rfl
      obtain ⟨spelling, spells, written⟩ := spells_of_scan scanned readable
      refine ⟨_, ⟨text.takeWhile Text.isSpace, spelling, fun x => List.mem_takeWhile_imp, spells,
        ?_⟩, rfl⟩
      calc text = text.takeWhile Text.isSpace ++ Text.skipSpace text :=
            List.takeWhile_append_dropWhile.symm
        _ = _ := by rw [skipped, written]

end TagQuery.Selector
