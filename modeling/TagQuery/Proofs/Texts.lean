import Mathlib.Data.List.Basic
import Mathlib.Data.List.TakeWhile
import TagQuery.Text.Pieces

namespace TagQuery.Text

/-! ## Trimming -/

/-- The core is the text without the blanks before and behind it, and has no blank at its ends. -/
structure Trims (cs core : List Char) : Prop where
  within : ∃ front back, cs = front ++ (core ++ back) ∧ (∀ c ∈ front, isBlank c = true) ∧
    ∀ c ∈ back, isBlank c = true
  first : ∀ c ∈ core.head?, isBlank c = false
  last : ∀ c ∈ core.getLast?, isBlank c = false

section
variable {test : Char → Bool} {cs : List Char}

theorem dropWhile_eq_self (first : ∀ c ∈ cs.head?, test c = false) : cs.dropWhile test = cs := by
  cases cs with
  | nil => rfl
  | cons c cs => exact List.dropWhile_cons_of_neg (by simp [first c rfl])

theorem not_of_mem_head?_dropWhile : ∀ c ∈ (cs.dropWhile test).head?, test c = false := by
  intro c mem
  have fails := List.head?_dropWhile_not test cs
  rw [Option.mem_def.1 mem] at fails
  exact fails

theorem dropEndWhile_append {back : List Char} (behind : ∀ c ∈ back, test c = true)
    (last : ∀ c ∈ cs.getLast?, test c = false) : dropEndWhile test (cs ++ back) = cs := by
  rw [dropEndWhile, List.reverse_append,
    List.dropWhile_append_of_pos fun c mem => behind c (List.mem_reverse.1 mem),
    dropWhile_eq_self (by simpa using last), List.reverse_reverse]

theorem eq_dropEndWhile_append (test : Char → Bool) (cs : List Char) :
    ∃ back, cs = dropEndWhile test cs ++ back ∧ ∀ c ∈ back, test c = true := by
  refine ⟨(cs.reverse.takeWhile test).reverse, ?_, ?_⟩
  · rw [dropEndWhile, ← List.reverse_append, List.takeWhile_append_dropWhile, List.reverse_reverse]
  · intro c mem
    exact List.mem_takeWhile_imp (List.mem_reverse.1 mem)

end

theorem Trims.eq {cs core : List Char} (trims : Trims cs core) : trimBlanks cs = core := by
  obtain ⟨⟨front, back, rfl, before, behind⟩, first, last⟩ := trims
  rw [trimBlanks, List.dropWhile_append_of_pos before]
  cases core with
  | nil =>
      rw [List.nil_append, List.dropWhile_eq_nil_iff.2 behind]
      rfl
  | cons c core =>
      rw [dropWhile_eq_self (by simpa using first)]
      exact dropEndWhile_append behind last

theorem trims_trimBlanks (cs : List Char) : Trims cs (trimBlanks cs) := by
  obtain ⟨back, split, behind⟩ := eq_dropEndWhile_append isBlank (cs.dropWhile isBlank)
  refine ⟨⟨cs.takeWhile isBlank, back, ?_, fun c => List.mem_takeWhile_imp, behind⟩, ?_, ?_⟩
  · calc cs = cs.takeWhile isBlank ++ cs.dropWhile isBlank := List.takeWhile_append_dropWhile.symm
      _ = cs.takeWhile isBlank ++ (trimBlanks cs ++ back) := by rw [trimBlanks, ← split]
  · intro c mem
    have first : c ∈ (cs.dropWhile isBlank).head? := by
      rw [split]
      exact List.mem_head?_append_of_mem_head? mem
    exact not_of_mem_head?_dropWhile c first
  · intro c mem
    rw [trimBlanks, dropEndWhile, List.getLast?_reverse] at mem
    exact not_of_mem_head?_dropWhile c mem

theorem trims_iff {cs core : List Char} : Trims cs core ↔ trimBlanks cs = core := by
  constructor
  · exact Trims.eq
  · rintro rfl
    exact trims_trimBlanks cs

theorem mem_of_mem_trimBlanks {cs : List Char} {c : Char} (mem : c ∈ trimBlanks cs) : c ∈ cs := by
  obtain ⟨front, back, split, -⟩ := (trims_trimBlanks cs).within
  rw [split]
  exact List.mem_append_right _ (List.mem_append_left _ mem)

theorem mem_trimBlanks {cs : List Char} {c : Char} (mem : c ∈ cs) (solid : isBlank c = false) :
    c ∈ trimBlanks cs := by
  obtain ⟨front, back, split, before, behind⟩ := (trims_trimBlanks cs).within
  rw [split, List.mem_append, List.mem_append] at mem
  rcases mem with mem | mem | mem
  · rw [before c mem] at solid
    cases solid
  · exact mem
  · rw [behind c mem] at solid
    cases solid

/-! ## Cuts -/

theorem cut_or_later {c : Char} {front after before rest : List Char} (first : c ∉ front)
    (same : front ++ c :: after = before ++ c :: rest) :
    before = front ∧ rest = after ∨
      ∃ more, before = front ++ c :: more ∧ after = more ++ c :: rest := by
  rcases List.append_eq_append_iff.1 same with ⟨more, rfl, split⟩ | ⟨more, rfl, split⟩
  · cases more with
    | nil =>
        cases split
        exact .inl ⟨List.append_nil _, rfl⟩
    | cons d more =>
        cases split
        exact .inr ⟨more, rfl, rfl⟩
  · cases more with
    | nil =>
        cases split
        exact .inl ⟨(List.append_nil _).symm, rfl⟩
    | cons d more =>
        cases split
        exact absurd (by simp) first

/-! ## Pieces -/

structure IsPiece (isSeparator : Char → Bool) (cs piece : List Char) : Prop where
  within : ∃ before after, cs = before ++ (piece ++ after) ∧
    (∀ c ∈ before.getLast?, isSeparator c = true) ∧ ∀ c ∈ after.head?, isSeparator c = true
  whole : ∀ c ∈ piece, isSeparator c = false

section
variable {isSeparator : Char → Bool} {cs before after : List Char} {c : Char}

theorem IsPiece.mem {piece : List Char} (isPiece : IsPiece isSeparator cs piece) (mem : c ∈ piece) :
    c ∈ cs := by
  obtain ⟨before, after, rfl, -⟩ := isPiece.within
  exact List.mem_append_right _ (List.mem_append_left _ mem)

theorem pieces_of_whole (whole : ∀ c ∈ cs, isSeparator c = false) :
    pieces isSeparator cs = [cs] := by
  induction cs with
  | nil => rfl
  | cons c cs ih =>
      have others := ih fun x mem => whole x (List.mem_cons_of_mem c mem)
      simp [pieces, whole c List.mem_cons_self, others]

theorem pieces_append_cons (separates : isSeparator c = true) :
    pieces isSeparator (before ++ c :: after) =
      pieces isSeparator before ++ pieces isSeparator after := by
  induction before with
  | nil => simp [pieces, separates]
  | cons b before ih =>
      rw [List.cons_append, pieces, pieces, ih]
      split
      · rfl
      · cases found : pieces isSeparator before with
        | nil => exact absurd found (pieces_ne_nil isSeparator before)
        | cons first others => rfl

theorem mem_pieces_of_isPiece {piece : List Char} (isPiece : IsPiece isSeparator cs piece) :
    piece ∈ pieces isSeparator cs := by
  obtain ⟨⟨before, after, rfl, last, first⟩, whole⟩ := isPiece
  have upToEnd : piece ∈ pieces isSeparator (piece ++ after) := by
    cases after with
    | nil => simp [pieces_of_whole whole]
    | cons c after => simp [pieces_append_cons (first c rfl), pieces_of_whole whole]
  rcases List.eq_nil_or_concat before with rfl | ⟨before, c, rfl⟩
  · exact upToEnd
  · rw [List.concat_eq_append, List.append_assoc, List.singleton_append,
      pieces_append_cons (last c (by simp))]
    exact List.mem_append_right _ upToEnd

theorem IsPiece.behind {piece : List Char} (separates : isSeparator c = true)
    (isPiece : IsPiece isSeparator after piece) :
    IsPiece isSeparator (before ++ c :: after) piece := by
  obtain ⟨⟨front, back, rfl, last, first⟩, whole⟩ := isPiece
  refine ⟨⟨before ++ c :: front, back, by simp, ?_, first⟩, whole⟩
  intro x mem
  rw [List.getLast?_append_of_ne_nil _ (by simp)] at mem
  cases front with
  | nil =>
      cases mem
      exact separates
  | cons y front =>
      rw [List.getLast?_cons_cons] at mem
      exact last x mem

theorem isPiece_of_mem_pieces {piece : List Char} (mem : piece ∈ pieces isSeparator cs) :
    IsPiece isSeparator cs piece := by
  -- The text is cut at its first separator: the first piece ends there, the others lie behind it.
  induction length : cs.length using Nat.strong_induction_on generalizing cs with
  | _ n ih =>
      cases found : cs.find? isSeparator with
      | none =>
          have whole : ∀ c ∈ cs, isSeparator c = false := by simpa using found
          rw [pieces_of_whole whole, List.mem_singleton] at mem
          subst mem
          exact ⟨⟨[], [], by simp, by simp, by simp⟩, whole⟩
      | some c =>
          obtain ⟨separates, before, after, rfl, whole⟩ := List.find?_eq_some_iff_append.1 found
          have whole : ∀ c ∈ before, isSeparator c = false := by simpa using whole
          rw [pieces_append_cons separates, pieces_of_whole whole, List.singleton_append,
            List.mem_cons] at mem
          rcases mem with rfl | mem
          · exact ⟨⟨[], c :: after, rfl, by simp, by simpa using separates⟩, whole⟩
          · have shorter : after.length < n := by
              rw [← length, List.length_append, List.length_cons]
              omega
            exact (ih _ shorter mem rfl).behind separates

theorem exists_piece_of_mem (mem : c ∈ cs) (whole : isSeparator c = false) :
    ∃ piece ∈ pieces isSeparator cs, c ∈ piece := by
  induction cs with
  | nil => exact absurd mem List.not_mem_nil
  | cons d cs ih =>
      rw [pieces]
      split
      · rename_i separates
        rcases List.mem_cons.1 mem with rfl | mem
        · rw [whole] at separates
          cases separates
        · obtain ⟨piece, found, inside⟩ := ih mem
          exact ⟨piece, List.mem_cons_of_mem _ found, inside⟩
      · cases split : pieces isSeparator cs with
        | nil => exact absurd split (pieces_ne_nil isSeparator cs)
        | cons first others =>
            rw [split] at ih
            rcases List.mem_cons.1 mem with rfl | mem
            · exact ⟨_, List.mem_cons_self, List.mem_cons_self⟩
            · obtain ⟨piece, found, inside⟩ := ih mem
              rcases List.mem_cons.1 found with rfl | found
              · exact ⟨_, List.mem_cons_self, List.mem_cons_of_mem _ inside⟩
              · exact ⟨piece, List.mem_cons_of_mem _ found, inside⟩

theorem exists_nonemptyPiece_of_mem (mem : c ∈ cs) (whole : isSeparator c = false) :
    ∃ item ∈ nonemptyPieces isSeparator cs, c ∈ item.toList := by
  obtain ⟨piece, found, inside⟩ := exists_piece_of_mem mem whole
  have nonempty : (!piece.isEmpty) = true := by simpa using List.ne_nil_of_mem inside
  refine ⟨String.ofList piece, List.mem_map_of_mem (List.mem_filter.2 ⟨found, nonempty⟩), ?_⟩
  rwa [String.toList_ofList]

theorem mem_nonemptyPieces_iff {item : String} :
    item ∈ nonemptyPieces isSeparator cs ↔ item ≠ "" ∧ IsPiece isSeparator cs item.toList := by
  have mem_iff : item.toList ∈ pieces isSeparator cs ↔ IsPiece isSeparator cs item.toList :=
    ⟨isPiece_of_mem_pieces, mem_pieces_of_isPiece⟩
  rw [nonemptyPieces, List.mem_map, ← mem_iff]
  constructor
  · rintro ⟨piece, mem, rfl⟩
    obtain ⟨mem, nonempty⟩ := List.mem_filter.1 mem
    refine ⟨?_, by rwa [String.toList_ofList]⟩
    rw [Ne, ← String.toList_inj, String.toList_ofList]
    simpa using nonempty
  · rintro ⟨nonempty, mem⟩
    refine ⟨item.toList, List.mem_filter.2 ⟨mem, ?_⟩, String.ofList_toList⟩
    simpa using nonempty

end

end TagQuery.Text
