import TagQuery.Filter
import TagQuery.Proofs.Selector.Openings
import TagQuery.Proofs.Texts

namespace TagQuery.Filter

open Selector (Call Tree ChainPhrase Openings joint)

/-! ## What a filter asks -/

/-- The tags pass the filter: behind a `~`, the rest is no tag; otherwise one of the items between
the commas is a tag. -/
inductive Matches (tags : List Tag) (filter : String) : Prop
  | absent (rest : String) (negated : Text.Trims filter.toList ('~' :: rest.toList))
      (none : ∀ tag ∈ tags, ¬Tag.Denotes rest tag.text)
  | present (core : List Char) (trims : Text.Trims filter.toList core)
      (plain : core.head? ≠ some '~') (item : String) (nonempty : item ≠ "")
      (isItem : Text.IsPiece (· == ',') core item.toList) (tag : Tag) (mem : tag ∈ tags)
      (denotes : Tag.Denotes item tag.text)

theorem not_matches_blank {tags : List Tag} {filter : String}
    (blank : Text.Trims filter.toList []) : ¬Matches tags filter := by
  rintro (⟨rest, negated, -⟩ | ⟨core, trims, -, item, nonempty, isItem, -⟩)
  · have same := negated.eq.symm.trans blank.eq
    cases same
  · obtain rfl := trims.eq.symm.trans blank.eq
    have empty : item.toList = [] :=
      List.eq_nil_iff_forall_not_mem.2 fun c mem => List.not_mem_nil (isItem.mem mem)
    exact nonempty (String.toList_eq_nil_iff.1 empty)

def Clause.call : Clause → Call
  | .absent tag => .noneOf [tag]
  | .present alternatives => .anyOf alternatives

theorem Clause.ofFilter_trim_cases (filter : String) :
    (∃ rest : String, Text.trimBlanks filter.toList = '~' :: rest.toList ∧
      ofFilter (Text.trim filter) = .absent rest) ∨
    (Text.trimBlanks filter.toList).head? ≠ some '~' ∧
      ofFilter (Text.trim filter) =
        .present (Text.commaItems (Text.trimBlanks filter.toList)) := by
  rw [ofFilter, Text.trim, String.toList_ofList]
  split
  · rename_i cs found
    exact .inl ⟨String.ofList cs, by rw [found, String.toList_ofList], rfl⟩
  · rename_i plain
    refine .inr ⟨?_, rfl⟩
    intro negated
    obtain ⟨cs, found⟩ := List.head?_eq_some_iff.1 negated
    exact plain cs found

theorem matches_iff {tags : List Tag} {filter : String} :
    Matches tags filter ↔ (Clause.ofFilter (Text.trim filter)).call.Holds tags := by
  rcases Clause.ofFilter_trim_cases filter with ⟨rest, negated, clause⟩ | ⟨plain, clause⟩
  · simp only [clause, Clause.call, Call.Holds, List.forall_mem_singleton]
    constructor
    · rintro (⟨rest', negated', none⟩ | ⟨core, trims, plain⟩)
      · rw [negated'.eq, List.cons.injEq, String.toList_inj] at negated
        exact negated.2 ▸ none
      · rw [← trims.eq, negated] at plain
        exact absurd rfl plain
    · exact fun none => .absent rest (Text.trims_iff.2 negated) none
  · simp only [clause, Clause.call, Call.Holds, Text.commaItems, Text.mem_nonemptyPieces_iff]
    constructor
    · rintro (⟨rest, negated, -⟩ | ⟨core, trims, -, item, nonempty, isItem, tag, mem, denotes⟩)
      · rw [negated.eq] at plain
        exact absurd rfl plain
      · rw [trims.eq]
        exact ⟨item, ⟨nonempty, isItem⟩, tag, mem, denotes⟩
    · rintro ⟨item, ⟨nonempty, isItem⟩, tag, mem, denotes⟩
      exact .present _ (Text.trims_trimBlanks _) plain item nonempty isItem tag mem denotes

instance (tags : List Tag) : (clause : Clause) → Decidable (clause.call.Holds tags)
  | .absent rest =>
      inferInstanceAs (Decidable (∀ query ∈ [rest], ∀ tag ∈ tags, ¬Tag.Denotes query tag.text))
  | .present alternatives =>
      inferInstanceAs (Decidable (∃ query ∈ alternatives, ∃ tag ∈ tags, Tag.Denotes query tag.text))

instance (tags : List Tag) (filter : String) : Decidable (Matches tags filter) :=
  decidable_of_iff ((Clause.ofFilter (Text.trim filter)).call.Holds tags) matches_iff.symm

theorem Clause.evaluate_call (set : TagSet) (clause : Clause) :
    ∃ holds, clause.call.evaluate set = .ok (.verdict holds) ∧
      (holds = true ↔ clause.call.Holds set.tags) := by
  cases clause with
  | absent tag => exact ⟨_, rfl, TagSet.noneOf_iff⟩
  | present alternatives => exact ⟨_, rfl, TagSet.anyOf_iff⟩

/-! ## The text of clauses -/

def Clause.tags : Clause → List String
  | .absent tag => [tag]
  | .present alternatives => alternatives

def moreLiterals : List String → List Char
  | [] => [')']
  | tag :: tags => ',' :: '\'' :: (tag.toList ++ '\'' :: moreLiterals tags)

def literals : List String → List Char
  | [] => [')']
  | tag :: tags => '\'' :: (tag.toList ++ '\'' :: moreLiterals tags)

@[simp] theorem toList_tagLiteral (tag : String) :
    (tagLiteral tag).toList = '\'' :: (tag.toList ++ ['\'']) := by
  simp [tagLiteral]

theorem toList_joined {separator first : String} {others : List String} :
    (Text.joined separator (first :: others)).toList =
      first.toList ++ others.flatMap fun s => separator.toList ++ s.toList := by
  induction others generalizing first with
  | nil => simp [Text.joined]
  | cons next others ih =>
      rw [Text.joined, String.toList_append, String.toList_append, ih]
      · simp
      · simp

theorem moreLiterals_eq (tags : List String) :
    moreLiterals tags = (tags.map tagLiteral).flatMap (fun s => ",".toList ++ s.toList) ++ [')'] := by
  induction tags with
  | nil => rfl
  | cons tag tags ih => simp [moreLiterals, ih]

theorem Clause.toList_text (clause : Clause) :
    clause.text.toList = clause.call.written.function.toList ++ '(' :: literals clause.tags := by
  cases clause with
  | absent tag => simp [text, call, Call.written, tags, literals, moreLiterals]
  | present alternatives =>
      cases alternatives with
      | nil => rfl
      | cons tag others =>
          simp [text, toList_joined, call, Call.written, tags, literals, moreLiterals_eq]

def conjoined : List Clause → List Char :=
  List.flatMap fun clause => joint ++ clause.text.toList

def clausesOf (filters : List String) : List Clause := filters.map Clause.ofFilter

theorem toList_selectorText (filter : String) (filters : List String) :
    (selectorText (filter :: filters)).toList =
      (Clause.ofFilter filter).text.toList ++ conjoined (clausesOf filters) := by
  rw [selectorText, List.map_cons, toList_joined, List.flatMap_map, conjoined, clausesOf,
    List.flatMap_map]
  rfl

/-! ## Lists of filters -/

def given (filter : Option String) : String := filter.getD ""

def toValue : Option String → Value
  | none => .null
  | some filter => .text filter

theorem findSelector_given {filters : List (Option String)}
    (closed : ∀ filter ∈ filters, '(' ∉ (given filter).toList) :
    findSelector (filters.map toValue) = .ok none := by
  induction filters with
  | nil => rfl
  | cons filter filters ih =>
      have others := ih fun other mem => closed other (List.mem_cons_of_mem _ mem)
      have first := closed filter List.mem_cons_self
      cases filter with
      | none => exact others
      | some filter =>
          have absent : '(' ∉ filter.toList := first
          simp [toValue, findSelector, holdsParenthesis, bind, Except.bind, absent, others]

@[simp] theorem trimmedAll_given (filters : List (Option String)) :
    trimmedAll (filters.map toValue) = .ok (filters.map fun filter => Text.trim (given filter)) := by
  induction filters with
  | nil => rfl
  | cons filter filters ih =>
      cases filter with
      | none =>
          have blank : trimmed .null = .ok (Text.trim "") := rfl
          simp [toValue, trimmedAll, blank, ih, bind, Except.bind, given]
      | some filter => simp [toValue, trimmedAll, trimmed, ih, bind, Except.bind, given]

theorem toSelector_given {filters : List (Option String)} (nonempty : filters ≠ [])
    (closed : ∀ filter ∈ filters, '(' ∉ (given filter).toList) :
    toSelector (.list (filters.map toValue)) =
      .ok (some (.text (selectorText (filters.map fun filter => Text.trim (given filter))))) := by
  have present : (Value.list (filters.map toValue)).isTruthy = true := by
    simpa [Value.isTruthy] using nonempty
  simp [toSelector, listOf, present, Value.members, convert, findSelector_given closed,
    bind, Except.bind, Except.map, Conversion.selector]

end TagQuery.Filter
