import TagQuery.Proofs.Filter.Structure

namespace TagQuery.Filter

open Selector (Call Tree ChainPhrase Writes Renders Plain joint)

/-! ## A selector with the calls of the clauses -/

theorem selected_of_parse {filters : List (Option String)} {clause : Clause}
    {clauses : List Clause} {source : String} (clausesEq : clausesGiven filters = clause :: clauses)
    (parsed : Selector.parse source = .ok (.chain clause.call (clauses.map Clause.call)))
    (set : TagSet) :
    ∃ selected, set.isSelectedBy (.text source) = .ok selected ∧
      (selected = true ↔ ∀ filter ∈ filters, Matches set.tags (given filter)) := by
  have asked : ∀ call ∈ clause.call :: clauses.map Clause.call,
      ∃ holds, call.evaluate set = .ok (.verdict holds) ∧
        (holds = true ↔ call.Holds set.tags) := by
    rw [← List.map_cons]
    exact List.forall_mem_map.2 fun asked _ => asked.evaluate_call set
  obtain ⟨holds, evaluated, same⟩ := Tree.evaluate_chain asked
  refine ⟨holds, ?_, ?_⟩
  · rw [Selector.isSelectedBy_of_answer, Selector.answer_of_parse parsed, evaluated]
    rfl
  · simp only [same, matches_iff]
    rw [← List.map_cons, List.forall_mem_map, ← clausesEq, forall_clausesGiven]

/-! ## Reading a text without quotes in its tags -/

structure Quotable (tag : String) : Prop where
  plain : Plain tag
  unquoted : '\'' ∉ tag.toList

theorem Quotable.literalText {tag : String} (quotable : Quotable tag) :
    Selector.literalText tag = '\'' :: (tag.toList ++ ['\'']) := by
  rw [Selector.literalText, Selector.quoteOf, if_neg quotable.unquoted]

theorem moreLiterals_of_quotable {tags : List String} (quotable : ∀ tag ∈ tags, Quotable tag) :
    moreLiterals tags = Selector.moreArgumentsText tags := by
  induction tags with
  | nil => rfl
  | cons tag tags ih =>
      have others := ih fun other mem => quotable other (List.mem_cons_of_mem _ mem)
      have first := (quotable tag List.mem_cons_self).literalText
      simp [moreLiterals, Selector.moreArgumentsText, first, others]

theorem literals_of_quotable {tags : List String} (quotable : ∀ tag ∈ tags, Quotable tag) :
    '(' :: literals tags = Selector.argumentsText tags := by
  cases tags with
  | nil => rfl
  | cons tag tags =>
      have others := moreLiterals_of_quotable fun other mem =>
        quotable other (List.mem_cons_of_mem _ mem)
      have first := (quotable tag List.mem_cons_self).literalText
      simp [literals, Selector.argumentsText, first, others]

@[simp] theorem Clause.contents_call (clause : Clause) : clause.call.written.contents = clause.tags := by
  cases clause <;> simp [call, Call.written, Selector.WrittenCall.contents, tags]

theorem Clause.writes_text {clause : Clause} (quotable : ∀ tag ∈ clause.tags, Quotable tag)
    (rest : List Char) : Writes id (clause.text.toList ++ rest) clause.call rest := by
  have plain : ∀ s ∈ clause.call.written.contents, Plain s := by
    simpa using fun tag mem => (quotable tag mem).plain
  have text : clause.text.toList = clause.call.written.text := by
    rw [clause.toList_text, literals_of_quotable quotable]
    cases clause <;>
      simp [call, Call.written, tags, Selector.WrittenCall.text, Selector.methodText]
  rw [text]
  exact ⟨_, Selector.callPhrase_text clause.call.written_wellFormed plain rest, .full clause.call⟩

theorem chainPhrase_text {clause : Clause} {clauses : List Clause}
    (quotable : ∀ asked ∈ clause :: clauses, ∀ tag ∈ asked.tags, Quotable tag) :
    ChainPhrase id (clause.text.toList ++ conjoined clauses) clause.call
      (clauses.map Clause.call) [] := by
  have first := Clause.writes_text (quotable clause List.mem_cons_self)
  induction clauses generalizing clause with
  | nil => exact .last (first [])
  | cons next clauses ih =>
      have quotableOthers : ∀ asked ∈ next :: clauses, ∀ tag ∈ asked.tags, Quotable tag :=
        fun asked mem => quotable asked (List.mem_cons_of_mem _ mem)
      have others := ih quotableOthers (Clause.writes_text (quotableOthers next List.mem_cons_self))
      have text : conjoined (next :: clauses) =
          joint ++ (next.text.toList ++ conjoined clauses) := by
        simp [conjoined]
      rw [text]
      exact .joined (first _) others

theorem parse_of_quotable {clause : Clause} {clauses : List Clause} {source : String}
    (quotable : ∀ asked ∈ clause :: clauses, ∀ tag ∈ asked.tags, Quotable tag)
    (text : source.toList = clause.text.toList ++ conjoined clauses) :
    Selector.parse source = .ok (.chain clause.call (clauses.map Clause.call)) := by
  have phrase := chainPhrase_text quotable
  rw [← text] at phrase
  have renders : Renders source (.chain clause.call (clauses.map Clause.call)) :=
    ⟨[], .single phrase.derives, by simp⟩
  refine Selector.parse_eq_ok_iff.2 (renders.spells fun s mem => ?_)
  obtain ⟨call, called, found⟩ := List.mem_flatMap.1 mem
  obtain ⟨asked, mem, rfl⟩ : ∃ asked ∈ clause :: clauses, asked.call = call := by
    simpa [@eq_comm _ call] using called
  exact (quotable asked mem s (by simpa using found)).plain

/-! ## Filters without special characters -/

theorem quotable_of_plain {filter tag : String}
    (plain : ∀ c ∈ ['(', '\'', '\\', '\t', '\r', '\n'], c ∉ Text.trimBlanks filter.toList)
    (found : tag ∈ (Clause.ofFilter (Text.trim filter)).tags) : Quotable tag := by
  have absent (c : Char) (special : c ∈ ['(', '\'', '\\', '\t', '\r', '\n']) : c ∉ tag.toList :=
    fun mem => plain c special (Clause.mem_of_mem_tags found mem)
  have single := absent '\'' (by decide)
  exact ⟨⟨absent '\t' (by decide), absent '\\' (by decide),
    ⟨absent '\n' (by decide), absent '\r' (by decide)⟩, .inl single⟩, single⟩

theorem toSelector_text (filter : String) :
    toSelector (.text filter) = toSelector (.list [.text filter]) := by
  simp [toSelector, listOf, Value.isTruthy, Value.members, Except.map]

/-- The selector of filters without special characters is accepted and means the same as the
filters. A single filter may stand for the list of it, and a blank one is never passed. -/
theorem selected_iff_matches {filters : List (Option String)} (nonempty : filters ≠ [])
    (plain : ∀ filter ∈ filters, ∀ c ∈ ['(', '\'', '\\', '\t', '\r', '\n'],
      c ∉ Text.trimBlanks (given filter).toList) :
    (∃ source, toSelector (.list (filters.map toValue)) = .ok (some (.text source)) ∧
      (∃ tree, Selector.parse source = .ok tree) ∧
      ∀ set : TagSet, ∃ selected, set.isSelectedBy (.text source) = .ok selected ∧
        (selected = true ↔ ∀ filter ∈ filters, Matches set.tags (given filter))) ∧
    (∀ filter : String, toSelector (.text filter) = toSelector (.list [.text filter])) ∧
    ∀ (tags : List Tag) (filter : String), Text.Trims filter.toList [] → ¬Matches tags filter := by
  refine ⟨⟨_, toSelector_given nonempty ?_, ?_⟩, toSelector_text, fun _ _ => not_matches_blank⟩
  · intro filter mem parenthesis
    exact plain filter mem '(' (by decide) (Text.mem_trimBlanks parenthesis (by decide))
  · have quotable : ∀ asked ∈ clausesGiven filters, ∀ tag ∈ asked.tags, Quotable tag :=
      forall_clausesGiven.2 fun filter mem tag => quotable_of_plain (plain filter mem)
    obtain ⟨clause, clauses, clausesEq, text⟩ := exists_clausesGiven nonempty
    rw [clausesEq] at quotable
    have parsed := parse_of_quotable quotable text
    exact ⟨⟨_, parsed⟩, selected_of_parse clausesEq parsed⟩

theorem selected_iff_matches_mixed :
    let filters := [some " @smoke,,fast\n", some "~@env=dev,qa", none]
    let source := "anyOf('@smoke','fast') && not('@env=dev,qa') && anyOf()"
    (toSelector (.list (filters.map toValue)) = .ok (some (.text source)) ∧
      (∃ tree, Selector.parse source = .ok tree) ∧
      ∀ set : TagSet, ∃ selected, set.isSelectedBy (.text source) = .ok selected ∧
        (selected = true ↔ ∀ filter ∈ filters, Matches set.tags (given filter))) ∧
    toSelector (.text "~@slow") = toSelector (.list [.text "~@slow"]) ∧
    ¬Matches [] (given none) := by
  intro filters source
  have plain : ∀ filter ∈ filters, ∀ c ∈ ['(', '\'', '\\', '\t', '\r', '\n'],
      c ∉ Text.trimBlanks (given filter).toList := by
    simp only [List.forall_mem_cons, List.not_mem_nil, false_implies, implies_true, and_true]
    decide +kernel
  have text : selectorText (filters.map fun filter => Text.trim (given filter)) = source := by
    decide +kernel
  have converted := toSelector_given (by simp [filters])
    (by decide : ∀ filter ∈ filters, '(' ∉ (given filter).toList)
  obtain ⟨⟨source', converted', meaning⟩, single, blank⟩ :=
    selected_iff_matches (by simp [filters]) plain
  rw [converted, text] at converted'
  cases converted'
  exact ⟨⟨by rw [converted, text], meaning⟩, single _, blank _ _ (Text.trims_trimBlanks [])⟩

end TagQuery.Filter
