import TagQuery.Proofs.Filter.Clauses

namespace TagQuery.Filter

open Selector (Call Tree ChainPhrase Openings joint functionNames)

/-! ## The parentheses of the text -/

section
variable {c : Char} {tags : List String}

theorem not_mem_moreLiterals (other : c ∉ [')', ',', '\'']) (absent : ∀ tag ∈ tags, c ∉ tag.toList) :
    c ∉ moreLiterals tags := by
  simp only [List.mem_cons, List.not_mem_nil, or_false, not_or] at other
  induction tags with
  | nil => simp [moreLiterals, other]
  | cons tag tags ih =>
      have first := absent tag List.mem_cons_self
      have others := ih fun other mem => absent other (List.mem_cons_of_mem _ mem)
      simp [moreLiterals, first, others, other]

theorem not_mem_literals (other : c ∉ [')', ',', '\'']) (absent : ∀ tag ∈ tags, c ∉ tag.toList) :
    c ∉ literals tags := by
  have more := not_mem_moreLiterals other absent
  cases tags with
  | nil => exact more
  | cons tag tags => exact fun mem => more (List.mem_cons_of_mem _ mem)

end

def Closed (clauses : List Clause) : Prop :=
  ∀ clause ∈ clauses, ∀ tag ∈ clause.tags, '(' ∉ tag.toList

def functions (clauses : List Clause) : List String :=
  clauses.map fun clause => clause.call.written.function

theorem Clause.function_cases (clause : Clause) :
    clause.call.written.function = "anyOf" ∨ clause.call.written.function = "not" := by
  cases clause with
  | absent => exact .inr rfl
  | present => exact .inl rfl

theorem functions_subset (clauses : List Clause) : functions clauses ⊆ functionNames := by
  intro name mem
  obtain ⟨clause, -, rfl⟩ := List.mem_map.1 mem
  rcases clause.function_cases with same | same <;> simp [same, functionNames]

theorem openings_conjoined {clauses : List Clause} (closed : Closed clauses) :
    Openings (functions clauses) (conjoined clauses) := by
  induction clauses with
  | nil => exact .none (by simp [conjoined])
  | cons clause clauses ih =>
      have others := ih fun other mem => closed other (List.mem_cons_of_mem _ mem)
      have inside := others.prepend (not_mem_literals (by decide) (closed clause List.mem_cons_self))
      have text : conjoined (clause :: clauses) = [] ++ (joint ++
          (clause.call.written.function.toList ++ '(' ::
            (literals clause.tags ++ conjoined clauses))) := by
        simp [conjoined, clause.toList_text]
      rw [text]
      exact .next (by simp) inside

/-! ## Filters and their clauses -/

theorem Clause.mem_of_mem_tags {filter tag : String} {c : Char}
    (found : tag ∈ (ofFilter (Text.trim filter)).tags) (mem : c ∈ tag.toList) :
    c ∈ Text.trimBlanks filter.toList := by
  rcases ofFilter_trim_cases filter with ⟨rest, negated, clause⟩ | ⟨-, clause⟩
  · rw [clause, tags, List.mem_singleton] at found
    rw [negated, ← found]
    exact List.mem_cons_of_mem _ mem
  · rw [clause, tags, Text.commaItems, Text.mem_nonemptyPieces_iff] at found
    exact found.2.mem mem

theorem Clause.exists_tag {filter : String} {c : Char} (mem : c ∈ Text.trimBlanks filter.toList)
    (other : c ∉ ['~', ',']) : ∃ tag ∈ (ofFilter (Text.trim filter)).tags, c ∈ tag.toList := by
  simp only [List.mem_cons, List.not_mem_nil, or_false, not_or] at other
  rcases ofFilter_trim_cases filter with ⟨rest, negated, clause⟩ | ⟨-, clause⟩
  · rw [negated] at mem
    have inside := (List.mem_cons.1 mem).resolve_left other.1
    exact ⟨rest, by simp [clause, tags], inside⟩
  · have whole : (c == ',') = false := by simpa using other.2
    rw [clause]
    exact Text.exists_nonemptyPiece_of_mem mem whole

def functionOf (filter : String) : String :=
  if (Text.trimBlanks filter.toList).head? = some '~' then "not" else "anyOf"

theorem function_ofFilter (filter : String) :
    (Clause.ofFilter (Text.trim filter)).call.written.function = functionOf filter := by
  rcases Clause.ofFilter_trim_cases filter with ⟨rest, negated, clause⟩ | ⟨plain, clause⟩
  · have first : (Text.trimBlanks filter.toList).head? = some '~' := by rw [negated]; rfl
    rw [clause, functionOf, if_pos first]
    rfl
  · rw [clause, functionOf, if_neg plain]
    rfl

def clausesGiven (filters : List (Option String)) : List Clause :=
  clausesOf (filters.map fun filter => Text.trim (given filter))

theorem forall_clausesGiven {filters : List (Option String)} {property : Clause → Prop} :
    (∀ clause ∈ clausesGiven filters, property clause) ↔
      ∀ filter ∈ filters, property (Clause.ofFilter (Text.trim (given filter))) := by
  simp only [clausesGiven, clausesOf, List.forall_mem_map]

theorem exists_clausesGiven {filters : List (Option String)} (nonempty : filters ≠ []) :
    ∃ clause clauses, clausesGiven filters = clause :: clauses ∧
      (selectorText (filters.map fun filter => Text.trim (given filter))).toList =
        clause.text.toList ++ conjoined clauses := by
  obtain ⟨filter, filters, rfl⟩ := List.exists_cons_of_ne_nil nonempty
  exact ⟨_, _, rfl, toList_selectorText _ _⟩

theorem closed_clausesGiven {filters : List (Option String)}
    (closed : ∀ filter ∈ filters, '(' ∉ (given filter).toList) : Closed (clausesGiven filters) := by
  refine forall_clausesGiven.2 fun filter mem tag found parenthesis => ?_
  exact closed filter mem (Text.mem_of_mem_trimBlanks (Clause.mem_of_mem_tags found parenthesis))

theorem functions_clausesGiven (filters : List (Option String)) :
    functions (clausesGiven filters) = filters.map fun filter => functionOf (given filter) := by
  simp [functions, clausesGiven, clausesOf, function_ofFilter]

theorem chain_of_clauses {clause : Clause} {clauses : List Clause} {source : String}
    {tree : Selector} (closed : Closed (clause :: clauses))
    (text : source.toList = clause.text.toList ++ conjoined clauses)
    (parsed : Selector.parse source = .ok tree) :
    ∃ first others rest, tree = .chain first others ∧
      first.written.function = clause.call.written.function ∧
      (others.map (·.written.function)).Sublist (functions clauses) ∧
      ChainPhrase Selector.unescape (Selector.expandTabs 0 source.toList) first others rest ∧
      ∀ c ∈ rest, Text.isSpace c = true := by
  have others := openings_conjoined fun other mem => closed other (List.mem_cons_of_mem _ mem)
  have inside := others.prepend (not_mem_literals (by decide) (closed clause List.mem_cons_self))
  rw [clause.toList_text, List.append_assoc, List.cons_append] at text
  exact Selector.chain_of_parse text (functions_subset (clause :: clauses)) inside parsed

theorem plain_of_function {call : Call} {clauses : List Clause}
    (named : call.written.function ∈ functions clauses) :
    ∃ contents, call = .anyOf contents ∨ call = .noneOf contents := by
  obtain ⟨clause, -, same⟩ := List.mem_map.1 named
  have plain := clause.function_cases
  rw [same] at plain
  cases call with
  | anyOf contents => exact ⟨contents, .inl rfl⟩
  | noneOf contents => exact ⟨contents, .inr rfl⟩
  | _ => simp [Call.written] at plain

/-- The selector of filters without an opening parenthesis is accepted only as a chain of calls
without methods, whose functions are the one of the first filter and some of the others in order. -/
theorem chain_of_accepted {filters : List (Option String)} (nonempty : filters ≠ [])
    (closed : ∀ filter ∈ filters, '(' ∉ (given filter).toList) :
    ∃ source, toSelector (.list (filters.map toValue)) = .ok (some (.text source)) ∧
      ∀ tree, Selector.parse source = .ok tree →
        ∃ first others, tree = Tree.chain first others ∧
          (first :: others).length ≤ filters.length ∧
          (∀ call ∈ first :: others, ∃ contents, call = .anyOf contents ∨ call = .noneOf contents) ∧
          ∃ names, (filters.map fun filter => functionOf (given filter)) =
              first.written.function :: names ∧
            (others.map (·.written.function)).Sublist names := by
  refine ⟨_, toSelector_given nonempty closed, ?_⟩
  intro tree parsed
  have names := functions_clausesGiven filters
  have closedClauses := closed_clausesGiven closed
  obtain ⟨clause, clauses, clausesEq, text⟩ := exists_clausesGiven nonempty
  rw [clausesEq] at names closedClauses
  obtain ⟨first, others, -, rfl, head, sublist, -⟩ := chain_of_clauses closedClauses text parsed
  have functionsOf : functions (clause :: clauses) =
      first.written.function :: functions clauses := by rw [head]; rfl
  refine ⟨first, others, rfl, ?_, ?_, functions clauses, names.symm.trans functionsOf, sublist⟩
  · calc (first :: others).length = (others.map (·.written.function)).length + 1 := by simp
      _ ≤ (functions clauses).length + 1 := Nat.succ_le_succ sublist.length_le
      _ = filters.length := by simpa using (congrArg List.length (names.symm.trans functionsOf)).symm
  · intro call mem
    have named : call.written.function ∈ functions (clause :: clauses) := by
      rw [functionsOf]
      rcases List.mem_cons.1 mem with rfl | mem
      · exact List.mem_cons_self
      · exact List.mem_cons_of_mem _ (sublist.subset (List.mem_map_of_mem mem))
    exact plain_of_function named

theorem chain_of_accepted_swallowed :
    let filters := [some "~a',\"", some "~b\",'c", none]
    ∃ source tree, toSelector (.list (filters.map toValue)) = .ok (some (.text source)) ∧
      Selector.parse source = .ok tree ∧
      ∃ first others, tree = Tree.chain first others ∧
        (first :: others).length ≤ filters.length ∧
        (∀ call ∈ first :: others, ∃ contents, call = .anyOf contents ∨ call = .noneOf contents) ∧
        ∃ names, (filters.map fun filter => functionOf (given filter)) =
            first.written.function :: names ∧
          (others.map (·.written.function)).Sublist names := by
  intro filters
  have parsed : Selector.parse "not('a',\"') && not('b\",'c') && anyOf()" =
      .ok (.chain (.noneOf ["a", "') && not('b", "c"]) [.anyOf []]) :=
    Selector.parse_eq_ok_iff_readText.2 (by decide +kernel)
  have closed : ∀ filter ∈ filters, '(' ∉ (given filter).toList := by decide
  have text : selectorText (filters.map fun filter => Text.trim (given filter)) =
      "not('a',\"') && not('b\",'c') && anyOf()" := by decide +kernel
  have converted := toSelector_given (by simp [filters]) closed
  obtain ⟨source, converted', chain⟩ := chain_of_accepted (by simp [filters]) closed
  rw [converted, text] at converted'
  cases converted'
  exact ⟨_, _, by rw [converted, text], parsed, chain _ parsed⟩

end TagQuery.Filter
