import TagQuery.Proofs.Filter.Conversion

/-!
# Filters with quotes

Tags are put between quotes as they are. A quote in a tag ends its literal early, and what follows
has to be a comma or the end of the call for the text to be accepted. A call that ends there leaves a
quote that no chain accounts for, so that only a comma behind the quote lets a text be accepted that
does not stand for its clauses.
-/

namespace TagQuery.Filter

open Selector (Call Tree ChainPhrase Writes Token Arguments MoreArguments joint unescape isContent)

def behindQuote (cs : List Char) : List Char := (cs.dropWhile (· != '\'')).tail

theorem behindQuote_append {front : List Char} (unquoted : '\'' ∉ front) (back : List Char) :
    behindQuote (front ++ '\'' :: back) = back := by
  have others : ∀ c ∈ front, (c != '\'') = true := by
    intro c mem
    have differs : c ≠ '\'' := fun same => unquoted (same ▸ mem)
    simpa using differs
  rw [behindQuote, List.dropWhile_append_of_pos others, List.dropWhile_cons_of_neg (by decide),
    List.tail_cons]

/-- Between quotes the tag is read as it is or not at all: it has no tab and no escape, and no comma
follows its first quote. -/
structure Kept (tag : String) : Prop where
  tabs : '\t' ∉ tag.toList
  escapes : unescape tag.toList = tag.toList
  unsplit : (Text.skipSpace (behindQuote tag.toList)).head? ≠ some ','

instance (tag : String) : Decidable (Kept tag) :=
  decidable_of_iff ('\t' ∉ tag.toList ∧ unescape tag.toList = tag.toList ∧
      (Text.skipSpace (behindQuote tag.toList)).head? ≠ some ',')
    ⟨fun ⟨tabs, escapes, unsplit⟩ => ⟨tabs, escapes, unsplit⟩,
      fun ⟨tabs, escapes, unsplit⟩ => ⟨tabs, escapes, unsplit⟩⟩

def Enclosed (tag : String) : Prop := ∀ c ∈ tag.toList, isContent '\'' c = true

/-! ## Quotes that no phrase accounts for -/

def Dangling (text : List Char) : Prop := ∃ lead after, text = lead ++ '\'' :: after ∧ '(' ∉ lead

theorem not_mem_of_spaces {gap : List Char} {c : Char}
    (spaces : ∀ x ∈ gap, Text.isSpace x = true) (solid : Text.isSpace c = false) : c ∉ gap := by
  intro mem
  rw [spaces c mem] at solid
  cases solid

theorem not_dangling_of_spaces {text : List Char} (spaces : ∀ c ∈ text, Text.isSpace c = true) :
    ¬Dangling text := by
  rintro ⟨lead, after, rfl, -⟩
  exact not_mem_of_spaces spaces (by decide : Text.isSpace '\'' = false) (by simp)

theorem not_dangling_of_call {front : List Char} (unquoted : '\'' ∉ front) (inner : List Char) :
    ¬Dangling (front ++ '(' :: inner) := by
  rintro ⟨lead, after, split, closed⟩
  rcases List.append_eq_append_iff.1 split with ⟨more, rfl, ends⟩ | ⟨more, rfl, ends⟩
  · cases more with
    | nil => cases ends
    | cons c more =>
        cases ends
        exact closed (by simp)
  · cases more with
    | nil => cases ends
    | cons c more =>
        cases ends
        exact unquoted (by simp)

section
variable {decode : List Char → List Char}

theorem not_dangling_of_next {text text' rest : List Char} {first : Call} {others : List Call}
    (both : Token.both.Starts decode text text')
    (phrase : ChainPhrase decode text' first others rest) : ¬Dangling text := by
  obtain ⟨_, writes⟩ := phrase.head
  obtain ⟨gap₂, gap₃, inner, rfl, spaces₂, spaces₃, -⟩ := writes.opened
  obtain ⟨gap₁, spelling, spaces₁, spells, rfl⟩ := both
  cases spells with
  | both =>
      have unquoted : ∀ name ∈ Selector.functionNames, '\'' ∉ name.toList := by decide
      have name := unquoted _ first.written_wellFormed.known
      have solid : Text.isSpace '\'' = false := by decide
      have front :
          '\'' ∉ gap₁ ++ (['&', '&'] ++ (gap₂ ++ (first.written.function.toList ++ gap₃))) := by
        simp [name, not_mem_of_spaces spaces₁ solid, not_mem_of_spaces spaces₂ solid,
          not_mem_of_spaces spaces₃ solid]
      have called := not_dangling_of_call front inner
      simpa using called

/-! ## What is read of a clause -/

theorem literal_read {content tag : String} {after rest : List Char}
    (escapes : unescape tag.toList = tag.toList)
    (literal : (Token.literal content).Starts unescape ('\'' :: (tag.toList ++ '\'' :: after)) rest) :
    (content = tag ∧ rest = after ∧ Enclosed tag) ∨
      ∃ front back, tag.toList = front ++ '\'' :: back ∧ '\'' ∉ front ∧
        rest = back ++ '\'' :: after := by
  obtain ⟨others, spells, split⟩ := literal.spelled_cons (by decide)
  cases spells with
  | @literal _ characters _ inside =>
      have unquoted : '\'' ∉ characters := fun mem => absurd (inside '\'' mem) (by decide)
      rw [List.append_assoc, List.singleton_append] at split
      rcases Text.cut_or_later unquoted split.symm with ⟨whole, rfl⟩ | ⟨back, cut, rfl⟩
      · rw [Enclosed, whole]
        rw [whole] at escapes
        exact .inl ⟨by rw [escapes, ← whole, String.ofList_toList], rfl, inside⟩
      · exact .inr ⟨characters, back, cut, unquoted, rfl⟩

theorem dangling_of_cut {back after rest : List Char} {contents : List String}
    (phrase : MoreArguments decode (back ++ '\'' :: after) contents rest) (closed : '(' ∉ back)
    (uncut : (Text.skipSpace back).head? ≠ some ',') : Dangling rest := by
  rcases Selector.spaces_or_solid back with spaces | ⟨gap, c, more, rfl, spaces, solid⟩
  · -- The next character is the quote, with which neither a parenthesis nor a comma starts.
    cases phrase with
    | close closing => exact absurd (closing.single ')' rfl spaces (by decide)).1 (by decide)
    | next comma => exact absurd (comma.single ',' rfl spaces (by decide)).1 (by decide)
  · rw [List.append_assoc, List.cons_append] at phrase
    cases phrase with
    | close closing =>
        obtain ⟨-, rfl⟩ := closing.single ')' rfl spaces solid
        refine ⟨more, after, rfl, fun mem => closed ?_⟩
        exact List.mem_append_right _ (List.mem_cons_of_mem _ mem)
    | next comma =>
        obtain ⟨rfl, -⟩ := comma.single ',' rfl spaces solid
        rw [Text.skipSpace, List.dropWhile_append_of_pos spaces,
          List.dropWhile_cons_of_neg (by decide)] at uncut
        exact absurd rfl uncut

theorem tag_read {content tag : String} {contents : List String} {after rest rest' : List Char}
    (kept : Kept tag) (closed : '(' ∉ tag.toList)
    (literal : (Token.literal content).Starts unescape ('\'' :: (tag.toList ++ '\'' :: after)) rest)
    (phrase : MoreArguments unescape rest contents rest') (tight : ¬Dangling rest') :
    content = tag ∧ rest = after ∧ Enclosed tag := by
  rcases literal_read kept.escapes literal with same | ⟨front, back, cut, unquoted, rfl⟩
  · exact same
  · have closedBack : '(' ∉ back := by
      intro mem
      exact closed (by rw [cut]; exact List.mem_append_right _ (List.mem_cons_of_mem _ mem))
    have uncut := kept.unsplit
    rw [cut, behindQuote_append unquoted] at uncut
    exact absurd (dangling_of_cut phrase closedBack uncut) tight

theorem moreLiterals_read {tags contents : List String} {after rest : List Char}
    (kept : ∀ tag ∈ tags, Kept tag) (closed : ∀ tag ∈ tags, '(' ∉ tag.toList)
    (phrase : MoreArguments unescape (moreLiterals tags ++ after) contents rest)
    (tight : ¬Dangling rest) : contents = tags ∧ rest = after ∧ ∀ tag ∈ tags, Enclosed tag := by
  induction tags generalizing contents with
  | nil =>
      cases phrase with
      | close closing =>
          obtain ⟨-, rfl⟩ := closing.single_cons ')' rfl (by decide)
          exact ⟨rfl, rfl, by simp⟩
      | next comma => exact absurd (comma.single_cons ',' rfl (by decide)).1 (by decide)
  | cons tag tags ih =>
      rw [moreLiterals, List.cons_append, List.cons_append, List.append_assoc,
        List.cons_append] at phrase
      cases phrase with
      | close closing => exact absurd (closing.single_cons ')' rfl (by decide)).1 (by decide)
      | next comma literal more =>
          obtain ⟨-, rfl⟩ := comma.single_cons ',' rfl (by decide)
          obtain ⟨rfl, rfl, first⟩ := tag_read (kept _ List.mem_cons_self)
            (closed _ List.mem_cons_self) literal more tight
          obtain ⟨rfl, rfl, others⟩ := ih
            (fun other mem => kept other (List.mem_cons_of_mem _ mem))
            (fun other mem => closed other (List.mem_cons_of_mem _ mem)) more
          exact ⟨rfl, rfl, List.forall_mem_cons.2 ⟨first, others⟩⟩

theorem literals_read {tags contents : List String} {after rest : List Char}
    (kept : ∀ tag ∈ tags, Kept tag) (closed : ∀ tag ∈ tags, '(' ∉ tag.toList)
    (phrase : Arguments unescape ('(' :: (literals tags ++ after)) contents rest)
    (tight : ¬Dangling rest) : contents = tags ∧ rest = after ∧ ∀ tag ∈ tags, Enclosed tag := by
  cases phrase with
  | none opened closing =>
      obtain ⟨-, rfl⟩ := opened.single_cons '(' rfl (by decide)
      cases tags with
      | nil =>
          obtain ⟨-, rfl⟩ := closing.single_cons ')' rfl (by decide)
          exact ⟨rfl, rfl, by simp⟩
      | cons tag tags => exact absurd (closing.single_cons ')' rfl (by decide)).1 (by decide)
  | some opened literal more =>
      obtain ⟨-, rfl⟩ := opened.single_cons '(' rfl (by decide)
      cases tags with
      | nil =>
          obtain ⟨_, spells, -⟩ := literal.spelled_cons (by decide)
          cases spells with
          | literal quotes => cases quotes
      | cons tag tags =>
          rw [literals, List.cons_append, List.append_assoc, List.cons_append] at literal
          obtain ⟨rfl, rfl, first⟩ := tag_read (kept _ List.mem_cons_self)
            (closed _ List.mem_cons_self) literal more tight
          obtain ⟨rfl, rfl, others⟩ := moreLiterals_read
            (fun other mem => kept other (List.mem_cons_of_mem _ mem))
            (fun other mem => closed other (List.mem_cons_of_mem _ mem)) more tight
          exact ⟨rfl, rfl, List.forall_mem_cons.2 ⟨first, others⟩⟩

theorem Clause.call_read {clause : Clause} {gap after rest : List Char} {call : Call}
    (kept : ∀ tag ∈ clause.tags, Kept tag) (closed : ∀ tag ∈ clause.tags, '(' ∉ tag.toList)
    (spaces : ∀ c ∈ gap, Text.isSpace c = true)
    (writes : Writes unescape (gap ++ (clause.text.toList ++ after)) call rest)
    (tight : ¬Dangling rest) :
    call = clause.call ∧ rest = after ∧ ∀ tag ∈ clause.tags, Enclosed tag := by
  rw [clause.toList_text, List.append_assoc, List.cons_append] at writes
  have named : Selector.isWord clause.call.written.function = true :=
    Selector.isWord_of_mem (by decide) clause.call.written_wellFormed.known
  obtain ⟨contents, method, behind, form, arguments, chained⟩ := writes.named spaces named
  cases chained with
  | absent =>
      obtain ⟨rfl, rfl, enclosed⟩ := literals_read kept closed arguments tight
      have written : clause.call.written = ⟨clause.call.written.function, clause.tags, none⟩ := by
        cases clause <;> rfl
      rw [← written] at form
      have checked := form.check.symm.trans clause.call.check_written
      exact ⟨Except.ok.inj checked, rfl, enclosed⟩
  | bare | called =>
      have values : clause.call.written.function = "valuesFor" := form.chained rfl
      rcases clause.function_cases with plain | plain <;> simp [values] at plain

theorem chain_read {clause : Clause} {clauses : List Clause} {gap rest : List Char} {first : Call}
    {others : List Call} (kept : ∀ asked ∈ clause :: clauses, ∀ tag ∈ asked.tags, Kept tag)
    (closed : Closed (clause :: clauses)) (spaces : ∀ c ∈ gap, Text.isSpace c = true)
    (phrase : ChainPhrase unescape (gap ++ (clause.text.toList ++ conjoined clauses)) first others
      rest)
    (ends : ∀ c ∈ rest, Text.isSpace c = true) :
    first = clause.call ∧ others = clauses.map Clause.call ∧
      ∀ asked ∈ clause :: clauses, ∀ tag ∈ asked.tags, Enclosed tag := by
  have keptFirst := kept clause List.mem_cons_self
  have closedFirst := closed clause List.mem_cons_self
  induction clauses generalizing clause gap first others with
  | nil =>
      cases phrase with
      | last writes =>
          -- Every call has to end where its clause does: behind it comes an end or another call.
          have tight := not_dangling_of_spaces ends
          obtain ⟨rfl, -, enclosed⟩ := Clause.call_read keptFirst closedFirst spaces writes tight
          exact ⟨rfl, rfl, List.forall_mem_singleton.2 enclosed⟩
      | next writes both more =>
          have tight := not_dangling_of_next both more
          obtain ⟨-, rfl, -⟩ := Clause.call_read keptFirst closedFirst spaces writes tight
          obtain ⟨gap', spelling, -, spells, split⟩ := both
          cases spells
          simp [conjoined] at split
  | cons next clauses ih =>
      have text : conjoined (next :: clauses) =
          [' '] ++ '&' :: '&' :: ([' '] ++ (next.text.toList ++ conjoined clauses)) := by
        simp [conjoined, joint]
      cases phrase with
      | last writes =>
          have tight := not_dangling_of_spaces ends
          obtain ⟨-, rfl, -⟩ := Clause.call_read keptFirst closedFirst spaces writes tight
          exact absurd (ends '&' (by simp [text])) (by decide)
      | next writes both more =>
          have tight := not_dangling_of_next both more
          obtain ⟨rfl, rfl, enclosed⟩ := Clause.call_read keptFirst closedFirst spaces writes tight
          have keptOthers : ∀ asked ∈ next :: clauses, ∀ tag ∈ asked.tags, Kept tag :=
            fun asked mem => kept asked (List.mem_cons_of_mem _ mem)
          have closedOthers : Closed (next :: clauses) :=
            fun asked mem => closed asked (List.mem_cons_of_mem _ mem)
          rw [text] at both
          have blank : ∀ c ∈ [' '], Text.isSpace c = true := List.forall_mem_singleton.2 rfl
          obtain ⟨_, spells, behind⟩ := both.spelled blank (by decide)
          cases spells
          cases behind
          obtain ⟨rfl, rfl, enclosedOthers⟩ := ih keptOthers closedOthers blank more
            (keptOthers next List.mem_cons_self) (closedOthers next List.mem_cons_self)
          exact ⟨rfl, rfl, List.forall_mem_cons.2 ⟨enclosed, enclosedOthers⟩⟩

end

/-! ## Filters that are not misread -/

theorem Clause.tab_not_mem_text {clause : Clause} (kept : ∀ tag ∈ clause.tags, Kept tag) :
    '\t' ∉ clause.text.toList := by
  have literals := not_mem_literals (by decide) fun tag mem => (kept tag mem).tabs
  rw [clause.toList_text]
  rcases clause.function_cases with plain | plain <;> simp [plain, literals]

theorem tab_not_mem_conjoined {clauses : List Clause}
    (kept : ∀ asked ∈ clauses, ∀ tag ∈ asked.tags, Kept tag) : '\t' ∉ conjoined clauses := by
  intro mem
  obtain ⟨asked, found, mem⟩ := List.mem_flatMap.1 mem
  rcases List.mem_append.1 mem with mem | mem
  · exact absurd mem (by decide)
  · exact Clause.tab_not_mem_text (kept asked found) mem

theorem parse_of_kept {clause : Clause} {clauses : List Clause} {source : String} {tree : Selector}
    (kept : ∀ asked ∈ clause :: clauses, ∀ tag ∈ asked.tags, Kept tag)
    (closed : Closed (clause :: clauses))
    (text : source.toList = clause.text.toList ++ conjoined clauses)
    (parsed : Selector.parse source = .ok tree) :
    tree = .chain clause.call (clauses.map Clause.call) ∧
      ∀ asked ∈ clause :: clauses, ∀ tag ∈ asked.tags, Enclosed tag := by
  obtain ⟨first, others, rest, rfl, -, -, phrase, ends⟩ := chain_of_clauses closed text parsed
  have untabbed : '\t' ∉ source.toList := by
    have first := Clause.tab_not_mem_text (kept clause List.mem_cons_self)
    have others := tab_not_mem_conjoined fun asked mem => kept asked (List.mem_cons_of_mem _ mem)
    simp [text, first, others]
  rw [Selector.expandTabs_of_not_mem untabbed, text, ← List.nil_append (_ ++ _)] at phrase
  obtain ⟨rfl, rfl, enclosed⟩ := chain_read kept closed (by simp) phrase ends
  exact ⟨rfl, enclosed⟩

/-- The selector of filters without an opening parenthesis, whose tags are kept by quotes, is
refused or means the same as the filters. A quote or a line end in a filter has it refused. -/
theorem refused_or_matches {filters : List (Option String)} (nonempty : filters ≠ [])
    (closed : ∀ filter ∈ filters, '(' ∉ (given filter).toList)
    (kept : ∀ filter ∈ filters, ∀ tag ∈ (Clause.ofFilter (Text.trim (given filter))).tags, Kept tag) :
    ∃ source, toSelector (.list (filters.map toValue)) = .ok (some (.text source)) ∧
      ((∃ refusal, Selector.parse source = .error refusal) ∨
        (∃ tree, Selector.parse source = .ok tree) ∧
          ∀ set : TagSet, ∃ selected, set.isSelectedBy (.text source) = .ok selected ∧
            (selected = true ↔ ∀ filter ∈ filters, Matches set.tags (given filter))) ∧
      ∀ filter ∈ filters, ∀ c ∈ ['\'', '\n', '\r'], c ∈ Text.trimBlanks (given filter).toList →
        ∃ refusal, Selector.parse source = .error refusal := by
  refine ⟨_, toSelector_given nonempty closed, ?_⟩
  have closedClauses := closed_clausesGiven closed
  have keptClauses : ∀ asked ∈ clausesGiven filters, ∀ tag ∈ asked.tags, Kept tag :=
    forall_clausesGiven.2 kept
  obtain ⟨clause, clauses, clausesEq, text⟩ := exists_clausesGiven nonempty
  rw [clausesEq] at closedClauses keptClauses
  cases parsed : Selector.parse _ with
  | error refusal => exact ⟨.inl ⟨refusal, rfl⟩, fun _ _ _ _ _ => ⟨refusal, rfl⟩⟩
  | ok tree =>
      obtain ⟨whole, enclosed⟩ := parse_of_kept keptClauses closedClauses text parsed
      rw [whole] at parsed
      refine ⟨.inr ⟨⟨tree, rfl⟩, selected_of_parse clausesEq parsed⟩, ?_⟩
      intro filter mem c special found
      simp only [List.mem_cons, List.not_mem_nil, or_false] at special
      obtain ⟨tag, inClause, inTag⟩ := Clause.exists_tag found
        (by rcases special with rfl | rfl | rfl <;> decide)
      rw [← clausesEq] at enclosed
      have content := forall_clausesGiven.1 enclosed filter mem tag inClause c inTag
      rcases special with rfl | rfl | rfl <;> cases content

theorem refused_or_matches_marks :
    let filters := [some "c:\\dir,\"x\"", some "~@a\\"]
    let source := "anyOf('c:\\dir','\"x\"') && not('@a\\')"
    (toSelector (.list (filters.map toValue)) = .ok (some (.text source)) ∧
      (∃ tree, Selector.parse source = .ok tree) ∧
      ∀ set : TagSet, ∃ selected, set.isSelectedBy (.text source) = .ok selected ∧
        (selected = true ↔ ∀ filter ∈ filters, Matches set.tags (given filter))) ∧
    ∃ source, toSelector (.list [.text "@it's"]) = .ok (some (.text source)) ∧
      ∃ refusal, Selector.parse source = .error refusal := by
  intro filters source
  constructor
  · have parsed : Selector.parse source =
        .ok (.chain (.anyOf ["c:\\dir", "\"x\""]) [.noneOf ["@a\\"]]) :=
      Selector.parse_eq_ok_iff_readText.2 (by decide +kernel)
    have closed : ∀ filter ∈ filters, '(' ∉ (given filter).toList := by decide
    have kept : ∀ filter ∈ filters,
        ∀ tag ∈ (Clause.ofFilter (Text.trim (given filter))).tags, Kept tag := by decide +kernel
    have text : selectorText (filters.map fun filter => Text.trim (given filter)) = source := by
      decide +kernel
    have converted := toSelector_given (by simp [filters]) closed
    obtain ⟨source', converted', result, -⟩ := refused_or_matches (by simp [filters]) closed kept
    rw [converted, text] at converted'
    cases converted'
    rcases result with ⟨refusal, refused⟩ | meaning
    · rw [parsed] at refused
      cases refused
    · exact ⟨by rw [converted, text], meaning⟩
  · have closed : ∀ filter ∈ [some "@it's"], '(' ∉ (given filter).toList := by decide
    have kept : ∀ filter ∈ [some "@it's"],
        ∀ tag ∈ (Clause.ofFilter (Text.trim (given filter))).tags, Kept tag := by decide +kernel
    obtain ⟨source, converted, -, refused⟩ := refused_or_matches (by simp) closed kept
    exact ⟨source, converted, refused _ List.mem_cons_self '\'' (by decide) (by decide +kernel)⟩

def Misread (filters : List (Option String)) (set : TagSet) : Prop :=
  ∃ source, toSelector (.list (filters.map toValue)) = .ok (some (.text source)) ∧
    (∃ tree, Selector.parse source = .ok tree) ∧
    ∃ selected, set.isSelectedBy (.text source) = .ok selected ∧
      ¬(selected = true ↔ ∀ filter ∈ filters, Matches set.tags (given filter))

theorem misread_of_call {filter source : String} {set : TagSet} {call : Call}
    (closed : '(' ∉ filter.toList) (text : selectorText [Text.trim filter] = source)
    (parsed : Selector.parse source = .ok (.call call))
    (rejected : call.evaluate set = .ok (.verdict false)) (passes : Matches set.tags filter) :
    Misread [some filter] set := by
  have converted := toSelector_given (List.cons_ne_nil (some filter) [])
    (by simpa [given] using closed)
  refine ⟨source, by rw [converted, ← text]; rfl, ⟨_, parsed⟩, false, ?_, ?_⟩
  · rw [Selector.isSelectedBy_of_answer, Selector.answer_of_parse parsed, Tree.evaluate, rejected]
    rfl
  · have matched : Matches set.tags (given (some filter)) := passes
    simp [matched]

/-- A quote and a comma split a negated tag into two, a backslash begins an escape, and a tab is read
as spaces. -/
theorem misread_quote_escape_tab :
    Misread [some "~a','b"] ⟨[.ofString "@a" (.number 1)]⟩ ∧
      Misread [some "a\\tb"] ⟨[.ofString "@a\\tb" (.number 1)]⟩ ∧
      Misread [some "a\tb"] ⟨[.ofString "@a\tb" (.number 1)]⟩ := by
  refine ⟨?_, ?_, ?_⟩
  · have parsed : Selector.parse "not('a','b')" = .ok (.call (.noneOf ["a", "b"])) :=
      Selector.parse_eq_ok_iff_readText.2 (by decide +kernel)
    have found : TagSet.noneOf ⟨[.ofString "@a" (.number 1)]⟩ ["a", "b"] = false := by
      decide +kernel
    exact misread_of_call (by decide) (by decide +kernel) parsed (by rw [Call.evaluate, found])
      (by decide +kernel)
  · have parsed : Selector.parse "anyOf('a\\tb')" = .ok (.call (.anyOf ["a\tb"])) :=
      Selector.parse_eq_ok_iff_readText.2 (by decide +kernel)
    have found : TagSet.anyOf ⟨[.ofString "@a\\tb" (.number 1)]⟩ ["a\tb"] = false := by
      decide +kernel
    exact misread_of_call (by decide) (by decide +kernel) parsed (by rw [Call.evaluate, found])
      (by decide +kernel)
  · have parsed : Selector.parse "anyOf('a\tb')" = .ok (.call (.anyOf ["a        b"])) :=
      Selector.parse_eq_ok_iff_readText.2 (by decide +kernel)
    have found : TagSet.anyOf ⟨[.ofString "@a\tb" (.number 1)]⟩ ["a        b"] = false := by
      decide +kernel
    exact misread_of_call (by decide) (by decide +kernel) parsed (by rw [Call.evaluate, found])
      (by decide +kernel)

end TagQuery.Filter
