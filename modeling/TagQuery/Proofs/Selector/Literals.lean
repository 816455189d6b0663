import TagQuery.Proofs.Selector.Outcome
import TagQuery.Proofs.Selector.Rendering

namespace TagQuery.Selector

/-! ## Texts that are read as they stand -/

/-- The text has no tab, and no backslash in it begins an escape. -/
structure Verbatim (content : String) : Prop where
  tabs : '\t' ∉ content.toList
  escapes : ∀ before after, content.toList = before ++ '\\' :: after → escape? after = none

theorem ofNat_ne_backslash {n : Nat} (other : n ≠ 92) : Char.ofNat n ≠ '\\' := by
  intro same
  by_cases valid : n.isValidChar
  · rw [Char.ofNat, dif_pos valid] at same
    exact other (congrArg Char.toNat same)
  · rw [Char.ofNat, dif_neg valid] at same
    exact absurd same (by decide)

theorem head_of_codeWith {last : Char} {value : Nat} {cs replaced rest : List Char}
    (odd : ∀ high, high * 16 + value ≠ 92) (read : codeWith last value cs = some (replaced, rest)) :
    ∃ c others, replaced = c :: others ∧ c ≠ '\\' := by
  unfold codeWith at read
  split at read
  · split at read
    · simp only [Option.map_eq_some_iff, Prod.mk.injEq] at read
      obtain ⟨high, -, rfl, -⟩ := read
      exact ⟨_, [], rfl, ofNat_ne_backslash (odd high)⟩
    · cases read
  · cases read

theorem head_of_escape? {cs replaced rest : List Char} (read : escape? cs = some (replaced, rest)) :
    ∃ c others, replaced = c :: others ∧ c ≠ '\\' := by
  cases cs with
  | nil => cases read
  | cons c cs =>
      simp only [escape?] at read
      split at read
      · rename_i control found
        cases read
        refine ⟨control, [], rfl, ?_⟩
        unfold control? at found
        split at found <;> cases found <;> decide
      · split at read
        · rename_i octal
          cases read
          refine ⟨c, ['3'], rfl, ?_⟩
          rintro rfl
          exact absurd octal (by simp)
        · split at read
          · cases read
            exact ⟨_, [], rfl, by decide⟩
          · split at read
            · exact head_of_codeWith (by omega) read
            · split at read
              · exact head_of_codeWith (by omega) read
              · cases read

theorem unescape_cons {c : Char} (plain : c ≠ '\\') (cs : List Char) :
    unescape (c :: cs) = c :: unescape cs := by
  rw [unescape, if_neg plain]

theorem unescape_backslash (cs : List Char) :
    (escape? cs = none ∧ unescape ('\\' :: cs) = '\\' :: unescape cs) ∨
      (escape? cs ≠ none ∧ ∃ c others, unescape ('\\' :: cs) = c :: others ∧ c ≠ '\\') := by
  rw [unescape, if_pos rfl]
  split
  · rename_i replaced after read
    obtain ⟨c, others, rfl, differs⟩ := head_of_escape? read
    exact .inr ⟨by simp [read], c, others ++ unescape after, rfl, differs⟩
  · rename_i none
    exact .inl ⟨none, rfl⟩

theorem expandTabs_tab (column : Nat) (cs : List Char) :
    ∃ spaces, expandTabs column ('\t' :: cs) = ' ' :: spaces := by
  have width : 8 - column % 8 = (7 - column % 8) + 1 := by omega
  rw [expandTabs, if_pos rfl, width, List.replicate_succ]
  exact ⟨_, rfl⟩

theorem expandTabs_cons {c : Char} (other : c ≠ '\t') (column : Nat) (cs : List Char) :
    ∃ column', expandTabs column (c :: cs) = c :: expandTabs column' cs := by
  rw [expandTabs, if_neg other]
  split
  · exact ⟨0, rfl⟩
  · exact ⟨column + 1, rfl⟩

theorem verbatim_of_unescape_eq {cs : List Char} {column : Nat}
    (same : unescape (expandTabs column cs) = cs) :
    '\t' ∉ cs ∧ ∀ before after, cs = before ++ '\\' :: after → escape? after = none := by
  induction cs generalizing column with
  | nil => simp
  | cons c cs ih =>
      by_cases tab : c = '\t'
      · obtain ⟨spaces, expanded⟩ := expandTabs_tab column cs
        rw [tab, expanded, unescape_cons (by decide)] at same
        exact absurd (List.cons.inj same).1 (by decide)
      · obtain ⟨column', expanded⟩ := expandTabs_cons tab column cs
        rw [expanded] at same
        obtain ⟨others, none⟩ : unescape (expandTabs column' cs) = cs ∧
            (c = '\\' → escape? (expandTabs column' cs) = none) := by
          by_cases backslash : c = '\\'
          · rw [backslash] at same
            rcases unescape_backslash (expandTabs column' cs) with
              ⟨none, kept⟩ | ⟨-, d, ds, read, differs⟩
            · rw [kept] at same
              exact ⟨(List.cons.inj same).2, fun _ => none⟩
            · rw [read] at same
              exact absurd (List.cons.inj same).1 differs
          · rw [unescape_cons backslash] at same
            exact ⟨(List.cons.inj same).2, fun is => absurd is backslash⟩
        obtain ⟨tabs, escapes⟩ := ih others
        rw [expandTabs_of_not_mem tabs] at none
        refine ⟨List.not_mem_cons_of_ne_of_not_mem (Ne.symm tab) tabs, ?_⟩
        intro before after split
        cases before with
        | nil =>
            obtain ⟨is, rfl⟩ := List.cons.inj split
            exact none is
        | cons d before =>
            obtain ⟨-, behind⟩ := List.cons.inj split
            exact escapes before after behind

theorem unescape_of_none {cs : List Char}
    (none : ∀ before after, cs = before ++ '\\' :: after → escape? after = none) :
    unescape cs = cs := by
  induction cs with
  | nil => rw [unescape]
  | cons c cs ih =>
      have others := ih fun before after split => none (c :: before) after (by rw [split]; rfl)
      by_cases backslash : c = '\\'
      · subst backslash
        rcases unescape_backslash cs with ⟨-, kept⟩ | ⟨some, -⟩
        · rw [kept, others]
        · exact absurd (none [] cs rfl) some
      · rw [unescape_cons backslash, others]

/-- The content that the characters between two quotes are read as: their tabs are expanded, from
some column on, and then their escapes are replaced. -/
structure ReadAs (written content : String) : Prop where
  replaced : ∃ column, content.toList = unescape (expandTabs column written.toList)
  kept : content = written ↔ Verbatim written

theorem readAs_of_replaced {written content : String} (column : Nat)
    (same : content.toList = unescape (expandTabs column written.toList)) :
    ReadAs written content := by
  refine ⟨⟨column, same⟩, ?_, ?_⟩
  · rintro rfl
    obtain ⟨tabs, escapes⟩ := verbatim_of_unescape_eq same.symm
    exact ⟨tabs, escapes⟩
  · rintro ⟨tabs, escapes⟩
    rw [expandTabs_of_not_mem tabs, unescape_of_none escapes] at same
    exact String.toList_injective same

instance (content : String) : Decidable (Verbatim content) :=
  decidable_of_iff (unescape (expandTabs 0 content.toList) = content.toList) (by
    have readAs : ReadAs content (String.ofList (unescape (expandTabs 0 content.toList))) :=
      readAs_of_replaced 0 String.toList_ofList
    rw [← readAs.kept, ← String.toList_inj, String.toList_ofList])

/-! ## Literals in a text -/

theorem isContent_of_mem_expandTabs {quote c : Char} {cs : List Char} {column : Nat}
    (quotes : isQuote quote = true) (inside : ∀ x ∈ cs, isContent quote x = true)
    (mem : c ∈ expandTabs column cs) : isContent quote c = true := by
  rcases mem_expandTabs mem with rfl | ⟨mem, -⟩
  · rcases eq_of_isQuote quotes with rfl | rfl <;> decide
  · exact inside c mem

theorem literalCarried_readAs (written : String) :
    LiteralCarried id unescape Expanded ReadAs written := by
  rintro text rest _ ⟨column, rfl⟩ ⟨gap, spelling, spaces, spells, rfl⟩
  obtain ⟨column₁, gapExpanded⟩ := expandTabs_append gap column
  cases spells with
  | @literal quote cs quotes inside =>
      have quoteTab : quote ≠ '\t' := by rcases eq_of_isQuote quotes with rfl | rfl <;> decide
      obtain ⟨column₂, opened⟩ := expandTabs_cons quoteTab column₁ (cs ++ ([quote] ++ rest))
      obtain ⟨column₃, contentExpanded⟩ := expandTabs_append cs column₂
      obtain ⟨column₄, closed⟩ := expandTabs_cons quoteTab column₃ rest
      refine ⟨String.ofList (unescape (expandTabs column₂ cs)), expandTabs column₄ rest,
        readAs_of_replaced column₂ (by simp), ⟨column₄, rfl⟩, expandTabs column gap,
        quote :: (expandTabs column₂ cs ++ [quote]), isSpace_of_mem_expandTabs spaces column,
        .literal quotes fun x mem => isContent_of_mem_expandTabs quotes inside mem, ?_⟩
      rw [gapExpanded, List.cons_append, List.append_assoc, opened, contentExpanded,
        List.singleton_append, closed]
      simp

/-! ## Calls with other arguments -/

section
variable {alike : String → String → Prop}

theorem Method.exists_written {method : Method} {written' : WrittenMethod}
    (same : method.written.Alike alike written') :
    ∃ method' : Method, method'.written = written' := by
  cases method with
  | isPresent =>
      cases same with
      | called same =>
          cases same
          exact ⟨.isPresent, rfl⟩
  | isAnyOf => cases same with | called => exact ⟨.isAnyOf _, rfl⟩
  | isAllOf => cases same with | called => exact ⟨.isAllOf _, rfl⟩
  | isOnly => cases same with | called => exact ⟨.isOnly _, rfl⟩
  | isEach => cases same with | called => exact ⟨.isEach _, rfl⟩

theorem Call.exists_written {call : Call} {written' : WrittenCall}
    (same : call.written.Alike alike written') : ∃ call' : Call, call'.written = written' := by
  cases call with
  | anyOf => cases same with | plain => exact ⟨.anyOf _, rfl⟩
  | allOf => cases same with | plain => exact ⟨.allOf _, rfl⟩
  | noneOf => cases same with | plain => exact ⟨.noneOf _, rfl⟩
  | valuesFor name method =>
      cases method with
      | none =>
          cases same with
          | plain same =>
              obtain ⟨name', _, -, none, rfl⟩ := List.forall₂_cons_left_iff.1 same
              cases none
              exact ⟨.valuesFor name' none, rfl⟩
      | some method =>
          cases same with
          | chained same sameMethod =>
              obtain ⟨name', _, -, none, rfl⟩ := List.forall₂_cons_left_iff.1 same
              cases none
              obtain ⟨method', rfl⟩ := Method.exists_written sameMethod
              exact ⟨.valuesFor name' (some method'), rfl⟩

theorem Call.written_injective {call other : Call} (same : call.written = other.written) :
    call = other := by
  have checked := call.check_written
  rw [same, other.check_written] at checked
  exact (Except.ok.inj checked).symm

theorem Call.WrittenAs.transfer {call : Call} {written written' : WrittenCall}
    (form : call.WrittenAs written) (same : written.Alike alike written') :
    ∃ call' : Call, call'.WrittenAs written' ∧ call.written.Alike alike call'.written := by
  cases form with
  | full =>
      obtain ⟨call', rfl⟩ := Call.exists_written same
      exact ⟨call', .full call', same⟩
  | bare name =>
      cases same with
      | chained same sameMethod =>
          obtain ⟨name', _, alikeName, none, rfl⟩ := List.forall₂_cons_left_iff.1 same
          cases none
          cases sameMethod with
          | bare =>
              exact ⟨.valuesFor name' (some .isPresent), .bare name',
                .chained (.cons alikeName .nil) (.called .nil)⟩

end

def Call.ReadAs (written call : Call) : Prop := written.written.Alike Selector.ReadAs call.written

theorem writes_readAs {call : Call} {text rest text' : List Char} (expanded : Expanded text text')
    (writes : Writes id text call rest) :
    ∃ call' rest', call.ReadAs call' ∧ Expanded rest rest' ∧ Writes unescape text' call' rest' := by
  obtain ⟨written, phrase, form⟩ := writes
  obtain ⟨written', rest', same, expanded', phrase'⟩ :=
    phrase.transfer marksCarried_expanded (fun s _ => literalCarried_readAs s) expanded
  obtain ⟨call', form', readAs⟩ := form.transfer same
  exact ⟨call', rest', readAs, expanded', written', phrase', form'⟩

theorem Renders.readAs {source : String} {written : Selector} (renders : Renders source written) :
    ∃ selector : Selector, parse source = .ok selector ∧ written.Alike Call.ReadAs selector := by
  have calls : ∀ call ∈ written.calls, ∀ {text rest text' : List Char}, Expanded text text' →
      Writes id text call rest → ∃ (call' : Call) (rest' : List Char),
        call.ReadAs call' ∧ Expanded rest rest' ∧ Writes unescape text' call' rest' :=
    fun _ _ => writes_readAs
  obtain ⟨rest, derivation, spaces⟩ := renders
  obtain ⟨selector, _, same, ⟨column, rfl⟩, derivation'⟩ :=
    derivation.transfer marksCarried_expanded calls ⟨0, rfl⟩
  have spaces' := isSpace_of_mem_expandTabs spaces column
  exact ⟨selector, parse_eq_ok_iff.2 ⟨_, derivation', spaces'⟩, same⟩

/-! ## Selecting by a tag text -/

theorem spells_literal {content : String} (quote : Char) (quotes : isQuote quote = true)
    (inside : ∀ c ∈ content.toList, isContent quote c = true) :
    (Token.literal content).Spells id (quote :: (content.toList ++ [quote])) := by
  have spells : (Token.literal (String.ofList content.toList)).Spells id _ := .literal quotes inside
  rwa [String.ofList_toList] at spells

theorem renders_anyOf {content : String} (inside : ∀ c ∈ content.toList, isContent '\'' c = true) :
    Renders ("anyOf('" ++ content ++ "')") (.call (.anyOf [content])) := by
  have literal := spells_literal '\'' rfl inside
  have phrase : CallPhrase id
      ("anyOf".toList ++ ('(' :: ('\'' :: (content.toList ++ ['\'']) ++ [')'])))
      (Call.anyOf [content]).written [] :=
    .mk (starts_word (by decide) _) (.some (Token.Spells.opening.starts _) (literal.starts _)
      (.close (Token.Spells.closing.starts []))) .absent
  refine ⟨[], .single (.unary (.primary (.call ⟨_, ?_, .full _⟩))), by simp⟩
  simpa using phrase

theorem Call.ReadAs.anyOf {written : String} {call : Call}
    (readAs : (Call.anyOf [written]).ReadAs call) :
    ∃ content, call = .anyOf [content] ∧
      ∃ column, content.toList = unescape (expandTabs column written.toList) := by
  unfold Call.ReadAs at readAs
  generalize found : call.written = written' at readAs
  cases readAs with
  | plain same =>
      obtain ⟨content, _, readAs, none, rfl⟩ := List.forall₂_cons_left_iff.1 same
      cases none
      exact ⟨content, Call.written_injective found, readAs.replaced⟩

theorem selected_by_tag {text : String} (inside : ∀ c ∈ text.toList, isContent '\'' c = true) :
    ∃ content, ReadAs text content ∧ ∀ set : TagSet,
      set.isSelectedBy (.text ("anyOf('@" ++ text ++ "')")) = .ok (set.texts.contains content) := by
  have joined : "anyOf('@" ++ text ++ "')" = "anyOf('" ++ Tag.marked text ++ "')" := by
    apply String.toList_injective
    simp [Tag.marked]
  have marked : ∀ c ∈ (Tag.marked text).toList, isContent '\'' c = true := by
    intro c mem
    rw [Tag.marked, String.toList_append, List.mem_append] at mem
    rcases mem with mem | mem
    · rw [List.mem_singleton.1 mem]
      decide
    · exact inside c mem
  obtain ⟨selector, parsed, same⟩ := (renders_anyOf marked).readAs
  cases same with
  | call readAs =>
      obtain ⟨query, rfl, column, same⟩ := readAs.anyOf
      obtain ⟨column', expanded⟩ := expandTabs_cons (by decide : '@' ≠ '\t') column text.toList
      let content := String.ofList (unescape (expandTabs column' text.toList))
      have split : query = Tag.marked content := by
        apply String.toList_injective
        calc query.toList = unescape (expandTabs column ('@' :: text.toList)) := by
              rw [same, Tag.marked, String.toList_append]
              rfl
          _ = '@' :: unescape (expandTabs column' text.toList) := by
              rw [expanded, unescape_cons (by decide)]
          _ = (Tag.marked content).toList := by
              simp [Tag.marked, content]
      refine ⟨content, readAs_of_replaced column' String.toList_ofList, fun set => ?_⟩
      have answered : Tree.evaluate set (.call (.anyOf [query])) =
          .ok (.verdict (set.contains query || false)) := rfl
      rw [joined, isSelectedBy_of_verdict parsed answered, Bool.or_false, TagSet.contains, split,
        Tag.unmarked_marked]

/-- The arguments of an accepted text are what stands between the quotes exactly where that has no
tab and no escape, and so a tag is found by its text exactly if the text has none. -/
theorem literals_verbatim_iff {source text : String} {written : Selector}
    (renders : Renders source written) (inside : ∀ c ∈ text.toList, isContent '\'' c = true) :
    (∃ selector : Selector, parse source = .ok selector ∧ written.Alike Call.ReadAs selector) ∧
    ((∀ set : TagSet, text ∈ set.texts →
      set.isSelectedBy (.text ("anyOf('@" ++ text ++ "')")) = .ok true) ↔ Verbatim text) := by
  refine ⟨renders.readAs, ?_⟩
  obtain ⟨content, readAs, selected⟩ := selected_by_tag inside
  rw [← readAs.kept]
  constructor
  · intro all
    have found := all ⟨[.ofText text (.number 0)]⟩ List.mem_cons_self
    rw [selected, Except.ok.injEq, List.contains_iff_mem] at found
    exact List.mem_singleton.1 found
  · rintro rfl set mem
    rw [selected, List.contains_iff_mem.2 mem]

theorem literals_verbatim_iff_backslash :
    (∃ (source : String) (written selector : Selector),
      source = "valuesFor(\"it's\").isAnyOf('\\d', 'a\\tb')" ∧
      written = .call (.valuesFor "it's" (some (.isAnyOf ["\\d", "a\\tb"]))) ∧
      parse source = .ok selector ∧ written.Alike Call.ReadAs selector) ∧
    ∀ set : TagSet, "a\\d" ∈ set.texts →
      set.isSelectedBy (.text ("anyOf('@" ++ "a\\d" ++ "')")) = .ok true := by
  have chained : MethodPart id ".isAnyOf('\\d', 'a\\tb')".toList
      (some ⟨"isAnyOf", some ["\\d", "a\\tb"]⟩) [] :=
    .called (Token.Spells.dot.starts _)
      (starts_word (by decide : isWord "isAnyOf" = true) _)
      (.some (Token.Spells.opening.starts _)
        ((spells_literal '\'' rfl (List.all_eq_true.1 (by decide))).starts _)
        (.next (Token.Spells.comma.starts _)
          (((spells_literal '\'' rfl (List.all_eq_true.1 (by decide))).starts _).after [' '] rfl)
          (.close (Token.Spells.closing.starts []))))
  have call : CallPhrase id "valuesFor(\"it's\").isAnyOf('\\d', 'a\\tb')".toList
      (Call.valuesFor "it's" (some (.isAnyOf ["\\d", "a\\tb"]))).written [] :=
    .mk (starts_word (by decide : isWord "valuesFor" = true) _)
      (.some (Token.Spells.opening.starts _)
        ((spells_literal '"' rfl (List.all_eq_true.1 (by decide))).starts _)
        (.close (Token.Spells.closing.starts _))) chained
  have renders : Renders "valuesFor(\"it's\").isAnyOf('\\d', 'a\\tb')" _ :=
    ⟨[], .single (.unary (.primary (.call ⟨_, call, .full _⟩))), by simp⟩
  have inside : ∀ c ∈ "a\\d".toList, isContent '\'' c = true := List.all_eq_true.1 rfl
  obtain ⟨⟨selector, parsed, same⟩, selected⟩ := literals_verbatim_iff renders inside
  exact ⟨⟨_, _, selector, rfl, rfl, parsed, same⟩, selected.2 (by decide +kernel)⟩

/-- A backslash and a letter are read as a control character, and a tab as spaces. -/
theorem literal_escape_tab :
    (Renders "anyOf('a\\tb')" (.call (.anyOf ["a\\tb"])) ∧
      parse "anyOf('a\\tb')" = .ok (.call (.anyOf ["a\tb"]))) ∧
    (Renders "anyOf('a\tb')" (.call (.anyOf ["a\tb"])) ∧
      parse "anyOf('a\tb')" = .ok (.call (.anyOf ["a        b"]))) ∧
    ∃ set : TagSet, "a\\tb" ∈ set.texts ∧
      set.isSelectedBy (.text ("anyOf('@" ++ "a\\tb" ++ "')")) = .ok false := by
  have rendersEscape : Renders ("anyOf('" ++ "a\\tb" ++ "')") _ :=
    renders_anyOf (List.all_eq_true.1 rfl)
  have rendersTab : Renders ("anyOf('" ++ "a\tb" ++ "')") _ :=
    renders_anyOf (List.all_eq_true.1 rfl)
  have joinedEscape : "anyOf('" ++ "a\\tb" ++ "')" = "anyOf('a\\tb')" := by decide
  have joinedTab : "anyOf('" ++ "a\tb" ++ "')" = "anyOf('a\tb')" := by decide
  rw [joinedEscape] at rendersEscape
  rw [joinedTab] at rendersTab
  refine ⟨⟨rendersEscape, parse_eq_ok_iff_readText.2 (by decide +kernel)⟩,
    ⟨rendersTab, parse_eq_ok_iff_readText.2 (by decide +kernel)⟩,
    ⟨[.ofString "@a\\tb" (.number 1)]⟩, by decide, ?_⟩
  have parsed : parse ("anyOf('@" ++ "a\\tb" ++ "')") = .ok (.call (.anyOf ["@a\tb"])) :=
    parse_eq_ok_iff_readText.2 (by decide +kernel)
  apply isSelectedBy_of_verdict parsed
  have missed : TagSet.anyOf ⟨[.ofString "@a\\tb" (.number 1)]⟩ ["@a\tb"] = false := by
    decide +kernel
  rw [Tree.evaluate, Call.evaluate, missed]

end TagQuery.Selector
