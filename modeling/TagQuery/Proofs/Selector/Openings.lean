import TagQuery.Proofs.Selector.Chains
import TagQuery.Proofs.Selector.Rendering

namespace TagQuery.Selector

/-! ## What stands before a call -/

def lastSolid (cs : List Char) : Option Char := (Text.skipSpace cs.reverse).head?

theorem lastSolid_append_spaces {cs gap : List Char} (spaces : ∀ c ∈ gap, Text.isSpace c = true) :
    lastSolid (cs ++ gap) = lastSolid cs := by
  rw [lastSolid, lastSolid, List.reverse_append, Text.skipSpace,
    List.dropWhile_append_of_pos fun c mem => spaces c (List.mem_reverse.1 mem), Text.skipSpace]

theorem lastSolid_append_solid {cs : List Char} {c : Char} (solid : Text.isSpace c = false) :
    lastSolid (cs ++ [c]) = some c := by
  rw [lastSolid, List.reverse_append, List.reverse_singleton, List.singleton_append,
    Text.skipSpace, List.dropWhile_cons_of_neg (by simp [solid])]
  rfl

/-! ## Texts in which each parenthesis opens a call behind a conjunction -/

/-- The opening parentheses of a text stand behind the names in order, each of them behind a
conjunction. -/
inductive Openings : List String → List Char → Prop
  | none {text : List Char} (closed : '(' ∉ text) : Openings [] text
  | next {between : List Char} {name : String} {names : List String} {text : List Char}
      (closed : '(' ∉ between) (more : Openings names text) :
      Openings (name :: names) (between ++ (joint ++ (name.toList ++ '(' :: text)))

theorem Openings.prepend {names : List String} {text lead : List Char} (closed : '(' ∉ lead)
    (openings : Openings names text) : Openings names (lead ++ text) := by
  cases openings with
  | none closed' => exact .none (by simp [closed, closed'])
  | @next between name names text closed' more =>
      rw [← List.append_assoc]
      exact .next (by simp [closed, closed']) more

theorem Openings.split {names : List String} {before after : List Char}
    (words : ∀ name ∈ names, '(' ∉ name.toList) (openings : Openings names (before ++ '(' :: after)) :
    ∃ front name others, before = front ++ (joint ++ name.toList) ∧ (name :: others) <:+ names ∧
      Openings others after := by
  generalize split : before ++ '(' :: after = text at openings
  induction openings generalizing before with
  | none closed => exact absurd (by simp [← split]) closed
  | @next between name names text closed more ih =>
      have closedName := words name List.mem_cons_self
      have closedLead : '(' ∉ between ++ (joint ++ name.toList) := by
        simp [closed, closedName, joint]
      have split : before ++ '(' :: after = (between ++ (joint ++ name.toList)) ++ '(' :: text := by
        simpa using split
      rcases Text.cut_or_later closedLead split.symm with ⟨rfl, rfl⟩ | ⟨later, rfl, rfl⟩
      · exact ⟨between, name, names, rfl, List.suffix_rfl, more⟩
      · obtain ⟨front, name', rest, rfl, suffix, openings⟩ :=
          ih (fun other mem => words other (List.mem_cons_of_mem _ mem)) rfl
        refine ⟨between ++ (joint ++ name.toList) ++ '(' :: front, name', rest, by simp, ?_,
          openings⟩
        exact suffix.trans (List.suffix_cons _ _)

/-! ## Where a call stands among them -/

theorem functionName_eq {before front gap : List Char} {function name : String}
    (called : function ∈ functionNames) (known : name ∈ functionNames)
    (spaces : ∀ c ∈ gap, Text.isSpace c = true)
    (split : before ++ (function.toList ++ gap) = front ++ (joint ++ name.toList)) :
    gap = [] ∧ function = name ∧ before = front ++ joint := by
  -- No function name ends in another one, so that the texts are compared from their ends.
  simp only [functionNames, List.mem_cons, List.not_mem_nil, or_false] at called known
  have reversed := congrArg List.reverse split
  have tight : gap = [] := by
    rcases List.eq_nil_or_concat gap with none | ⟨others, c, rfl⟩
    · exact none
    · have space := spaces c (by simp)
      rcases known with rfl | rfl | rfl | rfl <;> simp [joint] at reversed <;>
        rw [reversed.1] at space <;> cases space
  subst tight
  refine ⟨rfl, ?_⟩
  rcases called with rfl | rfl | rfl | rfl <;> rcases known with rfl | rfl | rfl | rfl <;>
    simp [joint] at reversed
  all_goals
    refine ⟨rfl, List.reverse_injective ?_⟩
    simpa [joint] using reversed

section
variable {decode : List Char → List Char} {names : List String} {before text rest : List Char}

theorem Openings.call {call : Call} (known : names ⊆ functionNames)
    (openings : Openings names (before ++ text)) (writes : Writes decode text call rest) :
    lastSolid before = some '&' ∧ ∃ others consumed,
      (call.written.function :: others) <:+ names ∧ Openings others (consumed ++ rest) := by
  obtain ⟨gap, gap', inner, rfl, spaces, spaces', consumed, rfl⟩ := writes.opened
  have words : ∀ name ∈ names, '(' ∉ name.toList := by
    have functions : ∀ name ∈ functionNames, '(' ∉ name.toList := by decide
    exact fun name mem => functions name (known mem)
  have split :
      before ++ (gap ++ (call.written.function.toList ++ (gap' ++ '(' :: (consumed ++ rest)))) =
      (before ++ gap) ++ (call.written.function.toList ++ gap') ++ '(' :: (consumed ++ rest) := by
    simp
  rw [split] at openings
  obtain ⟨front, name, others, ends, suffix, inside⟩ := openings.split words
  obtain ⟨-, rfl, conjoined⟩ := functionName_eq call.written_wellFormed.known
    (known (suffix.subset List.mem_cons_self)) spaces' ends
  refine ⟨?_, others, consumed, suffix, inside⟩
  calc lastSolid before = lastSolid (before ++ gap) := (lastSolid_append_spaces spaces).symm
    _ = lastSolid (front ++ [' ', '&'] ++ ['&'] ++ [' ']) := by simp [conjoined, joint]
    _ = lastSolid (front ++ [' ', '&'] ++ ['&']) :=
        lastSolid_append_spaces (by simp [Text.isSpace])
    _ = some '&' := lastSolid_append_solid rfl

def Chained (decode : List Char → List Char) (before text : List Char) (level : Level)
    (tree : Selector) (rest : List Char) : Prop :=
  lastSolid before = some '&' ∧ ∃ first others, ChainPhrase decode text first others rest ∧
    tree = .chain first others ∧ (level = .primary ∨ level = .unary → others = [])

theorem Token.Starts.not_conjoined {token : Token} (starts : token.Starts decode text rest)
    (other : token ∈ [Token.bang, .opening, .either]) :
    ∃ lead, text = lead ++ rest ∧ ∀ before, lastSolid (before ++ lead) ≠ some '&' := by
  have last : ∀ spelling, token.Spells decode spelling →
      ∃ front c, spelling = front ++ [c] ∧ Text.isSpace c = false ∧ c ≠ '&' := by
    simp only [List.mem_cons, List.not_mem_nil, or_false] at other
    rintro spelling spells
    rcases other with rfl | rfl | rfl <;> cases spells
    · exact ⟨[], '!', rfl, rfl, by decide⟩
    · exact ⟨[], '(', rfl, rfl, by decide⟩
    · exact ⟨['|'], '|', rfl, rfl, by decide⟩
  obtain ⟨gap, spelling, -, spells, rfl⟩ := starts
  obtain ⟨front, c, rfl, solid, differs⟩ := last spelling spells
  refine ⟨gap ++ (front ++ [c]), by simp, fun before => ?_⟩
  rw [← List.append_assoc, ← List.append_assoc, lastSolid_append_solid solid]
  simpa using differs

theorem Openings.chained (known : names ⊆ functionNames) (openings : Openings names (before ++ text))
    {level : Level} {tree : Selector}
    (derivation : Derives decode (Writes decode) level text tree rest) :
    Chained decode before text level tree rest := by
  -- Whatever precedes an operand precedes its first call, which only a conjunction does.
  induction derivation generalizing before with
  | call writes =>
      obtain ⟨conjoined, -⟩ := openings.call known writes
      exact ⟨conjoined, _, [], .last writes, rfl, fun _ => rfl⟩
  | parenthesis opened _ _ ih =>
      obtain ⟨lead, rfl, unjoined⟩ := opened.not_conjoined (by simp)
      rw [← List.append_assoc] at openings
      exact absurd (ih openings).1 (unjoined before)
  | primary _ ih =>
      obtain ⟨conjoined, first, others, phrase, rfl, single⟩ := ih openings
      exact ⟨conjoined, first, others, phrase, rfl, fun _ => single (.inl rfl)⟩
  | negation bang _ ih =>
      obtain ⟨lead, rfl, unjoined⟩ := bang.not_conjoined (by simp)
      rw [← List.append_assoc] at openings
      exact absurd (ih openings).1 (unjoined before)
  | unary _ ih =>
      obtain ⟨conjoined, first, others, phrase, rfl, -⟩ := ih openings
      exact ⟨conjoined, first, others, phrase, rfl, by simp⟩
  | conjunction first both _ ihFirst ihOthers =>
      obtain ⟨conjoined, call, others, phrase, rfl, single⟩ := ihFirst openings
      obtain rfl := single (.inr rfl)
      cases phrase with
      | last writes =>
          obtain ⟨consumed, rfl⟩ := writes.suffix
          obtain ⟨lead, rfl⟩ := both.suffix
          rw [← List.append_assoc, ← List.append_assoc] at openings
          obtain ⟨-, following, others, phrase, rfl, -⟩ := ihOthers openings
          exact ⟨conjoined, call, following :: others, .next writes both phrase, rfl, by simp⟩
  | single _ ih =>
      obtain ⟨conjoined, first, others, phrase, rfl, -⟩ := ih openings
      exact ⟨conjoined, first, others, phrase, rfl, by simp⟩
  | disjunction first either _ _ ihOthers =>
      obtain ⟨consumed, rfl⟩ := first.suffix Writes.suffix
      obtain ⟨lead, rfl, unjoined⟩ := either.not_conjoined (by simp)
      rw [← List.append_assoc, ← List.append_assoc] at openings
      exact absurd (ihOthers openings).1 (unjoined _)

theorem ChainPhrase.functions {first : Call} {others : List Call}
    (phrase : ChainPhrase decode text first others rest) (known : names ⊆ functionNames)
    (openings : Openings names (before ++ text)) :
    ((first :: others).map (·.written.function)).Sublist names := by
  induction phrase generalizing before names with
  | last writes =>
      obtain ⟨-, names', consumed, suffix, -⟩ := openings.call known writes
      exact (List.singleton_sublist.2 List.mem_cons_self).trans suffix.sublist
  | next writes both _ ih =>
      obtain ⟨-, names', consumed, suffix, openings⟩ := openings.call known writes
      obtain ⟨lead, rfl⟩ := both.suffix
      have known' : names' ⊆ functionNames := fun name mem =>
        known (suffix.subset (List.mem_cons_of_mem _ mem))
      rw [← List.append_assoc] at openings
      exact ((ih known' openings).cons_cons _).trans suffix.sublist

end

/-! ## Accepted texts -/

theorem not_mem_expandTabs {cs : List Char} (closed : '(' ∉ cs) (column : Nat) :
    '(' ∉ expandTabs column cs := by
  intro mem
  rcases mem_expandTabs mem with same | ⟨mem, -⟩
  · cases same
  · exact closed mem

theorem expandTabs_call {name : String} (known : name ∈ functionNames) (column : Nat)
    (inner : List Char) : ∃ column', expandTabs column (name.toList ++ '(' :: inner) =
      name.toList ++ '(' :: expandTabs column' inner := by
  have tabs : ∀ name ∈ functionNames, '\t' ∉ name.toList ++ ['('] := by decide
  obtain ⟨column', same⟩ := expandTabs_append (name.toList ++ ['(']) column
  refine ⟨column', ?_⟩
  have split := same inner
  simpa [tabs name known] using split

theorem Openings.expandTabs {names : List String} {text : List Char}
    (known : names ⊆ functionNames) (openings : Openings names text) (column : Nat) :
    Openings names (expandTabs column text) := by
  induction openings generalizing column with
  | none closed => exact .none (not_mem_expandTabs closed column)
  | @next between name names text closed more ih =>
      obtain ⟨column₁, same₁⟩ := expandTabs_append between column
      obtain ⟨column₂, same₂⟩ := expandTabs_append joint column₁
      obtain ⟨column₃, same₃⟩ := expandTabs_call (known List.mem_cons_self) column₂ text
      rw [same₁, same₂, same₃, expandTabs_of_not_mem (by decide : '\t' ∉ joint)]
      exact .next (not_mem_expandTabs closed column)
        (ih (fun other mem => known (List.mem_cons_of_mem _ mem)) column₃)

theorem chain_of_parse {source name : String} {inner : List Char} {names : List String}
    {tree : Selector} (text : source.toList = name.toList ++ '(' :: inner)
    (known : name :: names ⊆ functionNames) (openings : Openings names inner)
    (parsed : parse source = .ok tree) :
    ∃ first others rest, tree = .chain first others ∧ first.written.function = name ∧
      (others.map (·.written.function)).Sublist names ∧
      ChainPhrase unescape (Selector.expandTabs 0 source.toList) first others rest ∧
      ∀ c ∈ rest, Text.isSpace c = true := by
  obtain ⟨rest, derivation, spaces⟩ := parse_eq_ok_iff.1 parsed
  rw [text] at derivation ⊢
  obtain ⟨column, expanded⟩ := expandTabs_call (known List.mem_cons_self) 0 inner
  rw [expanded] at derivation ⊢
  have inside := openings.expandTabs (fun other mem => known (List.mem_cons_of_mem _ mem)) column
  have behind : Openings (name :: names)
      ([] ++ (joint ++ (name.toList ++ '(' :: Selector.expandTabs column inner))) :=
    .next (by simp) inside
  rw [List.nil_append] at behind
  obtain ⟨-, first, others, phrase, rfl, -⟩ := behind.chained known derivation
  obtain ⟨_, writes⟩ := phrase.head
  have words : ∀ name ∈ functionNames, isWord name = true := by decide
  rw [← List.nil_append (name.toList ++ _)] at writes
  obtain ⟨contents, method, _, form, -⟩ :=
    writes.named (by simp) (words name (known List.mem_cons_self))
  have named : first.written.function = name := form.function_eq.symm
  refine ⟨first, others, rest, rfl, named, ?_, phrase, spaces⟩
  have functions := phrase.functions known behind
  rw [List.map_cons, named] at functions
  exact List.Sublist.of_cons_cons functions

end TagQuery.Selector
