import TagQuery.Proofs.Selector.Printing

/-!
# Renderings of a selector

A rendering spells a tree with its literals taken as they stand. It may put any space between
tokens and at both ends, either quote around an argument, and any number of parentheses around an
operand; an operand that binds looser than its place, or that is a left operand of the same
operator, has to be in parentheses. All renderings of a tree are read as that tree.

Expanding tabs comes first and must not change a token. It turns space into space, and it touches
nothing else as long as no argument holds a tab.
-/

namespace TagQuery.Selector

/-! ## Tabs and escapes -/

theorem expandTabs_append (before : List Char) (column : Nat) :
    ∃ column', ∀ after, expandTabs column (before ++ after) =
      expandTabs column before ++ expandTabs column' after := by
  induction before generalizing column with
  | nil => exact ⟨column, fun after => rfl⟩
  | cons c cs ih =>
      simp only [List.cons_append, expandTabs]
      split
      · obtain ⟨column', same⟩ := ih 0
        exact ⟨column', fun after => by rw [same, List.append_assoc]⟩
      · split
        · obtain ⟨column', same⟩ := ih 0
          exact ⟨column', fun after => by rw [same, List.cons_append]⟩
        · obtain ⟨column', same⟩ := ih (column + 1)
          exact ⟨column', fun after => by rw [same, List.cons_append]⟩

@[simp] theorem expandTabs_of_not_mem {cs : List Char} (none : '\t' ∉ cs) (column : Nat) :
    expandTabs column cs = cs := by
  induction cs generalizing column with
  | nil => rfl
  | cons c cs ih =>
      have h₁ : c ≠ '\t' := fun same => none (same ▸ List.mem_cons_self)
      have h₂ : '\t' ∉ cs := fun mem => none (List.mem_cons_of_mem c mem)
      simp [expandTabs, h₁, ih h₂]

theorem mem_expandTabs {cs : List Char} {column : Nat} {c : Char} (mem : c ∈ expandTabs column cs) :
    c = ' ' ∨ (c ∈ cs ∧ c ≠ '\t') := by
  induction cs generalizing column with
  | nil => cases mem
  | cons d cs ih =>
      have later {column : Nat} (mem : c ∈ expandTabs column cs) :
          c = ' ' ∨ (c ∈ d :: cs ∧ c ≠ '\t') :=
        (ih mem).imp_right fun kept => ⟨List.mem_cons_of_mem d kept.1, kept.2⟩
      rw [expandTabs] at mem
      split at mem
      · rcases List.mem_append.1 mem with mem | mem
        · exact .inl (List.eq_of_mem_replicate mem)
        · exact later mem
      · rename_i other
        split at mem
        all_goals
          rcases List.mem_cons.1 mem with rfl | mem
          · exact .inr ⟨List.mem_cons_self, other⟩
          · exact later mem

@[simp] theorem tab_not_mem_expandTabs (cs : List Char) (column : Nat) : '\t' ∉ expandTabs column cs := by
  intro mem
  rcases mem_expandTabs mem with space | ⟨-, other⟩
  · exact absurd space (by decide)
  · exact other rfl

theorem isSpace_of_mem_expandTabs {gap : List Char} (spaces : ∀ c ∈ gap, Text.isSpace c = true)
    (column : Nat) : ∀ c ∈ expandTabs column gap, Text.isSpace c = true := by
  intro c mem
  rcases mem_expandTabs mem with rfl | ⟨mem, -⟩
  · rfl
  · exact spaces c mem

@[simp] theorem unescape_of_not_mem {cs : List Char} (none : '\\' ∉ cs) : unescape cs = cs := by
  induction cs with
  | nil => rw [unescape]
  | cons c cs ih =>
      have h₁ : c ≠ '\\' := fun same => none (same ▸ List.mem_cons_self)
      have h₂ : '\\' ∉ cs := fun mem => none (List.mem_cons_of_mem c mem)
      simp [unescape, h₁, ih h₂]

/-! ## Tokens under expansion -/

def Expanded (text text' : List Char) : Prop := ∃ column, text' = expandTabs column text

theorem carried_of_spelling {token : Token}
    (kept : ∀ spelling, token.Spells id spelling →
      '\t' ∉ spelling ∧ token.Spells unescape spelling) :
    token.Carried id unescape Expanded := by
  rintro text rest _ ⟨column, rfl⟩ ⟨gap, spelling, spaces, spells, rfl⟩
  obtain ⟨none, spells'⟩ := kept spelling spells
  obtain ⟨column₁, same₁⟩ := expandTabs_append gap column
  obtain ⟨column₂, same₂⟩ := expandTabs_append spelling column₁
  refine ⟨_, ⟨column₂, rfl⟩, expandTabs column gap, spelling,
    isSpace_of_mem_expandTabs spaces column, spells', ?_⟩
  rw [same₁, same₂, expandTabs_of_not_mem none]

theorem marksCarried_expanded : MarksCarried id unescape Expanded := by
  intro token mark
  apply carried_of_spelling
  intro spelling spells
  cases spells with
  | @word c cs first others =>
      refine ⟨fun mem => ?_, .word first others⟩
      rcases List.mem_cons.mp mem with rfl | mem
      · exact absurd first (by decide)
      · exact absurd (others _ mem) (by decide)
  | literal => exact absurd rfl (mark _)
  | _ => exact ⟨by decide, by constructor⟩

theorem literalCarried_expanded {content : String} (plain : Plain content) :
    (Token.literal content).Carried id unescape Expanded := by
  apply carried_of_spelling
  intro spelling spells
  cases spells with
  | @literal quote cs quotes inside =>
      obtain ⟨tabs, escapes, -, -⟩ := plain
      rw [id_eq, String.toList_ofList] at tabs escapes
      constructor
      · rcases eq_of_isQuote quotes with rfl | rfl <;> simp [tabs]
      · have literal : Token.Spells unescape _ _ := .literal quotes inside
        rwa [unescape_of_not_mem escapes] at literal

theorem Call.WrittenAs.contents {call : Call} {written : WrittenCall}
    (form : call.WrittenAs written) : written.contents = call.written.contents := by
  cases form <;> rfl

theorem writes_expanded {call : Call} (plain : ∀ s ∈ call.written.contents, Plain s)
    {text rest text' : List Char} (expanded : Expanded text text')
    (writes : Writes id text call rest) :
    ∃ rest', Expanded rest rest' ∧ Writes unescape text' call rest' := by
  obtain ⟨written, phrase, form⟩ := writes
  have literals : ∀ s ∈ written.contents, (Token.literal s).Carried id unescape Expanded :=
    fun s mem => literalCarried_expanded (plain s (form.contents ▸ mem))
  obtain ⟨rest', expanded', phrase'⟩ := phrase.carry marksCarried_expanded literals expanded
  exact ⟨rest', expanded', written, phrase', form⟩

/-- The text is a rendering of the selector: its literals stand for what is between the quotes. -/
def Renders (source : String) (tree : Selector) : Prop := Spells id (Writes id) source.toList tree

def Tree.arguments (tree : Selector) : List String :=
  tree.calls.flatMap fun call => call.written.contents

theorem Tree.contents_subset {tree : Selector} {call : Call} (mem : call ∈ tree.calls) :
    call.written.contents ⊆ tree.arguments :=
  fun _ arg => List.mem_flatMap.mpr ⟨call, mem, arg⟩

theorem Renders.spells {source : String} {tree : Selector} (renders : Renders source tree)
    (plain : ∀ s ∈ tree.arguments, Plain s) :
    Spells unescape (Writes unescape) (expandTabs 0 source.toList) tree := by
  obtain ⟨rest, derivation, spaces⟩ := renders
  obtain ⟨_, ⟨column, rfl⟩, derivation'⟩ := derivation.carry marksCarried_expanded
    (fun call mem => writes_expanded fun s arg => plain s (Tree.contents_subset mem arg)) ⟨0, rfl⟩
  exact ⟨_, derivation', isSpace_of_mem_expandTabs spaces column⟩

theorem renders_text {tree : Selector} (plain : ∀ s ∈ tree.arguments, Plain s) :
    Renders (String.ofList tree.text) tree := by
  rw [Renders, String.toList_ofList]
  exact spells_text fun call mem s arg => plain s (Tree.contents_subset mem arg)

/-- A selector with plain arguments has renderings, and each of them is read as the selector. -/
theorem parse_renderings {tree : Selector} (plain : ∀ s ∈ tree.arguments, Plain s) :
    (∃ source, Renders source tree) ∧
      ∀ source, Renders source tree → parse source = .ok tree := by
  refine ⟨⟨_, renders_text plain⟩, ?_⟩
  intro source renders
  exact parse_eq_ok_iff.mpr (renders.spells plain)

theorem parse_renderings_nested :
    ∃ tree, (∀ s ∈ Tree.arguments tree, Plain s) ∧
      Renders "!\t((valuesFor(\"it's\").isPresent))&& allOf( 'a')\n" tree ∧
      parse "!\t((valuesFor(\"it's\").isPresent))&& allOf( 'a')\n" = .ok tree := by
  let negated : Selector := .negation (.call (.valuesFor "it's" (some .isPresent)))
  let tree : Selector := .conjunction negated (.call (.allOf ["a"]))
  have plain : ∀ s ∈ tree.arguments, Plain s := by
    intro s mem
    have known : s ∈ ["it's", "a"] := mem
    simp only [List.mem_cons, List.not_mem_nil, or_false] at known
    rcases known with rfl | rfl <;> constructor <;> decide
  have renders : Renders "!\t((valuesFor(\"it's\").isPresent))&& allOf( 'a')\n" tree := by
    -- The text is cut where each call begins.
    let first : List Char := "valuesFor".toList ++ ('(' :: (literalText "it's" ++
      (')' :: '.' :: ("isPresent".toList ++ (')' :: ')' :: "&& allOf( 'a')\n".toList)))))
    let last : List Char := ' ' :: ("allOf".toList ++ ('(' :: ' ' :: (literalText "a" ++
      [')', '\n'])))
    have valuesCall : Writes id first (.valuesFor "it's" (some .isPresent))
        (')' :: ')' :: '&' :: '&' :: last) :=
      ⟨_, .mk (starts_word (by decide) _)
        (.some (Token.Spells.opening.starts _) (starts_literalText (plain _ (by decide)) _)
          (.close (Token.Spells.closing.starts _)))
        (.bare (Token.Spells.dot.starts _) (starts_word (by decide) _)), .bare "it's"⟩
    have allCall : Writes id last (.allOf ["a"]) ['\n'] :=
      ⟨_, .mk ((starts_word (by decide) _).after [' '] rfl)
        (.some (Token.Spells.opening.starts _)
          ((starts_literalText (plain _ (by decide)) _).after [' '] rfl)
          (.close (Token.Spells.closing.starts _)))
        .absent, .full (.allOf ["a"])⟩
    have inner : Derives id (Writes id) .unary ('(' :: first) _ _ :=
      .parenthesized (.single (.unary (.primary (.call valuesCall))))
    have operand : Derives id (Writes id) .unary ('!' :: '\t' :: '(' :: '(' :: first) negated _ :=
      .negation (Token.Spells.bang.starts _) (.primary (.parenthesis
        ((Token.Spells.opening.starts _).after ['\t'] rfl) (.single (.unary inner))
        (Token.Spells.closing.starts _)))
    have text : "!\t((valuesFor(\"it's\").isPresent))&& allOf( 'a')\n".toList =
      '!' :: '\t' :: '(' :: '(' :: first := by decide
    rw [Renders, text]
    exact ⟨['\n'], .single (.conjunction operand (Token.Spells.both.starts _)
      (.unary (.primary (.call allCall)))), List.all_eq_true.1 rfl⟩
  exact ⟨tree, plain, renders, (parse_renderings plain).2 _ renders⟩

end TagQuery.Selector
