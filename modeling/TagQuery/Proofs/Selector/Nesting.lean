import TagQuery.Proofs.Selector.Rendering

namespace TagQuery.Selector

def Extended (more text text' : List Char) : Prop := text' = text ++ more

section
variable {decode : List Char → List Char}

theorem carried_extended (more : List Char) (token : Token) :
    token.Carried decode decode (Extended more) := by
  rintro text rest _ rfl ⟨gap, spelling, spaces, spells, rfl⟩
  exact ⟨rest ++ more, rfl, gap, spelling, spaces, spells, by simp only [List.append_assoc]⟩

theorem Writes.extended {text rest : List Char} {call : Call} (writes : Writes decode text call rest)
    (more : List Char) : Writes decode (text ++ more) call (rest ++ more) := by
  obtain ⟨written, phrase, form⟩ := writes
  obtain ⟨_, rfl, extended⟩ := phrase.carry (fun token _ => carried_extended more token)
    (fun _ _ => carried_extended more _) rfl
  exact ⟨written, extended, form⟩

theorem Derives.extended {level : Level} {text rest : List Char} {tree : Selector}
    (derivation : Derives decode (Writes decode) level text tree rest) (more : List Char) :
    Derives decode (Writes decode) level (text ++ more) tree (rest ++ more) := by
  have calls : ∀ call ∈ tree.calls, ∀ {text rest text' : List Char}, Extended more text text' →
      Writes decode text call rest →
      ∃ rest', Extended more rest rest' ∧ Writes decode text' call rest' := by
    rintro call - text rest _ rfl writes
    exact ⟨rest ++ more, rfl, writes.extended more⟩
  obtain ⟨_, rfl, extended⟩ :=
    derivation.carry (fun token _ => carried_extended more token) calls rfl
  exact extended

theorem Spells.negated {text : List Char} {tree : Selector}
    (spells : Spells decode (Writes decode) text tree) :
    Spells decode (Writes decode) ('!' :: '(' :: (text ++ [')'])) (.negation tree) := by
  obtain ⟨rest, derivation, spaces⟩ := spells
  have closed : Token.closing.Starts decode (rest ++ [')']) [] :=
    ⟨rest, [')'], spaces, .closing, by rw [List.append_nil]⟩
  have operand : Derives decode (Writes decode) .unary ('(' :: (text ++ [')'])) tree [] :=
    .primary (.parenthesis (Token.Spells.opening.starts _) (derivation.extended [')']) closed)
  exact ⟨[], .single (.unary (.negation (Token.Spells.bang.starts _) operand)), by simp⟩

end

def negated (source : String) : String := "!(" ++ source ++ ")"

theorem parse_negated {source : String} {tree : Selector} (tabs : '\t' ∉ source.toList)
    (compiled : parse source = .ok tree) : parse (negated source) = .ok (.negation tree) := by
  have text : (negated source).toList = '!' :: '(' :: (source.toList ++ [')']) := by simp [negated]
  have spells : Spells unescape (Writes unescape) source.toList tree := by
    simpa [parse_eq_ok_iff, tabs] using compiled
  simpa [parse_eq_ok_iff, text, tabs] using spells.negated

end TagQuery.Selector
