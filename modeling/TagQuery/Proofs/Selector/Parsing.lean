import TagQuery.Proofs.Attempt
import TagQuery.Proofs.Selector.Calls
import TagQuery.Proofs.Selector.Soundness

namespace TagQuery.Selector

def Writes (decode : List Char → List Char) (text : List Char) (call : Call) (rest : List Char) :
    Prop :=
  ∃ written, CallPhrase decode text written rest ∧ call.WrittenAs written

theorem accepted_check : Accepted WrittenCall.check = Writes unescape := by
  funext text call rest
  simp only [Accepted, Writes, WrittenCall.check_eq_ok_iff]

theorem judged_accepted {α : Type} (check : WrittenCall → Except Violation α) :
    Judged check (Accepted check) .ok := by
  intro text c rest call follows
  obtain ⟨written, phrase, accepted⟩ := call
  obtain ⟨left, others, found, taken⟩ := readCall_of phrase follows
  exact ⟨written, left, others, found, taken, by rw [accepted]; rfl⟩

theorem Tree.settle_ok {α ε : Type} (tree : Tree α) :
    tree.settle (.ok : α → Except ε α) = .ok tree := by
  induction tree with
  | call c => rfl
  | negation operand ih => rw [settle, ih]; rfl
  | conjunction left right ihLeft ihRight | disjunction left right ihLeft ihRight =>
      rw [settle, ihLeft, ihRight]
      rfl

theorem readText_eq_ok_iff {α : Type} {check : WrittenCall → Except Violation α}
    {text : List Char} {tree : Tree α} :
    readText check text = .ok tree ↔ Spells unescape (Accepted check) text tree := by
  constructor
  · exact spells_of_readText
  · intro spells
    rw [readText_of_spells (judged_accepted check) spells, tree.settle_ok]

theorem parse_eq_ok_iff_readText {source : String} {tree : Selector} :
    parse source = .ok tree ↔
      readText WrittenCall.check (expandTabs 0 source.toList) = .ok tree := by
  simp [parse]

theorem parse_eq_error_iff {source : String} {refusal : Refusal} :
    parse source = .error refusal ↔
      ∃ stop, readText WrittenCall.check (expandTabs 0 source.toList) = .error stop ∧
        refusal = .unreadable (expandTabs 0 source.toList) stop := by
  simp [parse, @eq_comm _ refusal]

theorem parse_eq_ok_iff {source : String} {tree : Selector} :
    parse source = .ok tree ↔
      Spells unescape (Writes unescape) (expandTabs 0 source.toList) tree := by
  rw [parse_eq_ok_iff_readText, readText_eq_ok_iff, accepted_check]

theorem spells_of_parse {source : String} {tree : Selector} (parsed : parse source = .ok tree) :
    (∀ call ∈ tree.calls, call.written.WellFormed) ∧
      Spells unescape (Writes unescape) (expandTabs 0 source.toList) tree :=
  ⟨fun call _ => call.written_wellFormed, parse_eq_ok_iff.mp parsed⟩

theorem spells_of_parse_chain :
    ∃ tree, parse "!anyOf('@a')||\tvaluesFor(\"\\x42\") .isPresent\n&& (not( ))" = .ok tree ∧
      (∀ call ∈ tree.calls, call.written.WellFormed) ∧
      Spells unescape (Writes unescape)
        (expandTabs 0 "!anyOf('@a')||\tvaluesFor(\"\\x42\") .isPresent\n&& (not( ))".toList)
        tree := by
  have parsed : parse "!anyOf('@a')||\tvaluesFor(\"\\x42\") .isPresent\n&& (not( ))" =
      .ok (.disjunction (.negation (.call (.anyOf ["@a"])))
        (.conjunction (.call (.valuesFor "B" (some .isPresent))) (.call (.noneOf [])))) :=
    parse_eq_ok_iff_readText.2 (by decide +kernel)
  exact ⟨_, parsed, spells_of_parse parsed⟩

end TagQuery.Selector
