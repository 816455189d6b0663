import TagQuery.Proofs.Selector.Places
import TagQuery.Proofs.Selector.Rules
import TagQuery.Proofs.Selector.Viability

namespace TagQuery.Selector

structure PlacedCall where
  call : WrittenCall
  position : Nat
deriving DecidableEq, Repr

/-- The text goes on with the call, and that place is the given one of the whole text. -/
def CallAt (whole text : List Char) (placed : PlacedCall) (rest : List Char) : Prop :=
  CallPhrase unescape text placed.call rest ∧
    whole.drop placed.position = Text.skipSpace text

theorem accepted_ok : Accepted .ok = CallPhrase unescape := by
  funext text call rest
  apply propext
  constructor
  · rintro ⟨written, phrase, same⟩
    cases same
    exact phrase
  · exact fun phrase => ⟨call, phrase, rfl⟩

/-! ## Places in order -/

section
variable {whole text rest : List Char} {level : Level}

theorem CallPhrase.begins {decode : List Char → List Char} {call : WrittenCall}
    (phrase : CallPhrase decode text call rest) :
    rest.length < (Text.skipSpace text).length ∧ rest <:+ text := by
  obtain ⟨word, arguments, chained⟩ := phrase
  have behind := (chained.suffix.trans arguments.suffix)
  refine ⟨?_, behind.trans word.suffix⟩
  obtain ⟨gap, spelling, spaces, spells, rfl⟩ := word
  obtain ⟨c, cs, rfl, solid⟩ := spells.solid
  rw [Text.skipSpace, List.dropWhile_append_of_pos spaces, List.cons_append,
    List.dropWhile_cons_of_neg (by simp [solid]), List.length_cons, List.length_append]
  have shorter := behind.length_le
  omega

theorem CallAt.between {placed : PlacedCall} (call : CallAt whole text placed rest) :
    rest.length < whole.length - placed.position ∧
      whole.length - placed.position ≤ text.length := by
  obtain ⟨phrase, place⟩ := call
  rw [← List.length_drop, place]
  exact ⟨phrase.begins.1, Text.length_dropWhile_le Text.isSpace text⟩

structure Ordered (whole text : List Char) (calls : List PlacedCall) (rest : List Char) : Prop where
  between : ∀ placed ∈ calls, rest.length < whole.length - placed.position ∧
    whole.length - placed.position ≤ text.length
  increasing : calls.Pairwise (·.position < ·.position)

theorem Ordered.widen {calls : List PlacedCall} {text' rest' : List Char}
    (ordered : Ordered whole text calls rest) (before : text <:+ text') (behind : rest' <:+ rest) :
    Ordered whole text' calls rest' := by
  refine ⟨fun placed mem => ?_, ordered.increasing⟩
  have bounds := ordered.between placed mem
  exact ⟨Nat.lt_of_le_of_lt behind.length_le bounds.1, Nat.le_trans bounds.2 before.length_le⟩

theorem Ordered.append {calls others : List PlacedCall} {middle : List Char}
    (ordered : Ordered whole text calls middle) (ordered' : Ordered whole middle others rest)
    (before : middle <:+ text) (behind : rest <:+ middle) :
    Ordered whole text (calls ++ others) rest := by
  constructor
  · intro placed mem
    rcases List.mem_append.1 mem with mem | mem
    · exact (ordered.widen List.suffix_rfl behind).between placed mem
    · exact (ordered'.widen before List.suffix_rfl).between placed mem
  · rw [List.pairwise_append]
    refine ⟨ordered.increasing, ordered'.increasing, fun placed mem other mem' => ?_⟩
    have left := (ordered.between placed mem).1
    have right := (ordered'.between other mem').2
    omega

theorem suffix_of_callAt {placed : PlacedCall} (call : CallAt whole text placed rest) :
    rest <:+ text :=
  call.1.begins.2

theorem Derives.ordered {tree : Tree PlacedCall}
    (derivation : Derives unescape (CallAt whole) level text tree rest) :
    Ordered whole text tree.calls rest := by
  induction derivation with
  | call call =>
      exact ⟨fun placed mem => List.mem_singleton.1 mem ▸ call.between, List.pairwise_singleton _ _⟩
  | parenthesis opened _ closed ih => exact ih.widen opened.suffix closed.suffix
  | primary _ ih | unary _ ih | single _ ih => exact ih
  | negation bang _ ih => exact ih.widen bang.suffix List.suffix_rfl
  | conjunction first operator others ihFirst ihOthers
  | disjunction first operator others ihFirst ihOthers =>
      exact ihFirst.append (ihOthers.widen operator.suffix List.suffix_rfl)
        (first.suffix suffix_of_callAt)
        ((others.suffix suffix_of_callAt).trans operator.suffix)

/-! ## Placing calls -/

theorem CallPhrase.placed {call : WrittenCall} (phrase : CallPhrase unescape text call rest)
    (within : text <:+ whole) : ∃ placed : PlacedCall, placed.call = call ∧
      CallAt whole text placed rest := by
  have solid : Text.skipSpace text <:+ whole := (List.dropWhile_suffix _).trans within
  exact ⟨⟨call, whole.length - (Text.skipSpace text).length⟩, rfl, phrase,
    (List.suffix_iff_eq_drop.1 solid).symm⟩

theorem Tree.Alike.map_eq {α β : Type} {f : β → α} {tree : Tree α} {tree' : Tree β}
    (same : tree.Alike (fun c c' => f c' = c) tree') : tree'.map f = tree := by
  induction same with
  | call same => rw [Tree.map, same]
  | negation _ ih => rw [Tree.map, ih]
  | conjunction _ _ ihLeft ihRight | disjunction _ _ ihLeft ihRight =>
      rw [Tree.map, ihLeft, ihRight]

theorem Spells.placed {tree : Tree WrittenCall}
    (spells : Spells unescape (CallPhrase unescape) text tree) :
    ∃ placed : Tree PlacedCall, placed.map (·.call) = tree ∧
      Spells unescape (CallAt text) text placed := by
  obtain ⟨rest, derivation, spaces⟩ := spells
  have calls : ∀ call ∈ tree.calls, ∀ {t rest t' : List Char}, EndOf text t t' →
      CallPhrase unescape t call rest → ∃ (placed : PlacedCall) (rest' : List Char),
        placed.call = call ∧ EndOf text rest rest' ∧ CallAt text t' placed rest' := by
    rintro call - t rest _ ⟨rfl, within⟩ phrase
    obtain ⟨placed, same, callAt⟩ := phrase.placed within
    exact ⟨placed, rest, same, ⟨rfl, phrase.begins.2.trans within⟩, callAt⟩
  obtain ⟨placed, rest', same, ⟨rfl, -⟩, derivation'⟩ := derivation.transfer
    (fun token _ => carried_endOf text token) calls ⟨rfl, List.suffix_rfl⟩
  exact ⟨placed, same.map_eq, rest', derivation', spaces⟩

/-! ## The verdict on a tree -/

def Settles {α β γ ε : Type} (verdict : α → Except ε β) (calls : List α) : Except ε γ → Prop
  | .ok _ => ∀ c ∈ calls, ∃ b, verdict c = .ok b
  | .error e => ∃ before c after, calls = before ++ c :: after ∧
      (∀ b ∈ before, ∃ x, verdict b = .ok x) ∧ verdict c = .error e

theorem Settles.bind {α β γ δ ε : Type} {verdict : α → Except ε β} {calls others : List α}
    {first : Except ε γ} {next : γ → Except ε δ} (settles : Settles verdict calls first)
    (settlesNext : ∀ x, Settles verdict others (next x)) :
    Settles verdict (calls ++ others) (first >>= next) := by
  cases first with
  | error e =>
      obtain ⟨before, c, after, rfl, passed, failed⟩ := settles
      exact ⟨before, c, after ++ others, by simp, passed, failed⟩
  | ok x =>
      have later := settlesNext x
      show Settles verdict (calls ++ others) (next x)
      cases result : next x with
      | ok y =>
          rw [result] at later
          intro c mem
          rcases List.mem_append.1 mem with mem | mem
          · exact settles c mem
          · exact later c mem
      | error e =>
          rw [result] at later
          obtain ⟨before, c, after, rfl, passed, failed⟩ := later
          refine ⟨calls ++ before, c, after, by simp, fun b mem => ?_, failed⟩
          rcases List.mem_append.1 mem with mem | mem
          · exact settles b mem
          · exact passed b mem

theorem Tree.settles_settle {α β ε : Type} (verdict : α → Except ε β) (tree : Tree α) :
    Settles verdict tree.calls (tree.settle verdict) := by
  have done {γ : Type} (x : γ) : Settles verdict [] (.ok x : Except ε γ) := by simp [Settles]
  induction tree with
  | call c =>
      have single : Settles verdict [c] (verdict c) := by
        cases judged : verdict c with
        | ok b => exact fun d mem => ⟨b, List.mem_singleton.1 mem ▸ judged⟩
        | error e => exact ⟨[], c, [], rfl, by simp, judged⟩
      exact single.bind fun x => done _
  | negation operand ih =>
      rw [settle, calls, ← List.append_nil operand.calls]
      exact ih.bind fun x => done _
  | conjunction left right ihLeft ihRight | disjunction left right ihLeft ihRight =>
      rw [settle, calls, ← List.append_nil right.calls]
      exact ihLeft.bind fun x => ihRight.bind fun y => done _

end

/-! ## The call that is reported -/

/-- The call breaks the rule, as the first of its own, and the calls before it obey all rules. -/
structure Offends (calls : List PlacedCall) (offender : PlacedCall) (violation : Violation) :
    Prop where
  mem : offender ∈ calls
  first : FirstBroken offender.call.Breaks violation
  leftmost : ∀ other ∈ calls, other.position < offender.position → other.call.Obeys

def PlacedCall.verdict (whole : List Char) (placed : PlacedCall) : Except Stop Call :=
  placed.call.check.mapError fun violation => ⟨.call violation, whole.length - placed.position⟩

theorem judged_callAt (whole : List Char) :
    Judged WrittenCall.check (CallAt whole) (PlacedCall.verdict whole) := by
  rintro text placed rest ⟨phrase, place⟩ follows
  obtain ⟨left, others, found, taken⟩ := readCall_of phrase follows
  refine ⟨placed.call, left, others, found, taken, ?_⟩
  rw [PlacedCall.verdict, left_of_lexemes found, ← place, List.length_drop]

theorem PlacedCall.exists_verdict_eq_ok_iff {whole : List Char} {placed : PlacedCall} :
    (∃ c, placed.verdict whole = .ok c) ↔ placed.call.Obeys := by
  simp [← WrittenCall.exists_check_eq_ok_iff, verdict]

theorem PlacedCall.verdict_eq_error_iff {whole : List Char} {placed : PlacedCall} {stop : Stop} :
    placed.verdict whole = .error stop ↔ ∃ violation, FirstBroken placed.call.Breaks violation ∧
      stop = ⟨.call violation, whole.length - placed.position⟩ := by
  simp [← WrittenCall.check_eq_error_iff, verdict, @eq_comm _ stop]

theorem Spells.ordered {text : List Char} {placed : Tree PlacedCall}
    (spells : Spells unescape (CallAt text) text placed) :
    placed.calls.Pairwise (·.position < ·.position) ∧
      ∀ c ∈ placed.calls, c.position < text.length := by
  obtain ⟨rest, derivation, -⟩ := spells
  have ordered := derivation.ordered
  refine ⟨ordered.increasing, fun c mem => ?_⟩
  have bounds := ordered.between c mem
  omega

theorem readText_placed {text : List Char} {placed : Tree PlacedCall}
    (spells : Spells unescape (CallAt text) text placed) :
    ((∃ tree, readText WrittenCall.check text = .ok tree) ∧
        ∀ c ∈ placed.calls, c.call.Obeys) ∨
      ∃ offender violation, Offends placed.calls offender violation ∧
        readText WrittenCall.check text =
          .error ⟨.call violation, text.length - offender.position⟩ := by
  have settles := placed.settles_settle (PlacedCall.verdict text)
  have increasing := spells.ordered.1
  rw [readText_of_spells (judged_callAt text) spells]
  cases result : placed.settle (PlacedCall.verdict text) with
  | ok tree =>
      rw [result] at settles
      exact .inl ⟨⟨tree, rfl⟩, fun c mem => PlacedCall.exists_verdict_eq_ok_iff.1 (settles c mem)⟩
  | error stop =>
      rw [result] at settles
      obtain ⟨before, offender, after, same, passed, failed⟩ := settles
      obtain ⟨violation, first, rfl⟩ := PlacedCall.verdict_eq_error_iff.1 failed
      refine .inr ⟨offender, violation, ⟨by simp [same], first, fun other mem earlier => ?_⟩, rfl⟩
      rw [same, List.pairwise_append, List.pairwise_cons] at increasing
      rw [same, List.mem_append, List.mem_cons] at mem
      rcases mem with mem | rfl | mem
      · exact PlacedCall.exists_verdict_eq_ok_iff.1 (passed other mem)
      · exact absurd earlier (Nat.lt_irrefl _)
      · exact absurd earlier (Nat.lt_asymm (increasing.2.1.1 other mem))

@[simp] theorem Tree.calls_map {α β : Type} (f : α → β) (tree : Tree α) :
    (tree.map f).calls = tree.calls.map f := by
  induction tree with
  | call c => rfl
  | negation operand ih => exact ih
  | conjunction left right ihLeft ihRight | disjunction left right ihLeft ihRight =>
      simp [map, calls, ihLeft, ihRight]

/-- A text with any names and arguments in its calls is a selector exactly if all of them obey the
rules. Otherwise it is refused with the first violation of the leftmost call that does not, and the
message shows the line on which that call begins with a mark before the call. -/
theorem refused_at_leftmost {source : String} {tree : Tree WrittenCall}
    (spells : Spells unescape (CallPhrase unescape) (expandTabs 0 source.toList) tree) :
    ∃ placed : Tree PlacedCall, placed.map (·.call) = tree ∧
      Spells unescape (CallAt (expandTabs 0 source.toList)) (expandTabs 0 source.toList) placed ∧
      placed.calls.Pairwise (·.position < ·.position) ∧
      ((∃ selector, parse source = .ok selector) ↔ ∀ call ∈ tree.calls, call.Obeys) ∧
      ((¬∀ call ∈ tree.calls, call.Obeys) → ∃ offender violation refusal front back shown,
        Offends placed.calls offender violation ∧ parse source = .error refusal ∧
        LineAt (expandTabs 0 source.toList) offender.position front back ∧
        Text.Trims (front ++ (mark ++ back)) shown ∧
        refusal.message = "Error parsing tag expression at \"@@@\": " ++ String.ofList shown ++
          " (" ++ violation.message ++ ")") := by
  obtain ⟨placed, rfl, placedSpells⟩ := spells.placed
  obtain ⟨increasing, inside⟩ := placedSpells.ordered
  have obey : (∀ call ∈ (placed.map (·.call)).calls, call.Obeys) ↔
      ∀ c ∈ placed.calls, c.call.Obeys := by
    simp
  rw [obey]
  refine ⟨placed, rfl, placedSpells, increasing, ?_⟩
  rcases readText_placed placedSpells with ⟨⟨selector, done⟩, obeys⟩ |
    ⟨offender, violation, offends, stopped⟩
  · have parsed := parse_eq_ok_iff_readText.2 done
    exact ⟨⟨fun _ => obeys, fun _ => ⟨selector, parsed⟩⟩, fun disobeyed => absurd obeys disobeyed⟩
  · have refused := parse_eq_error_iff.2 ⟨_, stopped, rfl⟩
    obtain ⟨front, back, shown, line, trims, message⟩ :=
      Refusal.exists_shown_line (expandTabs 0 source.toList) ⟨.call violation, _⟩
    rw [Nat.sub_sub_self (Nat.le_of_lt (inside offender offends.mem))] at line
    refine ⟨⟨?_, ?_⟩, fun _ =>
      ⟨offender, violation, _, front, back, shown, offends, refused, line, trims, message⟩⟩
    · rintro ⟨selector, parsed⟩
      rw [refused] at parsed
      cases parsed
    · exact fun obeys => absurd offends.first.broken (obeys offender offends.mem violation)

theorem refused_at_leftmost_nested :
    ∃ (source : String) (tree : Tree WrittenCall),
      source = "anyOf('a')\n&& !(valuesFor('b').isNone || noneOf() && is('c').x)" ∧
      Spells unescape (CallPhrase unescape) (expandTabs 0 source.toList) tree ∧
      (¬∀ call ∈ tree.calls, call.Obeys) ∧
      ∃ placed : Tree PlacedCall, placed.map (·.call) = tree ∧
        ∃ offender violation refusal front back shown,
          Offends placed.calls offender violation ∧ parse source = .error refusal ∧
          LineAt (expandTabs 0 source.toList) offender.position front back ∧
          Text.Trims (front ++ (mark ++ back)) shown ∧
          refusal.message = "Error parsing tag expression at \"@@@\": " ++ String.ofList shown ++
            " (" ++ violation.message ++ ")" := by
  let bad : Tree WrittenCall := .disjunction (.call ⟨"valuesFor", ["b"], some ⟨"isNone", none⟩⟩)
    (.conjunction (.call ⟨"noneOf", [], none⟩) (.call ⟨"is", ["c"], some ⟨"x", none⟩⟩))
  let tree : Tree WrittenCall := .conjunction (.call ⟨"anyOf", ["a"], none⟩) (.negation bad)
  have spells : Spells unescape (CallPhrase unescape) (expandTabs 0
      "anyOf('a')\n&& !(valuesFor('b').isNone || noneOf() && is('c').x)".toList) tree := by
    rw [← accepted_ok]
    exact spells_of_readText (by decide +kernel)
  have disobeyed : ¬∀ call ∈ tree.calls, call.Obeys :=
    fun obey => obey ⟨"noneOf", [], none⟩ (by decide) _ (.unknown (by decide))
  obtain ⟨placed, same, -, -, -, refused⟩ := refused_at_leftmost spells
  exact ⟨_, tree, rfl, spells, disobeyed, placed, same, refused disobeyed⟩

end TagQuery.Selector
