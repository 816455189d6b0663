import TagQuery.Proofs.Members

namespace TagQuery

structure PlainList where
  items : List Value
  plain : ∀ value ∈ items, value.isPlain = true

namespace PlainList

def forms (list : PlainList) : List Value := list.items.map Value.canonical

def tagValues (list : PlainList) : TagValues := ⟨list.items⟩

section
variable {values candidates others given : PlainList}

theorem isAnyOf_iff :
    values.tagValues.isAnyOf candidates.items = true ↔
      ∃ form ∈ candidates.forms, form ∈ values.forms := by
  rw [TagValues.isAnyOf, List.any_eq_true, forms]
  simp only [List.mem_map, exists_exists_and_eq_and]
  refine exists_congr fun candidate => and_congr_right fun mem => ?_
  exact Value.isIn_iff_canonical (candidates.plain candidate mem) values.plain

theorem isAllOf_iff :
    values.tagValues.isAllOf candidates.items = true ↔ candidates.forms ⊆ values.forms := by
  rw [TagValues.isAllOf, List.all_eq_true, List.subset_def, forms, List.forall_mem_map]
  refine forall₂_congr fun candidate mem => ?_
  exact Value.isIn_iff_canonical (candidates.plain candidate mem) values.plain

theorem isOnly_eq (values candidates : PlainList) :
    values.tagValues.isOnly candidates.items =
      .ok (values.tagValues.isAllOf candidates.items &&
        candidates.tagValues.isAllOf values.items) := by
  obtain ⟨holds, evaluated, holds_iff⟩ := TagValues.exists_isOnly values.plain candidates.plain
  have agree : holds = (values.tagValues.isAllOf candidates.items &&
      candidates.tagValues.isAllOf values.items) := by
    rw [Bool.eq_iff_iff, holds_iff, Bool.and_eq_true, isAllOf_iff, isAllOf_iff]
    constructor
    · intro same
      exact ⟨fun form => (same form).2, fun form => (same form).1⟩
    · rintro ⟨backward, forward⟩ form
      exact ⟨fun mem => forward mem, fun mem => backward mem⟩
  rw [← agree]
  exact evaluated

theorem isOnly_iff :
    values.tagValues.isOnly candidates.items = .ok true ↔
      candidates.forms ⊆ values.forms ∧ values.forms ⊆ candidates.forms := by
  rw [isOnly_eq, Except.ok.injEq, Bool.and_eq_true, isAllOf_iff, isAllOf_iff]

/-! ## Other spellings of a list -/

/-- The second list is the first one in another order, with a value repeated, or with a value
replaced by an equal one. -/
inductive Respells : PlainList → PlainList → Prop
  | reordered {values others : PlainList} (order : values.items.Perm others.items) :
      Respells values others
  | repeated {values others : PlainList} {value : Value} (mem : value ∈ values.items)
      (listed : others.items = value :: values.items) : Respells values others
  | replaced {values others : PlainList} (front : List Value) (value other : Value)
      (back : List Value) (listed : values.items = front ++ value :: back)
      (equal : value.same other = true) (respelled : others.items = front ++ other :: back) :
      Respells values others

theorem Respells.mem_forms (respells : Respells values others) (form : Value) :
    form ∈ others.forms ↔ form ∈ values.forms := by
  cases respells with
  | reordered order => exact (order.map Value.canonical).mem_iff.symm
  | repeated mem listed =>
      rw [forms, listed, List.map_cons, List.mem_cons]
      refine or_iff_right_of_imp ?_
      rintro rfl
      exact List.mem_map_of_mem mem
  | replaced front value other back listed equal respelled =>
      have plain := values.plain _ (by rw [listed]; exact List.mem_append_right _ List.mem_cons_self)
      have plainOther := others.plain _
        (by rw [respelled]; exact List.mem_append_right _ List.mem_cons_self)
      have sameForm := (Value.same_iff_canonical plain plainOther).1 equal
      rw [forms, forms, listed, respelled, List.map_append, List.map_append, List.map_cons,
        List.map_cons, sameForm]

theorem isAnyOf_respelled (respells : Respells values others)
    (respellsGiven : Respells candidates given) :
    others.tagValues.isAnyOf given.items = values.tagValues.isAnyOf candidates.items := by
  rw [Bool.eq_iff_iff, isAnyOf_iff, isAnyOf_iff]
  exact exists_congr fun form => and_congr (respellsGiven.mem_forms form) (respells.mem_forms form)

theorem isAllOf_respelled (respells : Respells values others)
    (respellsGiven : Respells candidates given) :
    others.tagValues.isAllOf given.items = values.tagValues.isAllOf candidates.items := by
  rw [Bool.eq_iff_iff, isAllOf_iff, isAllOf_iff, List.subset_def, List.subset_def]
  exact forall_congr' fun form =>
    imp_congr (respellsGiven.mem_forms form) (respells.mem_forms form)

theorem isOnly_respelled (respells : Respells values others)
    (respellsGiven : Respells candidates given) :
    others.tagValues.isOnly given.items = values.tagValues.isOnly candidates.items := by
  rw [isOnly_eq, isOnly_eq, isAllOf_respelled respells respellsGiven,
    isAllOf_respelled respellsGiven respells]

theorem isAnyOf_of_isAllOf (given : candidates.items ≠ [])
    (all : values.tagValues.isAllOf candidates.items = true) :
    values.tagValues.isAnyOf candidates.items = true := by
  obtain ⟨candidate, mem⟩ := List.exists_mem_of_ne_nil _ given
  rw [TagValues.isAllOf, List.all_eq_true] at all
  exact List.any_eq_true.2 ⟨candidate, mem, all candidate mem⟩

end

/-- To be the only values is to have all candidates and to be among them. No query depends on the
order, on repetition, or on which of equal values are given; to be the only values is an equivalence
of lists, and it needs one of the candidates if there are any. -/
theorem isOnly_scans (values candidates : PlainList) :
    values.tagValues.isOnly candidates.items =
      .ok (values.tagValues.isAllOf candidates.items &&
        candidates.tagValues.isAllOf values.items) ∧
    (∀ others given, Respells values others → Respells candidates given →
      others.tagValues.isAnyOf given.items = values.tagValues.isAnyOf candidates.items ∧
      others.tagValues.isAllOf given.items = values.tagValues.isAllOf candidates.items ∧
      others.tagValues.isOnly given.items = values.tagValues.isOnly candidates.items) ∧
    (Equivalence fun list other : PlainList => list.tagValues.isOnly other.items = .ok true) ∧
    (candidates.items ≠ [] →
      values.tagValues.isOnly candidates.items = .ok true ∨
        values.tagValues.isAllOf candidates.items = true →
      values.tagValues.isAnyOf candidates.items = true) := by
  refine ⟨isOnly_eq values candidates, fun others given respells respellsGiven =>
    ⟨isAnyOf_respelled respells respellsGiven, isAllOf_respelled respells respellsGiven,
      isOnly_respelled respells respellsGiven⟩, ⟨?_, ?_, ?_⟩, ?_⟩
  · intro list
    exact isOnly_iff.2 ⟨List.Subset.refl _, List.Subset.refl _⟩
  · intro list other same
    exact isOnly_iff.2 (isOnly_iff.1 same).symm
  · intro list other third first second
    obtain ⟨backward, forward⟩ := isOnly_iff.1 first
    obtain ⟨backwardNext, forwardNext⟩ := isOnly_iff.1 second
    exact isOnly_iff.2 ⟨List.Subset.trans backwardNext backward, List.Subset.trans forward forwardNext⟩
  · rintro isGiven (only | all)
    · rw [isOnly_eq, Except.ok.injEq, Bool.and_eq_true] at only
      exact isAnyOf_of_isAllOf isGiven only.1
    · exact isAnyOf_of_isAllOf isGiven all

theorem isOnly_scans_number :
    ∃ values candidates others : PlainList, values.items = [.bool true, .text "a"] ∧
      candidates.items = [.text "a", .int 1] ∧ others.items = [.int 1, .text "a"] ∧
      values.tagValues.isOnly candidates.items = .ok true ∧
      others.tagValues.isOnly candidates.items = .ok true ∧
      values.tagValues.isAnyOf candidates.items = true := by
  obtain ⟨values, listed⟩ : ∃ list : PlainList, list.items = [.bool true, .text "a"] :=
    ⟨⟨_, by simp [Value.isPlain]⟩, rfl⟩
  obtain ⟨candidates, listedCandidates⟩ : ∃ list : PlainList, list.items = [.text "a", .int 1] :=
    ⟨⟨_, by simp [Value.isPlain]⟩, rfl⟩
  obtain ⟨others, listedOthers⟩ : ∃ list : PlainList, list.items = [.int 1, .text "a"] :=
    ⟨⟨_, by simp [Value.isPlain]⟩, rfl⟩
  obtain ⟨-, respelled, -, given⟩ := isOnly_scans values candidates
  have only : values.tagValues.isOnly candidates.items = .ok true := by
    rw [tagValues, listed, listedCandidates]
    rfl
  have replaces : Respells values others :=
    .replaced [] (.bool true) (.int 1) [.text "a"] listed rfl listedOthers
  obtain ⟨-, -, same⟩ := respelled others candidates replaces (.reordered (List.Perm.refl _))
  refine ⟨values, candidates, others, listed, listedCandidates, listedOthers, only, ?_, ?_⟩
  · rw [same, only]
  · exact given (by simp [listedCandidates]) (.inl only)

end PlainList

end TagQuery
