import Mathlib.Data.List.Induction
import Mathlib.Data.List.Nodup
import Mathlib.Data.List.Perm.Subperm
import TagQuery.Proofs.Tags

namespace TagQuery

namespace Value

def isPlain : Value → Bool
  | .null | .bool _ | .int _ | .text _ => true
  | .float _ | .list _ | .object _ => false

/-- The value with a number in the place of a truth value. -/
def canonical : Value → Value
  | .bool b => .int (if b then 1 else 0)
  | value => value

section
variable {value other : Value} {values items : List Value}

theorem same_iff_canonical (plain : value.isPlain = true) (plainOther : other.isPlain = true) :
    value.same other = true ↔ value.canonical = other.canonical := by
  cases value <;> cases other <;> simp_all [isPlain, same, sameQuantity, quantity?, canonical]

theorem digest_canonical (value : Value) : Digest.ofValue value.canonical = .ofValue value := by
  cases value <;> rfl

theorem isIn_iff_canonical (plain : value.isPlain = true)
    (plainItems : ∀ item ∈ items, item.isPlain = true) :
    value.isIn items = true ↔ value.canonical ∈ items.map canonical := by
  rw [isIn, List.any_eq_true, List.mem_map]
  refine exists_congr fun item => and_congr_right fun mem => ?_
  rw [same_iff_canonical plain (plainItems item mem)]
  exact eq_comm

theorem isHashable_of_plain (plain : value.isPlain = true) : value.isHashable = true := by
  cases value with
  | null | bool | int | text => rfl
  | float | list | object => cases plain

theorem hashable_of_plain (plain : ∀ value ∈ values, value.isPlain = true) :
    hashable values = .ok () :=
  hashable_of_forall fun value mem => isHashable_of_plain (plain value mem)

theorem Texts.plain (texts : Texts values) : ∀ value ∈ values, value.isPlain = true := by
  intro value mem
  obtain ⟨s, rfl⟩ := texts value mem
  rfl

theorem Texts.map_canonical (texts : Texts values) : values.map canonical = values := by
  have fixed : values.map canonical = values.map id := by
    apply List.map_congr_left
    intro value mem
    obtain ⟨s, rfl⟩ := texts value mem
    rfl
  rw [fixed, List.map_id]

end

end Value

namespace Members

open Value

def forms (members : Members) : List Value := members.entries.map fun entry => entry.2.canonical

/-- The set holds the values, and of those with one canonical form a single one. -/
structure Collects (members : Members) (values : List Value) : Prop where
  digests : ∀ entry ∈ members.entries, entry.1 = .ofValue entry.2
  plain : ∀ entry ∈ members.entries, entry.2.isPlain = true
  nodup : members.forms.Nodup
  mem_forms : ∀ form, form ∈ members.forms ↔ form ∈ values.map canonical

section
variable {members others : Members} {values candidates : List Value} {value : Value}

theorem Collects.holds_iff (collects : members.Collects values) (plain : value.isPlain = true) :
    members.holds value = true ↔ value.canonical ∈ values.map canonical := by
  rw [← collects.mem_forms, forms, List.mem_map, holds, List.any_eq_true]
  refine exists_congr fun entry => and_congr_right fun mem => ?_
  rw [Bool.and_eq_true, beq_iff_eq, same_iff_canonical (collects.plain entry mem) plain]
  refine and_iff_right_of_imp fun sameForm => ?_
  -- Equal values are found because their digests are equal too.
  rw [collects.digests entry mem, ← digest_canonical, sameForm, digest_canonical]

theorem collects_empty : empty.Collects [] :=
  ⟨nofun, nofun, List.nodup_nil, fun _ => Iff.rfl⟩

theorem Collects.add (collects : members.Collects values) (plain : value.isPlain = true) :
    (members.add value).Collects (values ++ [value]) := by
  have known_iff := collects.holds_iff plain
  rw [Members.add]
  split
  · rename_i known
    refine ⟨collects.digests, collects.plain, collects.nodup, fun form => ?_⟩
    rw [collects.mem_forms, List.map_append, List.mem_append]
    refine (or_iff_left_of_imp fun last => ?_).symm
    rw [List.map_singleton, List.mem_singleton] at last
    exact last ▸ known_iff.1 known
  · rename_i new
    have added : forms ⟨members.entries ++ [(.ofValue value, value)]⟩ =
        members.forms ++ [value.canonical] := by
      rw [forms, List.map_append]
      rfl
    refine ⟨?_, ?_, ?_, fun form => ?_⟩
    · intro entry mem
      rcases List.mem_append.1 mem with mem | last
      · exact collects.digests entry mem
      · rw [List.mem_singleton.1 last]
    · intro entry mem
      rcases List.mem_append.1 mem with mem | last
      · exact collects.plain entry mem
      · rwa [List.mem_singleton.1 last]
    · rw [added, List.nodup_append]
      refine ⟨collects.nodup, List.nodup_singleton _, ?_⟩
      rintro form mem _ last rfl
      rw [List.mem_singleton] at last
      exact new (known_iff.2 ((collects.mem_forms _).1 (last ▸ mem)))
    · rw [added, List.map_append, List.mem_append, List.mem_append, collects.mem_forms]
      rfl

theorem collects_ofValues (plain : ∀ value ∈ values, value.isPlain = true) :
    (ofValues values).Collects values := by
  induction values using List.reverseRecOn with
  | nil => exact collects_empty
  | append_singleton values value ih =>
      have front := ih fun other mem => plain other (List.mem_append_left _ mem)
      rw [ofValues, List.foldl_concat]
      exact front.add (plain value (by simp))

theorem Collects.same_iff (collects : members.Collects values)
    (collectsOthers : others.Collects candidates) :
    members.same others = true ↔
      ∀ form, form ∈ values.map canonical ↔ form ∈ candidates.map canonical := by
  have held_iff : (members.entries.all fun entry => others.holds entry.2) = true ↔
      members.forms ⊆ others.forms := by
    rw [List.all_eq_true, List.subset_def, forms]
    simp only [List.mem_map, forall_exists_index, and_imp, forall_apply_eq_imp_iff₂]
    refine forall₂_congr fun entry mem => ?_
    rw [collectsOthers.holds_iff (collects.plain entry mem), collectsOthers.mem_forms]
  rw [same, Bool.and_eq_true, beq_iff_eq, held_iff]
  constructor
  · rintro ⟨sameSize, part⟩ form
    have sizes : others.forms.length = members.forms.length := by
      rw [forms, forms, List.length_map, List.length_map, sameSize]
    have order :=
      (List.subperm_of_subset collects.nodup part).perm_of_length_le (Nat.le_of_eq sizes)
    rw [← collects.mem_forms, ← collectsOthers.mem_forms, order.mem_iff]
  · intro sameForms
    have order : members.forms.Perm others.forms := by
      rw [List.perm_ext_iff_of_nodup collects.nodup collectsOthers.nodup]
      intro form
      rw [collects.mem_forms, collectsOthers.mem_forms, sameForms]
    refine ⟨?_, order.subset⟩
    have sizes := order.length_eq
    rwa [forms, forms, List.length_map, List.length_map] at sizes

end

end Members

namespace TagValues

open Value

theorem exists_isOnly {values candidates : List Value}
    (plain : ∀ value ∈ values, value.isPlain = true)
    (plainCandidates : ∀ value ∈ candidates, value.isPlain = true) :
    ∃ holds, isOnly ⟨values⟩ candidates = .ok holds ∧
      (holds = true ↔ ∀ form, form ∈ values.map canonical ↔ form ∈ candidates.map canonical) := by
  refine ⟨_, ?_, (Members.collects_ofValues plain).same_iff
    (Members.collects_ofValues plainCandidates)⟩
  rw [isOnly, hashable_of_plain plain, hashable_of_plain plainCandidates]
  rfl

theorem exists_isOnly_texts {values candidates : List Value} (texts : Texts values)
    (textsCandidates : Texts candidates) :
    ∃ holds, isOnly ⟨values⟩ candidates = .ok holds ∧
      (holds = true ↔ ∀ value, value ∈ values ↔ value ∈ candidates) := by
  have exists_holds := exists_isOnly texts.plain textsCandidates.plain
  rwa [texts.map_canonical, textsCandidates.map_canonical] at exists_holds

end TagValues

end TagQuery
