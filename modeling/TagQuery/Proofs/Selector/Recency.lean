import Mathlib.Data.List.Dedup
import Mathlib.Data.List.Induction
import Mathlib.Data.List.Nodup
import TagQuery.Selector.Cache

namespace TagQuery.Selector.Cache

def accepted (source : String) : Bool := (parse source).isOk

def touch (texts : List String) (source : String) : List String :=
  if accepted source then source :: texts.erase source else texts

/-- The accepted texts in the order of their last uses, the last one first. -/
def recent (sources : List String) : List String := sources.foldl touch []

@[simp] theorem recent_concat (sources : List String) (source : String) :
    recent (sources ++ [source]) = touch (recent sources) source := by
  simp [recent]

section
variable {texts : List String} {source : String}

@[simp] theorem mem_touch (source other : String) :
    other ∈ touch texts source ↔ other ∈ texts ∨ other = source ∧ accepted source = true := by
  rw [touch]
  split
  · rename_i isAccepted
    by_cases same : other = source
    · simp [same, isAccepted]
    · simp [same, List.mem_erase_of_ne same]
  · rename_i isRefused
    simp [isRefused]

theorem nodup_touch (nodup : texts.Nodup) (source : String) : (touch texts source).Nodup := by
  rw [touch]
  split
  · exact List.nodup_cons.2 ⟨nodup.not_mem_erase, nodup.erase source⟩
  · exact nodup

end

@[simp] theorem mem_recent {sources : List String} {source : String} :
    source ∈ recent sources ↔ source ∈ sources ∧ accepted source = true := by
  induction sources using List.reverseRecOn with
  | nil => simp [recent]
  | append_singleton sources last ih =>
      by_cases same : source = last
      · subst same
        simp [ih]
      · simp [ih, same]

theorem nodup_recent (sources : List String) : (recent sources).Nodup := by
  induction sources using List.reverseRecOn with
  | nil => exact List.nodup_nil
  | append_singleton sources last ih =>
      rw [recent_concat]
      exact nodup_touch ih last

theorem length_recent (sources : List String) :
    (recent sources).length = (sources.filter accepted).dedup.length := by
  have same : (recent sources).Perm (sources.filter accepted).dedup := by
    rw [List.perm_ext_iff_of_nodup (nodup_recent sources) (List.nodup_dedup _)]
    simp
  exact same.length_eq

theorem foldl_touch_append {newer : List String} {source : String} (unused : source ∉ newer)
    (front back : List String) :
    ∃ behind, newer.foldl touch (front ++ source :: back) =
      newer.foldl touch front ++ source :: behind := by
  induction newer generalizing front back with
  | nil => exact ⟨back, rfl⟩
  | cons other newer ih =>
      rw [List.mem_cons, not_or] at unused
      have one : ∃ behind, touch (front ++ source :: back) other =
          touch front other ++ source :: behind := by
        unfold touch
        split
        · by_cases mem : other ∈ front
          · exact ⟨back, by rw [List.erase_append_left _ mem, List.cons_append]⟩
          · refine ⟨back.erase other, ?_⟩
            have differs : ¬(source == other) = true := by simpa using unused.1
            rw [List.erase_append_right _ mem, List.erase_of_not_mem mem,
              List.erase_cons_tail differs, List.cons_append]
        · exact ⟨back, rfl⟩
      obtain ⟨behind, moved⟩ := one
      rw [List.foldl_cons, moved, List.foldl_cons]
      exact ih unused.2 _ behind

theorem recent_append {newer : List String} {source : String}
    (isAccepted : accepted source = true) (unused : source ∉ newer) (older : List String) :
    ∃ behind, recent (older ++ source :: newer) = recent newer ++ source :: behind := by
  have used : recent (older ++ source :: newer) =
      newer.foldl touch ([] ++ source :: (recent older).erase source) := by
    rw [recent, List.foldl_append, List.foldl_cons, touch, if_pos isAccepted]
    rfl
  rw [used]
  exact foldl_touch_append unused [] _

/-! ## The first texts of the order -/

theorem erase_take {texts : List String} {source : String} {room : Nat}
    (mem : source ∈ texts.take (room + 1)) :
    (texts.take (room + 1)).erase source = (texts.erase source).take room := by
  induction texts generalizing room with
  | nil => simp at mem
  | cons text texts ih =>
      rw [List.take_succ_cons] at mem ⊢
      by_cases same : text = source
      · simp [same]
      · have later : source ∈ texts.take room :=
          (List.mem_cons.1 mem).resolve_left fun equal => same equal.symm
        have differs : ¬(text == source) = true := by simpa using same
        cases room with
        | zero => simp at later
        | succ room =>
            rw [List.erase_cons_tail differs, List.erase_cons_tail differs, ih later,
              List.take_succ_cons]

theorem take_erase {texts : List String} {source : String} {room : Nat}
    (absent : source ∉ texts.take room) : (texts.erase source).take room = texts.take room := by
  induction texts generalizing room with
  | nil => rfl
  | cons text texts ih =>
      cases room with
      | zero => rfl
      | succ room =>
          rw [List.take_succ_cons, List.mem_cons, not_or] at absent
          have differs : ¬(text == source) = true := by simpa using Ne.symm absent.1
          rw [List.erase_cons_tail differs, List.take_succ_cons, List.take_succ_cons, ih absent.2]

/-- The text was accepted before, and since its last use fewer other texts were accepted than the
cache has room for. -/
def Recallable (before : List String) (source : String) : Prop :=
  accepted source = true ∧ ∃ older newer, before = older ++ source :: newer ∧ source ∉ newer ∧
    (newer.filter accepted).dedup.length < capacity

theorem exists_last_use {before : List String} {source : String} (mem : source ∈ before) :
    ∃ older newer, before = older ++ source :: newer ∧ source ∉ newer := by
  obtain ⟨newer, older, split, unused⟩ := List.eq_append_cons_of_mem (List.mem_reverse.2 mem)
  refine ⟨older.reverse, newer.reverse, ?_, by simpa using unused⟩
  rw [← List.reverse_reverse before, split]
  simp

theorem mem_take_iff {front behind : List String} {source : String} (outside : source ∉ front)
    (room : Nat) : source ∈ (front ++ source :: behind).take room ↔ front.length < room := by
  rw [List.take_append, List.mem_append]
  constructor
  · intro mem
    by_contra full
    have none : room - front.length = 0 := by omega
    rw [none, List.take_zero] at mem
    rcases mem with mem | mem
    · exact outside (List.mem_of_mem_take mem)
    · exact absurd mem List.not_mem_nil
  · intro fits
    obtain ⟨left, more⟩ : ∃ left, room - front.length = left + 1 :=
      ⟨room - front.length - 1, by omega⟩
    rw [more, List.take_succ_cons]
    exact .inr List.mem_cons_self

theorem recallable_iff {before : List String} {source : String} :
    Recallable before source ↔ source ∈ (recent before).take capacity := by
  have position : ∀ older newer, accepted source = true → source ∉ newer →
      (source ∈ (recent (older ++ source :: newer)).take capacity ↔
        (newer.filter accepted).dedup.length < capacity) := by
    intro older newer isAccepted unused
    obtain ⟨behind, order⟩ := recent_append isAccepted unused older
    have outside : source ∉ recent newer := fun mem => unused (mem_recent.1 mem).1
    rw [order, mem_take_iff outside, length_recent]
  constructor
  · rintro ⟨isAccepted, older, newer, rfl, unused, room⟩
    exact (position older newer isAccepted unused).2 room
  · intro mem
    obtain ⟨used, isAccepted⟩ := mem_recent.1 (List.mem_of_mem_take mem)
    obtain ⟨older, newer, rfl, unused⟩ := exists_last_use used
    exact ⟨isAccepted, older, newer, rfl, unused, (position older newer isAccepted unused).1 mem⟩

end TagQuery.Selector.Cache
