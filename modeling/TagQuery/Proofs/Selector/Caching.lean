import TagQuery.Proofs.Selector.Recency

namespace TagQuery.Selector.Cache

/-! ## One step -/

inductive Step (cache : Cache) (source : String) : Except Refusal Reading × Cache → Prop
  | recalled {reading : Reading} (kept : cache.find? source = some reading) :
      Step cache source (.ok reading, { cache with
        entries := (source, reading) :: others cache.entries source
        hits := cache.hits + 1 })
  | refused {refusal : Refusal} (absent : cache.find? source = none)
      (refused : parse source = .error refusal) :
      Step cache source (.error refusal, { cache with misses := cache.misses + 1 })
  | read {selector : Selector} (absent : cache.find? source = none)
      (accepted : parse source = .ok selector) :
      Step cache source (.ok ⟨cache.readings, selector⟩, { cache with
        entries := ((source, ⟨cache.readings, selector⟩) :: cache.entries).take capacity
        misses := cache.misses + 1
        readings := cache.readings + 1 })

theorem step_compile (cache : Cache) (source : String) :
    Step cache source (cache.compile source) := by
  unfold compile
  split
  · rename_i reading kept
    exact .recalled kept
  · rename_i absent
    split
    · rename_i refusal refused
      exact .refused absent refused
    · rename_i selector accepted
      exact .read absent accepted

/-! ## Runs -/

def after (sources : List String) : Cache :=
  sources.foldl (fun cache source => (cache.compile source).2) empty

@[simp] theorem after_concat (sources : List String) (source : String) :
    after (sources ++ [source]) = ((after sources).compile source).2 := by
  simp [after]

@[simp] theorem length_compileAll (cache : Cache) (sources : List String) :
    (cache.compileAll sources).length = sources.length := by
  induction sources generalizing cache with
  | nil => rfl
  | cons source sources ih => simp [compileAll, ih]

theorem compileAll_append (cache : Cache) (before later : List String) :
    cache.compileAll (before ++ later) = cache.compileAll before ++
      (before.foldl (fun cache source => (cache.compile source).2) cache).compileAll later := by
  induction before generalizing cache with
  | nil => rfl
  | cons source before ih => simp [compileAll, ih]

theorem compileAll_getElem? (before later : List String) (source : String) :
    (empty.compileAll (before ++ source :: later))[before.length]? =
      some ((after before).compile source) := by
  simp [compileAll_append, compileAll, after]

/-! ## The kept readings -/

structure Sound (cache : Cache) : Prop where
  parsed : ∀ entry ∈ cache.entries, parse entry.1 = .ok entry.2.selector
  numbered : ∀ entry ∈ cache.entries, entry.2.number < cache.readings

section
variable {cache : Cache} {source : String} {reading : Reading}

theorem mem_of_find? (kept : cache.find? source = some reading) :
    (source, reading) ∈ cache.entries := by
  obtain ⟨front, back, split, -⟩ := List.lookup_eq_some_iff.1 kept
  rw [split]
  simp

theorem Sound.compile (sound : cache.Sound) (source : String) : (cache.compile source).2.Sound := by
  have step := step_compile cache source
  generalize cache.compile source = result at step
  cases step with
  | recalled kept =>
      have mem := mem_of_find? kept
      constructor
      · rintro entry (_ | ⟨_, old⟩)
        · exact sound.parsed _ mem
        · exact sound.parsed _ (List.mem_of_mem_filter old)
      · rintro entry (_ | ⟨_, old⟩)
        · exact sound.numbered _ mem
        · exact sound.numbered _ (List.mem_of_mem_filter old)
  | refused => exact ⟨sound.parsed, sound.numbered⟩
  | read absent accepted =>
      constructor
      · intro entry mem
        rcases List.mem_cons.1 (List.mem_of_mem_take mem) with rfl | old
        · exact accepted
        · exact sound.parsed _ old
      · intro entry mem
        rcases List.mem_cons.1 (List.mem_of_mem_take mem) with rfl | old
        · exact Nat.lt_succ_self _
        · exact Nat.lt_succ_of_lt (sound.numbered _ old)

end

theorem sound_after (sources : List String) : (after sources).Sound := by
  induction sources using List.reverseRecOn with
  | nil => exact ⟨by simp [after, empty], by simp [after, empty]⟩
  | append_singleton sources source ih =>
      rw [after_concat]
      exact ih.compile source

/-! ## The kept texts -/

def texts (cache : Cache) : List String := cache.entries.map Prod.fst

section
variable {cache : Cache} {source : String}

theorem mem_texts_of_find? {reading : Reading} (kept : cache.find? source = some reading) :
    source ∈ cache.texts :=
  List.mem_map.2 ⟨_, mem_of_find? kept, rfl⟩

theorem not_mem_texts_of_find? (absent : cache.find? source = none) : source ∉ cache.texts := by
  intro mem
  obtain ⟨entry, found, rfl⟩ := List.mem_map.1 mem
  have differs := List.lookup_eq_none_iff.1 absent entry found
  simp at differs

theorem texts_others (entries : List (String × Reading)) (source : String) :
    (others entries source).map Prod.fst = (entries.map Prod.fst).filter (· != source) := by
  rw [others, List.filter_map]
  rfl

theorem texts_compile {known : List String} (nodup : known.Nodup)
    (usable : ∀ text ∈ known, accepted text = true) (held : cache.texts = known.take capacity)
    (source : String) : (cache.compile source).2.texts = (touch known source).take capacity := by
  obtain ⟨room, full⟩ : ∃ room, capacity = room + 1 := ⟨255, rfl⟩
  have step := step_compile cache source
  generalize cache.compile source = result at step
  cases step with
  | recalled kept =>
      have mem := mem_texts_of_find? kept
      rw [held] at mem
      have isAccepted := usable source (List.mem_of_mem_take mem)
      rw [full] at held mem
      have others : (cache.texts).filter (· != source) = (known.erase source).take room := by
        rw [held, ← erase_take mem]
        exact ((nodup.sublist (List.take_sublist _ _)).erase_eq_filter source).symm
      rw [touch, if_pos isAccepted, full, List.take_succ_cons, ← others]
      exact congrArg (source :: ·) (texts_others cache.entries source)
  | refused absent refused =>
      have isRefused : accepted source = false := by
        rw [accepted, refused]
        rfl
      simpa [touch, isRefused, texts] using held
  | read absent read =>
      have isAccepted : accepted source = true := by
        rw [accepted, read]
        rfl
      have outside := not_mem_texts_of_find? absent
      rw [held, full] at outside
      -- The text may be known but not kept, so that it comes to the front from behind the kept ones.
      have unheld : source ∉ known.take room := fun mem =>
        outside (List.take_subset_take_left known (Nat.le_succ room) mem)
      calc (((source, _) :: cache.entries).take capacity).map Prod.fst
          = (source :: cache.texts).take capacity := by rw [List.map_take]; rfl
        _ = source :: known.take room := by
            rw [full, List.take_succ_cons, held, full, List.take_take,
              Nat.min_eq_left (Nat.le_succ room)]
        _ = (touch known source).take capacity := by
            rw [touch, if_pos isAccepted, full, List.take_succ_cons, take_erase unheld]

end

theorem texts_after (sources : List String) :
    (after sources).texts = (recent sources).take capacity := by
  induction sources using List.reverseRecOn with
  | nil => rfl
  | append_singleton sources source ih =>
      rw [after_concat, recent_concat]
      exact texts_compile (nodup_recent sources) (fun _ mem => (mem_recent.1 mem).2) ih source

/-! ## The reading of the last use -/

theorem lookup_others {entries : List (String × Reading)} {source other : String}
    (differs : source ≠ other) : (others entries other).lookup source = entries.lookup source := by
  induction entries with
  | nil => rfl
  | cons entry entries ih =>
      obtain ⟨text, reading⟩ := entry
      rw [others] at ih ⊢
      by_cases same : text = other
      · have elsewhere : (source == text) = false := by simpa [same] using differs
        rw [List.filter_cons_of_neg (by simpa using same), ih, List.lookup_cons, elsewhere]
      · rw [List.filter_cons_of_pos (by simpa using same), List.lookup_cons, List.lookup_cons, ih]

theorem lookup_of_lookup_take {entries : List (String × Reading)} {source : String}
    {reading : Reading} {room : Nat} (kept : (entries.take room).lookup source = some reading) :
    entries.lookup source = some reading := by
  rw [← List.take_append_drop room entries, List.lookup_append, kept, Option.some_or]

section
variable {cache : Cache} {source : String} {reading : Reading}

theorem answer_of_find?_compile (kept : (cache.compile source).2.find? source = some reading) :
    (cache.compile source).1 = .ok reading := by
  have step := step_compile cache source
  generalize cache.compile source = result at step kept
  cases step with
  | recalled =>
      rw [find?, List.lookup_cons_self] at kept
      rw [Option.some.inj kept]
  | refused absent =>
      have found : cache.find? source = some reading := kept
      rw [absent] at found
      cases found
  | read =>
      rw [find?] at kept
      have found := lookup_of_lookup_take kept
      rw [List.lookup_cons_self] at found
      rw [Option.some.inj found]

theorem find?_of_compile_other {other : String} (differs : source ≠ other)
    (kept : (cache.compile other).2.find? source = some reading) :
    cache.find? source = some reading := by
  have elsewhere : (source == other) = false := by simpa using differs
  have step := step_compile cache other
  generalize cache.compile other = result at step kept
  cases step with
  | recalled =>
      rw [find?, List.lookup_cons, elsewhere] at kept
      rwa [find?, ← lookup_others differs]
  | refused => exact kept
  | read =>
      rw [find?] at kept
      have found := lookup_of_lookup_take kept
      rwa [List.lookup_cons, elsewhere] at found

end

theorem answer_of_kept {older newer : List String} {source : String} {reading : Reading}
    (unused : source ∉ newer)
    (kept : (after (older ++ source :: newer)).find? source = some reading) :
    ((after older).compile source).1 = .ok reading := by
  induction newer using List.reverseRecOn with
  | nil =>
      rw [after_concat] at kept
      exact answer_of_find?_compile kept
  | append_singleton newer other ih =>
      rw [List.mem_append, List.mem_singleton, not_or] at unused
      rw [← List.cons_append, ← List.append_assoc, after_concat] at kept
      exact ih unused.1 (find?_of_compile_other unused.2 kept)

/-! ## New readings -/

theorem readings_le_compile (cache : Cache) (source : String) :
    cache.readings ≤ (cache.compile source).2.readings := by
  have step := step_compile cache source
  generalize cache.compile source = result at step
  cases step with
  | recalled | refused => exact Nat.le_refl _
  | read => exact Nat.le_succ _

theorem readings_le_after (older newer : List String) :
    (after older).readings ≤ (after (older ++ newer)).readings := by
  induction newer using List.reverseRecOn with
  | nil => exact Nat.le_of_eq (by rw [List.append_nil])
  | append_singleton newer source ih =>
      rw [← List.append_assoc, after_concat]
      exact Nat.le_trans ih (readings_le_compile _ source)

theorem Sound.number_lt {cache : Cache} (sound : cache.Sound) {source : String} {reading : Reading}
    (answered : (cache.compile source).1 = .ok reading) :
    reading.number < (cache.compile source).2.readings := by
  have step := step_compile cache source
  generalize cache.compile source = result at step answered
  cases step with
  | recalled kept =>
      cases answered
      exact sound.numbered _ (mem_of_find? kept)
  | refused => cases answered
  | read =>
      cases answered
      exact Nat.lt_succ_self _

theorem number_lt_after {older newer : List String} {source : String} {reading : Reading}
    (answered : ((after older).compile source).1 = .ok reading) :
    reading.number < (after (older ++ source :: newer)).readings := by
  have reached := readings_le_after (older ++ [source]) newer
  rw [List.append_assoc, List.singleton_append, after_concat] at reached
  exact Nat.lt_of_lt_of_le ((sound_after older).number_lt answered) reached

/-! ## What is recalled -/

theorem recallable_iff_kept {before : List String} {source : String} :
    Recallable before source ↔ ∃ reading, (after before).find? source = some reading := by
  rw [recallable_iff, ← texts_after]
  constructor
  · intro mem
    cases found : (after before).find? source with
    | none => exact absurd mem (not_mem_texts_of_find? found)
    | some reading => exact ⟨reading, rfl⟩
  · rintro ⟨reading, kept⟩
    exact mem_texts_of_find? kept

theorem size_after_eq (sources : List String) :
    (after sources).size = min capacity (sources.filter accepted).dedup.length := by
  have held := congrArg List.length (texts_after sources)
  rwa [texts, List.length_map, List.length_take, length_recent] at held

theorem size_after (sources : List String) : (after sources).size ≤ capacity := by
  rw [size_after_eq]
  exact Nat.min_le_left _ _

theorem Sound.selector_compile {cache : Cache} (sound : cache.Sound) (source : String) :
    (cache.compile source).1.map Reading.selector = parse source := by
  have step := step_compile cache source
  generalize cache.compile source = result at step
  cases step with
  | recalled kept => exact (sound.parsed _ (mem_of_find? kept)).symm
  | refused absent refused => exact refused.symm
  | read absent read => exact read.symm

theorem answer_of_find? {cache : Cache} {source : String} {reading : Reading}
    (kept : cache.find? source = some reading) : (cache.compile source).1 = .ok reading := by
  rw [compile, kept]

theorem hits_compile_iff (cache : Cache) (source : String) :
    (cache.compile source).2.hits = cache.hits + 1 ↔
      ∃ reading, cache.find? source = some reading := by
  have step := step_compile cache source
  generalize cache.compile source = result at step
  cases step with
  | recalled kept => exact iff_of_true rfl ⟨_, kept⟩
  | refused absent | read absent => simp [absent]

theorem compile_of_absent {cache : Cache} {source : String} (absent : cache.find? source = none) :
    (cache.compile source).2.misses = cache.misses + 1 ∧
      ∀ reading, (cache.compile source).1 = .ok reading → reading.number = cache.readings := by
  have step := step_compile cache source
  generalize cache.compile source = result at step
  cases step with
  | recalled kept =>
      rw [absent] at kept
      cases kept
  | refused => exact ⟨rfl, fun reading answered => by cases answered⟩
  | read => exact ⟨rfl, fun reading answered => by cases answered; rfl⟩

theorem number_lt_of_getElem? {before later : List String} {i : Nat} {reading : Reading}
    {cache : Cache} (past : i < before.length)
    (answered : (empty.compileAll (before ++ later))[i]? = some (.ok reading, cache)) :
    reading.number < (after before).readings := by
  obtain ⟨older, source, newer, rfl, rfl⟩ :
      ∃ older source newer, before = older ++ source :: newer ∧ older.length = i :=
    ⟨before.take i, before[i], before.drop (i + 1), by simp, by simp; omega⟩
  rw [List.append_assoc, List.cons_append, compileAll_getElem?, Option.some.injEq] at answered
  exact number_lt_after (congrArg Prod.fst answered)

/-- Every text is answered with its selector or its refusal. A text that is recallable is a hit and
is answered with the reading of its last use; any other text is read anew. -/
theorem compileAll_recalls (before later : List String) (source : String) :
    ∃ steps answer cache, empty.compileAll (before ++ source :: later) = steps ∧
      steps[before.length]? = some (answer, cache) ∧
      cache = after (before ++ [source]) ∧ cache.size ≤ capacity ∧
      answer.map Reading.selector = parse source ∧
      (cache.hits = (after before).hits + 1 ↔ Recallable before source) ∧
      (Recallable before source →
        ∀ older newer, before = older ++ source :: newer → source ∉ newer →
          ∃ earlier, steps[older.length]? = some (answer, earlier)) ∧
      (¬Recallable before source → cache.misses = (after before).misses + 1 ∧
        ∀ reading, answer = .ok reading → ∀ i < before.length, ∀ old earlier,
          steps[i]? = some (.ok old, earlier) → old.number ≠ reading.number) := by
  have left := after_concat before source
  refine ⟨_, ((after before).compile source).1, ((after before).compile source).2, rfl,
    compileAll_getElem? before later source, left.symm, left ▸ size_after _,
    (sound_after before).selector_compile source, ?_, ?_, ?_⟩
  · rw [hits_compile_iff, recallable_iff_kept]
  · rintro recallable older newer rfl unused
    obtain ⟨reading, kept⟩ := recallable_iff_kept.1 recallable
    have use := compileAll_getElem? older (newer ++ source :: later) source
    rw [← List.cons_append, ← List.append_assoc] at use
    refine ⟨((after older).compile source).2, ?_⟩
    rw [use, answer_of_find? kept, ← answer_of_kept unused kept]
  · intro forgotten
    have absent : (after before).find? source = none := by
      rw [recallable_iff_kept] at forgotten
      exact Option.eq_none_iff_forall_ne_some.2 fun reading kept => forgotten ⟨reading, kept⟩
    obtain ⟨missed, renewed⟩ := compile_of_absent absent
    refine ⟨missed, fun reading answered i past old earlier found => ?_⟩
    have made := number_lt_of_getElem? past found
    rw [renewed reading answered]
    exact Nat.ne_of_lt made

end TagQuery.Selector.Cache
