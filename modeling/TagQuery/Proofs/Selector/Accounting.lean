import TagQuery.Proofs.Selector.Caching

namespace TagQuery.Selector.Cache

/-! ## Counts -/

theorem counts_compile (cache : Cache) (source : String) :
    (cache.compile source).2.hits + (cache.compile source).2.misses =
      cache.hits + cache.misses + 1 := by
  have step := step_compile cache source
  generalize cache.compile source = result at step
  cases step with
  | recalled => exact Nat.add_right_comm cache.hits 1 cache.misses
  | refused | read => rfl

theorem counts_after (sources : List String) :
    (after sources).hits + (after sources).misses = sources.length := by
  induction sources using List.reverseRecOn with
  | nil => rfl
  | append_singleton sources source ih =>
      simp [counts_compile, ih]

/-! ## Refused texts -/

theorem Sound.accepted {cache : Cache} (sound : cache.Sound) {entry : String × Reading}
    (mem : entry ∈ cache.entries) : accepted entry.1 = true := by
  rw [Cache.accepted, sound.parsed entry mem]
  rfl

theorem exists_refusal {source : String} (isRefused : accepted source = false) :
    ∃ refusal, parse source = .error refusal := by
  cases parsed : parse source with
  | error refusal => exact ⟨refusal, rfl⟩
  | ok selector =>
      rw [accepted, parsed] at isRefused
      cases isRefused

theorem Sound.compile_refused {cache : Cache} (sound : cache.Sound) {source : String}
    {refusal : Refusal} (refused : parse source = .error refusal) :
    cache.compile source = (.error refusal, { cache with misses := cache.misses + 1 }) := by
  have step := step_compile cache source
  generalize cache.compile source = result at step ⊢
  cases step with
  | recalled kept =>
      have parsed := sound.parsed _ (mem_of_find? kept)
      rw [refused] at parsed
      cases parsed
  | refused absent other =>
      rw [refused] at other
      cases other
      rfl
  | read absent parsed =>
      rw [refused] at parsed
      cases parsed

/-! ## Runs with and without refused texts -/

/-- The caches keep the same readings in the same order and number the next reading alike. -/
structure KeepsAlike (cache other : Cache) : Prop where
  entries : cache.entries = other.entries
  readings : cache.readings = other.readings

section
variable {cache other : Cache}

theorem KeepsAlike.find? (alike : cache.KeepsAlike other) (source : String) :
    cache.find? source = other.find? source := by
  simp [Cache.find?, alike.entries]

theorem KeepsAlike.hit_iff (alike : cache.KeepsAlike other) (source : String) :
    (cache.compile source).2.hits = cache.hits + 1 ↔
      (other.compile source).2.hits = other.hits + 1 := by
  simp [hits_compile_iff, alike.find?]

theorem KeepsAlike.compile (alike : cache.KeepsAlike other) (source : String) :
    (cache.compile source).1 = (other.compile source).1 ∧
      (cache.compile source).2.KeepsAlike (other.compile source).2 := by
  unfold Cache.compile Cache.find?
  rw [alike.entries, alike.readings]
  split
  · exact ⟨rfl, rfl, rfl⟩
  · split
    · exact ⟨rfl, rfl, rfl⟩
    · exact ⟨rfl, rfl, rfl⟩

end

/-- The second run is the first one with refused texts put into it. -/
inductive Padded : List String → List String → Prop
  | nil : Padded [] []
  | kept {sources padded : List String} (before : Padded sources padded) (source : String) :
      Padded (sources ++ [source]) (padded ++ [source])
  | refused {sources padded : List String} (before : Padded sources padded) (source : String)
      (isRefused : accepted source = false) : Padded sources (padded ++ [source])

theorem Padded.keepsAlike {sources padded : List String} (pads : Padded sources padded) :
    (after sources).KeepsAlike (after padded) := by
  induction pads with
  | nil => exact ⟨rfl, rfl⟩
  | kept before source ih =>
      simpa using (ih.compile source).2
  | refused before source isRefused ih =>
      obtain ⟨refusal, refused⟩ := exists_refusal isRefused
      rw [after_concat, (sound_after _).compile_refused refused]
      exact ⟨ih.entries, ih.readings⟩

/-- After a run the cache holds as many texts as were accepted, up to its capacity, and has counted
every call. It holds no refused text: such a text counts one miss and changes nothing else, and
putting such texts into the run changes neither the answer nor the hit of a call that follows. -/
theorem compileAll_accounts (sources : List String) :
    (∀ source later, (empty.compileAll (sources ++ source :: later))[sources.length]? =
      some ((after sources).compile source)) ∧
      (after sources).size = min capacity (sources.filter accepted).dedup.length ∧
      (after sources).hits + (after sources).misses = sources.length ∧
      (∀ entry ∈ (after sources).entries, accepted entry.1 = true) ∧
      (∀ source, accepted source = false → ∃ refusal, (after sources).compile source =
        (.error refusal, { after sources with misses := (after sources).misses + 1 })) ∧
      ∀ padded, Padded sources padded → ∀ source,
        ((after padded).compile source).1 = ((after sources).compile source).1 ∧
          (((after padded).compile source).2.hits = (after padded).hits + 1 ↔
            ((after sources).compile source).2.hits = (after sources).hits + 1) := by
  have sound := sound_after sources
  refine ⟨fun source later => compileAll_getElem? sources later source, size_after_eq sources,
    counts_after sources, fun entry mem => sound.accepted mem, ?_, ?_⟩
  · intro source isRefused
    obtain ⟨refusal, refused⟩ := exists_refusal isRefused
    exact ⟨refusal, sound.compile_refused refused⟩
  · intro padded pads source
    have alike := pads.keepsAlike
    exact ⟨(alike.compile source).1.symm, (alike.hit_iff source).symm⟩

theorem compileAll_accounts_refused :
    Padded ["anyOf('a')"] ["(", "anyOf('a')", "("] ∧
      ((after ["(", "anyOf('a')", "("]).compile "anyOf('a')").1 =
        ((after ["anyOf('a')"]).compile "anyOf('a')").1 := by
  have isRefused : accepted "(" = false := by decide +kernel
  have pads : Padded ["anyOf('a')"] ["(", "anyOf('a')", "("] :=
    .refused (.kept (.refused .nil "(" isRefused) "anyOf('a')") "(" isRefused
  obtain ⟨-, -, -, -, -, same⟩ := compileAll_accounts ["anyOf('a')"]
  exact ⟨pads, (same _ pads "anyOf('a')").1⟩

end TagQuery.Selector.Cache
