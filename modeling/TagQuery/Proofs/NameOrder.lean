import Mathlib.Data.List.Basic
import Mathlib.Logic.Function.Basic
import TagQuery.Proofs.Queries

namespace TagQuery.TagSet

/-! ## First occurrences -/

theorem eraseDups_concat (names : List String) (name : String) :
    (names ++ [name]).eraseDups =
      if name ∈ names then names.eraseDups else names.eraseDups ++ [name] := by
  rw [List.eraseDups_append]
  split
  · rename_i known
    simp [List.removeAll, known]
  · rename_i new
    simp [List.removeAll, new, List.eraseDups_cons]

theorem eraseDups_filter (names : List String) (p : String → Bool) :
    (names.filter p).eraseDups = names.eraseDups.filter p := by
  induction names using List.reverseRecOn with
  | nil => simp
  | append_singleton names name ih =>
      rw [List.filter_append, eraseDups_concat]
      by_cases passes : p name = true
      · have kept : [name].filter p = [name] := by simp [passes]
        rw [kept, eraseDups_concat, ih]
        by_cases known : name ∈ names
        · simp [known, passes]
        · simp [known, passes]
      · have dropped : [name].filter p = [] := by simp [passes]
        rw [dropped, List.append_nil, ih]
        split
        · rfl
        · rw [List.filter_append, dropped, List.append_nil]

theorem pairwise_idxOf_eraseDups (names : List String) :
    names.eraseDups.Pairwise fun name other => names.idxOf name < names.idxOf other := by
  induction names using List.reverseRecOn with
  | nil => simp
  | append_singleton names last ih =>
      have kept : names.eraseDups.Pairwise fun name other =>
          (names ++ [last]).idxOf name < (names ++ [last]).idxOf other := by
        refine ih.imp_of_mem fun mem memOther before => ?_
        rw [List.mem_eraseDups] at mem memOther
        rwa [List.idxOf_append_of_mem mem, List.idxOf_append_of_mem memOther]
      rw [eraseDups_concat]
      split
      · exact kept
      · rename_i new
        refine List.pairwise_append.2 ⟨kept, List.pairwise_singleton _ _, ?_⟩
        intro name mem other isLast
        rw [List.mem_eraseDups] at mem
        rw [List.mem_singleton.1 isLast, List.idxOf_append_of_mem mem,
          List.idxOf_append_of_notMem new]
        exact Nat.lt_add_right _ (List.idxOf_lt_length_iff.2 mem)

theorem nodup_eraseDups (names : List String) : names.eraseDups.Nodup := by
  refine (pairwise_idxOf_eraseDups names).imp ?_
  rintro name _ before rfl
  exact Nat.lt_irrefl _ before

namespace Index

/-! ## Indices as lists of names -/

def listing (names : List String) (held : String → List Value) : Index :=
  names.map fun name => (.text name, held name)

@[simp] theorem listing_cons (name : String) (names : List String)
    (held : String → List Value) :
    listing (name :: names) held = (.text name, held name) :: listing names held :=
  rfl

section
variable {names : List String} {name : String} {values : List Value} {held : String → List Value}

theorem get?_listing :
    (listing names held).get? (.text name) =
      if name ∈ names then some (held name) else none := by
  induction names with
  | nil => rfl
  | cons first names ih =>
      by_cases same : name = first
      · simp [same]
      · simp [same, ih]

theorem listing_update (new : name ∉ names) :
    listing names (Function.update held name values) = listing names held := by
  apply List.map_congr_left
  intro other mem
  have differs : other ≠ name := fun same => new (same ▸ mem)
  rw [Function.update_of_ne differs]

theorem put_listing_of_not_mem (new : name ∉ names) :
    put (.text name) values (listing names held) =
      listing names held ++ [(.text name, values)] := by
  induction names with
  | nil => rfl
  | cons first names ih =>
      rw [List.mem_cons, not_or] at new
      simp [put, new.1, ih new.2]

theorem put_listing_of_mem (nodup : names.Nodup) (known : name ∈ names) :
    put (.text name) values (listing names held) =
      listing names (Function.update held name values) := by
  induction names with
  | nil => cases known
  | cons first names ih =>
      rw [List.nodup_cons] at nodup
      by_cases same : name = first
      · subst same
        simp [put, listing_update nodup.1]
      · have later := (List.mem_cons.1 known).resolve_left same
        simp [put, same, Ne.symm same, ih nodup.2 later]

end

/-! ## The index of a list -/

section
variable {tags more : List Tag} {names others : List String}

theorem valuesOf_concat {tag : Tag} {name : String} (named : tag.name = .text name) :
    valuesOf (tags ++ [tag]) = Function.update (valuesOf tags) name tag.values := by
  funext other
  by_cases same : other = name
  · simp [valuesOf, named, same]
  · have differs : Value.text name ≠ .text other := fun equal => same (Value.text.inj equal).symm
    simp [valuesOf, named, same, get?_put_other _ _ differs]

theorem ofTags_eq_listing (named : tags.map (·.name) = names.map .text) :
    ofTags tags = listing names.eraseDups (valuesOf tags) := by
  induction tags using List.reverseRecOn generalizing names with
  | nil =>
      obtain rfl : names = [] := List.map_eq_nil_iff.1 named.symm
      rfl
  | append_singleton tags tag ih =>
      rw [List.map_append, eq_comm, List.map_eq_append_iff] at named
      obtain ⟨front, back, rfl, namedFront, namedBack⟩ := named
      obtain ⟨name, rfl, namedLast⟩ := List.map_eq_singleton_iff.1 namedBack
      have namedTag : tag.name = .text name := namedLast.symm
      rw [ofTags_concat, valuesOf_concat namedTag, ih namedFront.symm, namedTag, eraseDups_concat]
      -- A known name keeps its place and changes its values, a new one goes to the end.
      split
      · rename_i known
        exact put_listing_of_mem (nodup_eraseDups front) (List.mem_eraseDups.2 known)
      · rename_i new
        have absent : name ∉ front.eraseDups := fun mem => new (List.mem_eraseDups.1 mem)
        have kept : listing front.eraseDups (Function.update (valuesOf tags) name tag.values) =
            listing front.eraseDups (valuesOf tags) := listing_update absent
        rw [put_listing_of_not_mem absent, ← kept]
        simp [listing]

theorem exists_named_iff (named : tags.map (·.name) = names.map .text) {name : String} :
    (∃ tag ∈ tags, tag.name = .text name) ↔ name ∈ names := by
  rw [← List.mem_map, named, List.mem_map]
  simp

theorem get?_ofTags (named : tags.map (·.name) = names.map .text) {name : String} :
    (ofTags tags).get? (.text name) = if name ∈ names then some (valuesOf tags name) else none := by
  simp [ofTags_eq_listing named, get?_listing]

theorem valuesOf_append (named : more.map (·.name) = others.map .text) (name : String) :
    valuesOf (tags ++ more) name =
      if name ∈ others then valuesOf more name else valuesOf tags name := by
  split
  · rename_i known
    obtain ⟨tag, mem, namedTag⟩ := (exists_named_iff named).2 known
    have found := lastNamed_valuesOf more name
    generalize valuesOf more name = values at found
    cases found with
    | found before last after isNamed isLast =>
        rw [← List.append_assoc]
        exact valuesOf_of_lastNamed (.found (tags ++ before) last after isNamed isLast)
    | absent _ absent => exact absurd namedTag (absent tag mem)
  · rename_i unknown
    rw [valuesOf, get?_ofTags_append, valuesOf]
    intro tag mem namedTag
    exact unknown ((exists_named_iff named).1 ⟨tag, mem, namedTag⟩)

theorem ofTags_append (named : tags.map (·.name) = names.map .text)
    (namedMore : more.map (·.name) = others.map .text) :
    ofTags (tags ++ more) =
      ((ofTags tags).map fun item => (item.1, ((ofTags more).get? item.1).getD item.2)) ++
        (ofTags more).filter fun item => ((ofTags tags).get? item.1).isNone := by
  have namedBoth : (tags ++ more).map (·.name) = (names ++ others).map .text := by
    rw [List.map_append, List.map_append, named, namedMore]
  have overridden : ((ofTags tags).map fun item =>
      (item.1, ((ofTags more).get? item.1).getD item.2)) =
      listing names.eraseDups (valuesOf (tags ++ more)) := by
    rw [ofTags_eq_listing named, listing, listing, List.map_map]
    apply List.map_congr_left
    intro name _
    rw [Function.comp_apply, get?_ofTags namedMore, valuesOf_append namedMore]
    split <;> rfl
  have added : ((ofTags more).filter fun item => ((ofTags tags).get? item.1).isNone) =
      listing (others.removeAll names).eraseDups (valuesOf (tags ++ more)) := by
    have chosen (name : String) : ((ofTags tags).get? (.text name)).isNone = !names.elem name := by
      rw [get?_ofTags named]
      by_cases known : name ∈ names <;> simp [known]
    rw [List.removeAll, eraseDups_filter, ofTags_eq_listing namedMore, listing, listing,
      List.filter_map, Function.comp_def]
    simp only [chosen]
    apply List.map_congr_left
    intro name mem
    have known : name ∈ others := List.mem_eraseDups.1 (List.mem_of_mem_filter mem)
    rw [valuesOf_append namedMore, if_pos known]
  rw [ofTags_eq_listing namedBoth, overridden, added, List.eraseDups_append, listing,
    List.map_append]
  rfl

theorem exists_last (named : tags.map (·.name) = names.map .text) {item : Value × List Value}
    (mem : item ∈ ofTags tags) :
    ∃ before tag after, tags = before ++ tag :: after ∧ item = (tag.name, tag.values) ∧
      ∀ other ∈ after, other.name ≠ tag.name := by
  rw [ofTags_eq_listing named] at mem
  obtain ⟨name, known, rfl⟩ := List.mem_map.1 mem
  obtain ⟨tag, memTag, namedTag⟩ := (exists_named_iff named).2 (List.mem_eraseDups.1 known)
  have found := lastNamed_valuesOf tags name
  generalize valuesOf tags name = values at found
  cases found with
  | found before last after isNamed isLast =>
      exact ⟨before, last, after, rfl, by rw [isNamed], fun other mem => isNamed ▸ isLast other mem⟩
  | absent _ absent => exact absurd namedTag (absent tag memTag)

end

end Index

theorem ofTags_of_named {tags : List Tag} {names : List String}
    (named : tags.map (·.name) = names.map .text) : ofTags tags = .ok ⟨tags⟩ := by
  rw [ofTags, named, (Value.texts_map names).hashable]
  rfl

/-- The index of a list of tags has their names, each once, in the order of their first tags, each
with the values of the last tag of the name. Behind the list another one overrides the values of the
names that it has, adds its new names, and answers for its own names. -/
theorem index_names {tags more : List Tag} {names others : List String}
    (named : tags.map (·.name) = names.map .text)
    (namedMore : more.map (·.name) = others.map .text) :
    ∃ set second both, ofTags tags = .ok set ∧ ofTags more = .ok second ∧
      ofTags (tags ++ more) = .ok both ∧
      (∃ keys : List String, set.index.map Prod.fst = keys.map .text ∧
        (∀ name, name ∈ keys ↔ name ∈ names) ∧
        keys.Pairwise fun name other => names.idxOf name < names.idxOf other) ∧
      (∀ item ∈ set.index, ∃ before tag after, tags = before ++ tag :: after ∧
        item = (tag.name, tag.values) ∧ ∀ other ∈ after, other.name ≠ tag.name) ∧
      both.index =
        (set.index.map fun item => (item.1, (second.index.get? item.1).getD item.2)) ++
          second.index.filter (fun item => (set.index.get? item.1).isNone) ∧
      ∀ query name, Tag.Denotes query name → both.valuesFor query =
        if name ∈ others then second.valuesFor query else set.valuesFor query := by
  have namedBoth : (tags ++ more).map (·.name) = (names ++ others).map .text := by
    rw [List.map_append, List.map_append, named, namedMore]
  refine ⟨_, _, _, ofTags_of_named named, ofTags_of_named namedMore, ofTags_of_named namedBoth,
    ⟨names.eraseDups, ?_, fun name => List.mem_eraseDups, pairwise_idxOf_eraseDups names⟩,
    fun item mem => Index.exists_last named mem, Index.ofTags_append named namedMore, ?_⟩
  · rw [index, Index.ofTags_eq_listing named, Index.listing, List.map_map]
    rfl
  · rintro query name denotes
    obtain rfl := Tag.denotes_iff.1 denotes
    have values (tags : List Tag) :
        valuesFor ⟨tags⟩ query = ⟨Index.valuesOf tags (Tag.unmarked query)⟩ := rfl
    rw [values, values, values, Index.valuesOf_append namedMore]
    split <;> rfl

theorem index_names_overridden :
    ∃ tags more : List Tag,
      tags = [.ofString "@env=dev" (.number 1), .ofString "@smoke" (.number 2)] ∧
      more = [.ofString "@os=linux" (.number 5), .ofString "@env" (.number 6)] ∧
      ∃ set second both, ofTags tags = .ok set ∧ ofTags more = .ok second ∧
        ofTags (tags ++ more) = .ok both ∧ (set.valuesFor "@env").items = [.text "dev"] ∧
        both.index = [(.text "env", []), (.text "smoke", []), (.text "os", [.text "linux"])] ∧
        both.valuesFor "@env" = second.valuesFor "@env" ∧
        both.valuesFor "smoke" = set.valuesFor "smoke" := by
  obtain ⟨set, second, both, made, madeSecond, madeBoth, -, -, joined, answers⟩ :=
    @index_names [.ofString "@env=dev" (.number 1), .ofString "@smoke" (.number 2)]
      [.ofString "@os=linux" (.number 5), .ofString "@env" (.number 6)]
      ["env", "smoke"] ["os", "env"] rfl rfl
  refine ⟨_, _, rfl, rfl, set, second, both, made, madeSecond, madeBoth, ?_, ?_, ?_, ?_⟩
  · cases made
    rfl
  · rw [joined]
    cases made
    cases madeSecond
    rfl
  · exact answers "@env" "env" (by decide)
  · exact answers "smoke" "smoke" (by decide)

end TagQuery.TagSet
