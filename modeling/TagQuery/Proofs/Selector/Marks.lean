import Mathlib.Data.List.Forall2
import TagQuery.Proofs.Selector.Grammar
import TagQuery.Proofs.Selector.Laws

namespace TagQuery

namespace Tag

def Plain (text : String) : Prop := ∀ rest, text ≠ marked rest

theorem Plain.unmarked_eq {text : String} (plain : Plain text) : unmarked text = text :=
  denotes_iff.1 (.plain text plain)

theorem plain_iff {text : String} : Plain text ↔ unmarked text = text := by
  refine ⟨Plain.unmarked_eq, ?_⟩
  rintro same rest rfl
  have lengths := congrArg String.length same
  rw [unmarked_marked] at lengths
  simp [marked] at lengths

instance : DecidablePred Plain := fun _ => decidable_of_iff _ plain_iff.symm

/-- The same query, before which the mark may have been put if it had none. -/
inductive Marks : String → String → Prop where
  | unchanged (query : String) : Marks query query
  | added {query : String} (plain : Plain query) : Marks query (marked query)

theorem Marks.unmarked_eq {query other : String} (marks : Marks query other) :
    unmarked query = unmarked other := by
  cases marks with
  | unchanged => rfl
  | added plain => simp [plain.unmarked_eq]

end Tag

namespace TagSet

variable {set : TagSet} {query other : String} {candidates others : List String}

theorem contains_of_marks (marks : Tag.Marks query other) :
    set.contains query = set.contains other := by
  rw [contains, contains, marks.unmarked_eq]

theorem valuesFor_of_marks (marks : Tag.Marks query other) :
    set.valuesFor query = set.valuesFor other := by
  rw [valuesFor, valuesFor, marks.unmarked_eq]

theorem map_contains_of_marks (marks : List.Forall₂ Tag.Marks candidates others) :
    candidates.map set.contains = others.map set.contains := by
  induction marks with
  | nil => rfl
  | cons first _ ih => simp [contains_of_marks first, ih]

theorem anyOf_of_marks (marks : List.Forall₂ Tag.Marks candidates others) :
    set.anyOf candidates = set.anyOf others := by
  have read (candidates : List String) :
      set.anyOf candidates = (candidates.map set.contains).any id := by
    rw [List.any_map]
    rfl
  rw [read, read, map_contains_of_marks marks]

theorem allOf_of_marks (marks : List.Forall₂ Tag.Marks candidates others) :
    set.allOf candidates = set.allOf others := by
  have read (candidates : List String) :
      set.allOf candidates = (candidates.map set.contains).all id := by
    rw [List.all_map]
    rfl
  rw [read, read, map_contains_of_marks marks]

theorem noneOf_of_marks (marks : List.Forall₂ Tag.Marks candidates others) :
    set.noneOf candidates = set.noneOf others := by
  rw [noneOf, noneOf, anyOf_of_marks marks]

@[simp] theorem contains_marked_iff :
    set.contains (Tag.marked query) = true ↔ ∃ tag ∈ set.tags, tag.text = query := by
  simp only [contains_iff, Tag.denotes_iff, Tag.unmarked_marked]
  exact exists_congr fun tag => and_congr_right fun _ => eq_comm

theorem contains_toString {tag : Tag} (mem : tag ∈ set.tags) : set.contains tag.toString = true :=
  contains_marked_iff.2 ⟨tag, mem, rfl⟩

end TagSet

namespace Selector

/-- The same call, where the mark may have been put before arguments of the function. -/
inductive Call.Marks : Call → Call → Prop where
  | anyOf {candidates others : List String} (marks : List.Forall₂ Tag.Marks candidates others) :
      Marks (.anyOf candidates) (.anyOf others)
  | allOf {candidates others : List String} (marks : List.Forall₂ Tag.Marks candidates others) :
      Marks (.allOf candidates) (.allOf others)
  | noneOf {candidates others : List String} (marks : List.Forall₂ Tag.Marks candidates others) :
      Marks (.noneOf candidates) (.noneOf others)
  | valuesFor {name other : String} (method : Option Method) (marks : Tag.Marks name other) :
      Marks (.valuesFor name method) (.valuesFor other method)

theorem Call.Marks.evaluate_eq (set : TagSet) {call other : Call} (marks : call.Marks other) :
    call.evaluate set = other.evaluate set := by
  cases marks with
  | anyOf marks => rw [Call.evaluate, Call.evaluate, TagSet.anyOf_of_marks marks]
  | allOf marks => rw [Call.evaluate, Call.evaluate, TagSet.allOf_of_marks marks]
  | noneOf marks => rw [Call.evaluate, Call.evaluate, TagSet.noneOf_of_marks marks]
  | valuesFor method marks =>
      cases method <;> rw [Call.evaluate, Call.evaluate, TagSet.valuesFor_of_marks marks]

theorem Tree.Alike.evaluate_eq {set : TagSet} {alike : Call → Call → Prop}
    (same : ∀ call other, alike call other → call.evaluate set = other.evaluate set)
    {tree other : Selector} (trees : tree.Alike alike other) :
    tree.evaluate set = other.evaluate set := by
  induction trees with
  | call calls => exact same _ _ calls
  | negation _ ih => simp [ih]
  | conjunction _ _ ihLeft ihRight => simp [Tree.evaluate, ihLeft, ihRight]
  | disjunction _ _ ihLeft ihRight => simp [Tree.evaluate, ihLeft, ihRight]

/-- A query that does not begin with `@` can be asked with it, in every place of every question and
of every selector. Each tag is found by its annotation, and by its text if that does not begin with
`@`. -/
theorem answers_of_marks {tags : List Tag} (parsed : ∀ tag ∈ tags, tag.Parsed) :
    ∃ set, TagSet.ofTags tags = .ok set ∧
      (∀ query, Tag.Plain query → set.contains (Tag.marked query) = set.contains query ∧
        set.valuesFor (Tag.marked query) = set.valuesFor query) ∧
      (∀ candidates others, List.Forall₂ Tag.Marks candidates others →
        set.anyOf others = set.anyOf candidates ∧ set.allOf others = set.allOf candidates ∧
          set.noneOf others = set.noneOf candidates) ∧
      (∀ tag ∈ tags, set.contains tag.toString = true ∧
        (Tag.Plain tag.text → set.contains tag.text = true)) ∧
      (∀ tree other : Selector, tree.Alike Call.Marks other → Interchangeable set tree other) ∧
      ∀ query, (set.contains (Tag.marked query) = true ↔ ∃ tag ∈ tags, tag.text = query) ∧
        TagSet.LastNamed query tags (set.valuesFor (Tag.marked query)).items := by
  refine ⟨⟨tags⟩, TagSet.ofTags_of_parsed parsed, ?_, ?_, ?_, ?_, ?_⟩
  · intro query plain
    exact ⟨(TagSet.contains_of_marks (.added plain)).symm,
      (TagSet.valuesFor_of_marks (.added plain)).symm⟩
  · intro candidates others marks
    exact ⟨(TagSet.anyOf_of_marks marks).symm, (TagSet.allOf_of_marks marks).symm,
      (TagSet.noneOf_of_marks marks).symm⟩
  · intro tag mem
    have found : TagSet.contains ⟨tags⟩ tag.toString = true := TagSet.contains_toString mem
    refine ⟨found, fun plain => ?_⟩
    rwa [TagSet.contains_of_marks (.added plain)]
  · intro tree other marks
    exact interchangeable_of_evaluate parsed (marks.evaluate_eq fun _ _ same => same.evaluate_eq _)
  · intro query
    have named : TagSet.LastNamed (Tag.unmarked (Tag.marked query)) tags
        (TagSet.valuesFor ⟨tags⟩ (Tag.marked query)).items := TagSet.Index.lastNamed_valuesOf _ _
    rw [Tag.unmarked_marked] at named
    exact ⟨TagSet.contains_marked_iff, named⟩

theorem answers_of_marks_doubled :
    ∃ set, TagSet.ofTags [.ofString "@env=dev" (.number 1), .ofString "@@a" (.number 2)] = .ok set ∧
      set.contains "@env=dev" = set.contains "env=dev" ∧
      set.allOf ["@env=dev", "@b"] = set.allOf ["env=dev", "@b"] ∧
      set.contains "@@a" = true ∧
      Interchangeable set
        (.disjunction (.call (.noneOf ["slow", "fast"])) (.call (.valuesFor "env" (some .isPresent))))
        (.disjunction (.call (.noneOf ["slow", "@fast"]))
          (.call (.valuesFor "@env" (some .isPresent)))) := by
  have parsed : ∀ tag ∈ [Tag.ofString "@env=dev" (.number 1), .ofString "@@a" (.number 2)],
      tag.Parsed := by
    simp
  have env : Tag.Marks "env=dev" "@env=dev" := .added (by decide)
  have fast : Tag.Marks "fast" "@fast" := .added (by decide)
  have name : Tag.Marks "env" "@env" := .added (by decide)
  obtain ⟨set, made, plain, lists, own, trees, -⟩ := answers_of_marks parsed
  refine ⟨set, made, (plain "env=dev" (by decide)).1, ?_, ?_, ?_⟩
  · exact (lists _ _ (.cons env (.cons (.unchanged "@b") .nil))).2.1
  · have text : (Tag.ofString "@@a" (.number 2)).toString = "@@a" := by decide +kernel
    rw [← text]
    exact (own _ (by simp)).1
  · refine trees _ _ (.disjunction (.call (.noneOf ?_)) (.call (.valuesFor _ name)))
    exact .cons (.unchanged "slow") (.cons fast .nil)

/-- A text that begins with `@` is no query for itself: the `@` is taken for the mark. -/
theorem contains_text_with_mark :
    ∃ tag, tag = Tag.ofString "@@a" (.number 0) ∧ ∃ set, TagSet.ofTags [tag] = .ok set ∧
      tag.text = "@a" ∧ set.contains tag.text = false ∧
      set.contains (Tag.marked tag.text) = true := by
  refine ⟨_, rfl, ⟨[.ofString "@@a" (.number 0)]⟩, ?_, ?_, ?_, ?_⟩
  · exact TagSet.ofTags_of_parsed (by simp)
  all_goals decide +kernel

end Selector

end TagQuery
