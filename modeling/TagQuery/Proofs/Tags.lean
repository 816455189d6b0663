import TagQuery.TagSet

namespace TagQuery

namespace Value

@[simp] theorem text_same_iff {s : String} {value : Value} :
    (text s).same value = true ↔ value = text s := by
  cases value with
  | text t =>
      rw [same, beq_iff_eq, text.injEq]
      exact eq_comm
  | _ => simp [same, sameQuantity, quantity?]

@[simp] theorem same_text_iff {s : String} {value : Value} :
    value.same (text s) = true ↔ value = text s := by
  cases value with
  | text t => simp [same]
  | _ => simp [same, sameQuantity, quantity?]

@[simp] theorem text_isIn_iff {s : String} {items : List Value} :
    (text s).isIn items = true ↔ text s ∈ items := by
  simp [isIn]

def Texts (values : List Value) : Prop := ∀ value ∈ values, ∃ s, value = text s

theorem texts_map (items : List String) : Texts (items.map text) := by
  intro value mem
  obtain ⟨s, -, rfl⟩ := List.mem_map.1 mem
  exact ⟨s, rfl⟩

theorem hashable_of_forall {values : List Value}
    (each : ∀ value ∈ values, value.isHashable = true) : hashable values = .ok () := by
  induction values with
  | nil => rfl
  | cons value values ih =>
      rw [hashable, if_pos (each value List.mem_cons_self)]
      exact ih fun other mem => each other (List.mem_cons_of_mem _ mem)

theorem Texts.hashable {values : List Value} (texts : Texts values) : hashable values = .ok () := by
  apply hashable_of_forall
  intro value mem
  obtain ⟨s, rfl⟩ := texts value mem
  rfl

theorem Texts.sameItems_iff {items others : List Value} (texts : Texts others) :
    sameItems items others = true ↔ items = others := by
  induction others generalizing items with
  | nil => cases items <;> simp [sameItems]
  | cons other others ih =>
      obtain ⟨s, rfl⟩ := texts other List.mem_cons_self
      cases items with
      | nil => simp [sameItems]
      | cons item items =>
          have rest : sameItems items others = true ↔ items = others :=
            ih fun value mem => texts value (List.mem_cons_of_mem _ mem)
          simp [sameItems, rest]

end Value

@[simp] theorem Line.ofValue?_toValue (line : Line) : ofValue? line.toValue = some line := by
  cases line <;> rfl

namespace Tag

def key (tag : Tag) : String × Value × List Value := (tag.text, tag.name, tag.values)

structure Textual (tag : Tag) : Prop where
  name : ∃ name, tag.name = .text name
  values : Value.Texts tag.values

theorem Textual.same_iff {tag other : Tag} (textual : other.Textual) :
    tag.same other = true ↔ tag.key = other.key := by
  obtain ⟨name, named⟩ := textual.name
  simp [same, key, named, textual.values.sameItems_iff, and_assoc]

theorem Textual.hashable {tag : Tag} (textual : tag.Textual) : tag.hashable = .ok () := by
  have texts : Value.Texts (tag.name :: tag.values) := by
    rintro value (_ | ⟨_, mem⟩)
    · exact textual.name
    · exact textual.values value mem
  exact texts.hashable

def Parsed (tag : Tag) : Prop := ∃ source line, read source line = .ok tag

@[simp] theorem ofText_values (text : String) (line : Line) :
    (ofText text line).values = (valuesOf text.toList).map .text := by
  rw [ofText]

@[simp] theorem ofString_text (source : String) (line : Line) :
    (ofString source line).text = unmarked (Text.trim source) := by
  rw [ofString, ofText]

theorem Parsed.eq_ofString {tag : Tag} (parsed : tag.Parsed) :
    ∃ source line, tag = ofString source line := by
  obtain ⟨source, line, found⟩ := parsed
  unfold read at found
  split at found
  · rename_i s
    split at found
    · rename_i line known
      exact ⟨s, line, (Except.ok.inj found).symm⟩
    · cases found
  · cases found

@[simp] theorem read_text (source : String) (line : Line) :
    read (.text source) line.toValue = .ok (ofString source line) := by
  simp [read]

@[simp] theorem parsed_ofString (source : String) (line : Line) : (ofString source line).Parsed :=
  ⟨.text source, line.toValue, read_text source line⟩

theorem Parsed.name_text {tag : Tag} (parsed : tag.Parsed) : ∃ name, tag.name = .text name := by
  obtain ⟨source, line, rfl⟩ := parsed.eq_ofString
  exact ⟨_, rfl⟩

theorem Parsed.values_texts {tag : Tag} (parsed : tag.Parsed) : Value.Texts tag.values := by
  obtain ⟨source, line, rfl⟩ := parsed.eq_ofString
  rw [ofString, ofText_values]
  exact Value.texts_map _

theorem Parsed.eq_ofText {tag : Tag} (parsed : tag.Parsed) : tag = ofText tag.text tag.line := by
  obtain ⟨source, line, made⟩ := parsed.eq_ofString
  rw [ofString, ofText] at made
  rw [made, ofText]

theorem Parsed.textual {tag : Tag} (parsed : tag.Parsed) : tag.Textual :=
  ⟨parsed.name_text, parsed.values_texts⟩

theorem Parsed.of_text {tag other : Tag} (parsed : tag.Parsed) (parsedOther : other.Parsed)
    (sameText : tag.text = other.text) : tag.name = other.name ∧ tag.values = other.values := by
  rw [parsed.eq_ofText, parsedOther.eq_ofText, sameText]
  exact ⟨rfl, rfl⟩

theorem Parsed.same_iff {tag other : Tag} (parsed : tag.Parsed) (parsedOther : other.Parsed) :
    tag.same other = true ↔ tag.text = other.text := by
  rw [parsedOther.textual.same_iff]
  constructor
  · exact congrArg Prod.fst
  · intro sameText
    obtain ⟨sameName, sameValues⟩ := parsed.of_text parsedOther sameText
    rw [key, key, sameText, sameName, sameValues]

/-- The query asks for the text, with or without one leading `@`. -/
inductive Denotes : (query text : String) → Prop
  | marked (text : String) : Denotes (marked text) text
  | plain (text : String) (unmarked : ∀ rest, text ≠ Tag.marked rest) : Denotes text text

@[simp] theorem unmarked_marked (text : String) : unmarked (marked text) = text := by
  simp [unmarked, marked]

theorem marked_or_unmarked_self (query : String) :
    query = marked (unmarked query) ∨ unmarked query = query ∧ ∀ rest, query ≠ marked rest := by
  unfold unmarked
  split
  · rename_i rest found
    left
    rw [← String.toList_inj, found]
    simp [marked]
  · rename_i other
    right
    refine ⟨rfl, ?_⟩
    rintro rest rfl
    exact other rest.toList (by simp [marked])

theorem denotes_iff {query text : String} : Denotes query text ↔ unmarked query = text := by
  constructor
  · intro denotes
    cases denotes with
    | marked => exact unmarked_marked text
    | plain _ plain =>
        rcases marked_or_unmarked_self query with same | ⟨same, -⟩
        · exact absurd same (plain _)
        · exact same
  · rintro rfl
    rcases marked_or_unmarked_self query with same | ⟨same, plain⟩
    · have denotes := Denotes.marked (unmarked query)
      rwa [← same] at denotes
    · rw [same]
      exact .plain query plain

instance (query text : String) : Decidable (Denotes query text) :=
  decidable_of_iff (unmarked query = text) denotes_iff.symm

end Tag

end TagQuery
