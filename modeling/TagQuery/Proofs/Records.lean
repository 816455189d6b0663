import TagQuery.Proofs.Annotations
import TagQuery.Proofs.Listing

namespace TagQuery

namespace Tag

/-! ## Tags as annotations -/

theorem last_solid_marked {text : String}
    (last : ∀ c ∈ text.toList.getLast?, Text.isBlank c = false) :
    ∀ c ∈ (marked text).toList.getLast?, Text.isBlank c = false := by
  cases found : text.toList with
  | nil =>
      simp [found]
      decide
  | cons d rest => simpa [found, List.getLast?_cons_cons] using last

theorem Parsed.last_solid {tag : Tag} (parsed : tag.Parsed) :
    ∀ c ∈ tag.text.toList.getLast?, Text.isBlank c = false := by
  obtain ⟨source, line, rfl⟩ := parsed.eq_ofString
  have trimmed : ∀ c ∈ (Text.trim source).toList.getLast?, Text.isBlank c = false := by
    rw [Text.trim, String.toList_ofList]
    exact (Text.trims_trimBlanks source.toList).last
  intro c mem
  rw [ofString_text] at mem
  apply trimmed
  rcases marked_or_unmarked_self (Text.trim source) with same | ⟨same, -⟩
  · rw [same, marked, String.toList_append]
    exact List.mem_getLast?_append_of_mem_getLast? mem
  · rw [← same]
    exact mem

theorem Parsed.ofString_toString {tag : Tag} (parsed : tag.Parsed) (line : Line) :
    ofString tag.toString line = { tag with line := line } := by
  calc ofString tag.toString line = ofText tag.text line :=
        ofString_marked (last_solid_marked parsed.last_solid) line
    _ = { ofText tag.text tag.line with line := line } := by rw [ofText, ofText]
    _ = { tag with line := line } := by rw [← parsed.eq_ofText]

/-- The annotation has this text between the blanks at its ends, with or without a mark. -/
def Spells (source text : String) : Prop :=
  ∃ core : String, Text.Trims source.toList core.toList ∧ Denotes core text

theorem spells_iff {source text : String} {line : Line} :
    Spells source text ↔ (ofString source line).text = text := by
  have trims_iff {core : String} :
      Text.Trims source.toList core.toList ↔ core = Text.trim source := by
    rw [Text.trims_iff, ← String.toList_inj, Text.trim, String.toList_ofList]
    exact eq_comm
  simp only [Spells, trims_iff, denotes_iff, exists_eq_left, ofString_text]

theorem spells_ofString (source : String) (line : Line) :
    Spells source (ofString source line).text :=
  spells_iff.2 rfl

end Tag

namespace Listing

/-! ## Items of a list of tags -/

/-- The item is an annotation with this text, or a record of one, on this line. -/
inductive Annotates : Value → String → Line → Prop where
  | text {source text : String} (spells : Tag.Spells source text) :
      Annotates (.text source) text (.number 0)
  | record {fields : List (String × Value)} {source text : String} {line : Line}
      (name : Value.field? fields "name" = some (.text source))
      (number : Line.ofValue? ((Value.field? fields "line").getD (.int 0)) = some line)
      (spells : Tag.Spells source text) : Annotates (.object fields) text line

theorem Annotates.tagOf? {item : Value} {text : String} {line : Line}
    (annotates : Annotates item text line) :
    ∃ source, tagOf? item = some (Tag.ofString source line) ∧
      (Tag.ofString source line).text = text := by
  cases annotates with
  | text spells => exact ⟨_, rfl, Tag.spells_iff.1 spells⟩
  | record name number spells =>
      refine ⟨_, ?_, Tag.spells_iff.1 spells⟩
      rw [Listing.tagOf?, name, number]

theorem annotates_of_tagOf? {item : Value} {tag : Tag} (found : tagOf? item = some tag) :
    Annotates item tag.text tag.line := by
  unfold Listing.tagOf? at found
  split at found
  · obtain rfl := Option.some.inj found
    exact .text (Tag.spells_ofString _ _)
  · dsimp only at found
    split at found
    · rename_i name number
      obtain rfl := Option.some.inj found
      exact .record name number (Tag.spells_ofString _ _)
    · cases found
  · cases found

theorem annotates_iff {item : Value} {tag : Tag} (found : tagOf? item = some tag) {text : String}
    {line : Line} : Annotates item text line ↔ tag.text = text ∧ tag.line = line := by
  constructor
  · intro annotates
    obtain ⟨source, made, spelled⟩ := annotates.tagOf?
    obtain rfl := Option.some.inj (found.symm.trans made)
    exact ⟨spelled, rfl⟩
  · rintro ⟨rfl, rfl⟩
    exact annotates_of_tagOf? found

theorem map_tagOf?_of_tagsOf {names items : List Value} {tags : List Tag}
    (read : tagsOf names items = .ok tags) : items.map Listing.tagOf? = tags.map some := by
  induction items generalizing tags with
  | nil =>
      cases read
      rfl
  | cons item items ih =>
      rw [tagsOf] at read
      split at read
      · cases read
      · rename_i tag found
        obtain ⟨rest, readRest, rfl⟩ := Attempt.map_eq_ok_iff.1 read
        rw [List.map_cons, List.map_cons, found, ih readRest]

def tagItems (fields : List (String × Value)) : List Value :=
  let value := (Value.field? fields "tags").getD .null
  if value.isTruthy then value.members.toOption.getD [] else []

theorem tagsOf_tagItems {names : List Value} {fields : List (String × Value)} {tags : List Tag}
    (read : tagsIn names fields = .ok tags) : tagsOf names (tagItems fields) = .ok tags := by
  unfold tagsIn at read
  unfold tagItems
  dsimp only at read ⊢
  split
  · rename_i truthy
    rw [if_pos truthy] at read
    obtain ⟨items, members, readItems⟩ := Attempt.bind_eq_ok_iff.1 read
    rw [Attempt.mapError_eq_ok_iff.1 members]
    exact readItems
  · rename_i falsy
    rw [if_neg falsy] at read
    exact read

/-! ## Lists of records -/

theorem tagOf?_entry {tag : Tag} (parsed : tag.Parsed) : tagOf? tag.entry.toValue = some tag := by
  have name : Value.field? [("line", tag.line.toValue), ("name", .text tag.toString)] "name" =
      some (.text tag.toString) := rfl
  have line : Value.field? [("line", tag.line.toValue), ("name", .text tag.toString)] "line" =
      some tag.line.toValue := rfl
  simp [tagOf?, Tag.entry, Tag.Entry.toValue, name, line, parsed.ofString_toString]

theorem tagsOf_entries {names : List Value} {tags : List Tag} (parsed : ∀ tag ∈ tags, tag.Parsed) :
    tagsOf names (tags.map fun tag => tag.entry.toValue) = .ok tags := by
  induction tags with
  | nil => rfl
  | cons tag tags ih =>
      have rest := ih fun other mem => parsed other (List.mem_cons_of_mem _ mem)
      simp [tagsOf, tagOf?_entry (parsed tag List.mem_cons_self), rest]

/-- The records of tags from annotations are read as the same tags in the same order, and each tag is
read from its written form on any line. -/
theorem tagsIn_entries {tags : List Tag} (parsed : ∀ tag ∈ tags, tag.Parsed) :
    (∀ (names : List Value) (fields : List (String × Value)),
      Value.field? fields "tags" = some (.list (tags.map fun tag => tag.entry.toValue)) →
        tagsIn names fields = .ok tags) ∧
    ∀ tag ∈ tags, ∀ line : Line,
      Tag.read (.text tag.toString) line.toValue = .ok { tag with line := line } := by
  constructor
  · intro names fields given
    unfold tagsIn
    rw [given, Option.getD_some]
    cases tags with
    | nil => rfl
    | cons tag tags => exact tagsOf_entries parsed
  · intro tag mem line
    simp [(parsed tag mem).ofString_toString]

theorem tagsIn_entries_marks :
    ∃ (fields : List (String × Value)) (tags : List Tag),
      tags = [.ofString " @@ a\u3000b " (.number 3), .ofString "@" (.flag true),
        .ofString "@=,x,=" (.number (-1))] ∧
      tags.map (·.text) = ["@ a\u3000b", "", "=,x,="] ∧
      fields = [("tags", .list (tags.map fun tag => tag.entry.toValue))] ∧
      (∀ tag ∈ tags, tag.Parsed) ∧
      Value.field? fields "tags" = some (.list (tags.map fun tag => tag.entry.toValue)) ∧
      tagsIn [] fields = .ok tags ∧
      ∀ tag ∈ tags, ∀ line : Line,
        Tag.read (.text tag.toString) line.toValue = .ok { tag with line := line } := by
  obtain ⟨tags, made⟩ : ∃ tags : List Tag, tags = [.ofString " @@ a\u3000b " (.number 3),
    .ofString "@" (.flag true), .ofString "@=,x,=" (.number (-1))] := ⟨_, rfl⟩
  have parsed : ∀ tag ∈ tags, tag.Parsed := by
    simp [made]
  have texts : tags.map (·.text) = ["@ a\u3000b", "", "=,x,="] := by
    rw [made]
    decide +kernel
  have given : Value.field? [("tags", .list (tags.map fun tag => tag.entry.toValue))] "tags" =
      some (.list (tags.map fun tag => tag.entry.toValue)) := rfl
  obtain ⟨read, written⟩ := tagsIn_entries parsed
  exact ⟨_, tags, made, texts, rfl, parsed, given, read [] _ given, written⟩

end Listing

end TagQuery
