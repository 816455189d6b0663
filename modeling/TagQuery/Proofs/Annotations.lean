import TagQuery.Proofs.Tags
import TagQuery.Proofs.Texts

namespace TagQuery

namespace Text

/-! ## Lists with commas -/

/-- The items are what stands between the commas of the text, in order and without what is empty. -/
inductive CommaList (text : String) : List String → Prop where
  | split (places : List String) (whole : ∀ place ∈ places, ',' ∉ place.toList)
      (written : text = joined "," places) : CommaList text (places.filter (· ≠ ""))

@[simp] theorem toList_joined_cons (first next : String) (others : List String) :
    (joined "," (first :: next :: others)).toList =
      first.toList ++ ',' :: (joined "," (next :: others)).toList := by
  simp [joined]

theorem not_comma {cs : List Char} (whole : ',' ∉ cs) : ∀ c ∈ cs, (c == ',') = false := by
  intro c mem
  apply beq_false_of_ne
  rintro rfl
  exact whole mem

theorem pieces_joined {first : String} {others : List String}
    (whole : ∀ place ∈ first :: others, ',' ∉ place.toList) :
    pieces (· == ',') (joined "," (first :: others)).toList =
      (first :: others).map String.toList := by
  have wholeFirst := not_comma (whole first List.mem_cons_self)
  induction others generalizing first with
  | nil => exact pieces_of_whole wholeFirst
  | cons next others ih =>
      have wholeOthers : ∀ place ∈ next :: others, ',' ∉ place.toList := fun place mem =>
        whole place (List.mem_cons_of_mem _ mem)
      rw [toList_joined_cons, pieces_append_cons (by rfl), pieces_of_whole wholeFirst,
        ih wholeOthers (not_comma (wholeOthers next List.mem_cons_self))]
      rfl

theorem commaItems_joined {places : List String} (whole : ∀ place ∈ places, ',' ∉ place.toList) :
    commaItems (joined "," places).toList = places.filter (· ≠ "") := by
  cases places with
  | nil => rfl
  | cons first others =>
      rw [commaItems, nonemptyPieces, pieces_joined whole, List.filter_map, List.map_map]
      simp only [Function.comp_def, String.ofList_toList, List.map_id']
      apply List.filter_congr
      intro place _
      rw [Bool.eq_iff_iff]
      simp

theorem exists_places (cs : List Char) : ∃ first others,
    pieces (· == ',') cs = List.map String.toList (first :: others) ∧
      (joined "," (first :: others)).toList = cs := by
  -- A comma opens an empty place at the front; another character goes to the place that is there.
  induction cs with
  | nil => exact ⟨"", [], rfl, rfl⟩
  | cons c cs ih =>
      obtain ⟨first, others, split, written⟩ := ih
      by_cases separates : c = ','
      · refine ⟨"", first :: others, ?_, ?_⟩
        · simp [pieces, separates, split]
        · simp [written, separates]
      · refine ⟨String.ofList (c :: first.toList), others, ?_, ?_⟩
        · simp [pieces, separates, split]
        · cases others with
          | nil => simpa [joined] using written
          | cons next others => simpa using written

theorem commaList_iff {text : String} {items : List String} :
    CommaList text items ↔ commaItems text.toList = items := by
  constructor
  · rintro ⟨places, whole, rfl⟩
    exact commaItems_joined whole
  · rintro rfl
    obtain ⟨first, others, split, written⟩ := exists_places text.toList
    have whole : ∀ place ∈ first :: others, ',' ∉ place.toList := by
      intro place mem comma
      have piece : place.toList ∈ pieces (· == ',') text.toList := split ▸ List.mem_map_of_mem mem
      exact absurd ((isPiece_of_mem_pieces piece).whole ',' comma) (by decide)
    have same := String.toList_inj.1 written
    rw [← same, commaItems_joined whole]
    exact .split _ whole rfl

theorem CommaList.mem {text item : String} {items : List String} (listed : CommaList text items)
    (mem : item ∈ items) : item ≠ "" ∧ ',' ∉ item.toList := by
  cases listed with
  | split places whole written =>
      obtain ⟨memPlaces, filled⟩ := List.mem_filter.1 mem
      exact ⟨of_decide_eq_true filled, whole item memPlaces⟩

theorem trim_eq_self {s : String} (first : ∀ c ∈ s.toList.head?, isBlank c = false)
    (last : ∀ c ∈ s.toList.getLast?, isBlank c = false) : trim s = s := by
  have trims : Trims s.toList s.toList := ⟨⟨[], [], by simp, by simp, by simp⟩, first, last⟩
  rw [trim, trims.eq, String.ofList_toList]

end Text

namespace Tag

/-! ## Names and values in a text -/

section
variable {front back cs : List Char}

theorem ne_equals (plain : '=' ∉ front) : ∀ c ∈ front, (c != '=') = true := by
  intro c mem
  apply bne_iff_ne.2
  rintro rfl
  exact plain mem

theorem nameOf_cut (plain : '=' ∉ front) : nameOf (front ++ '=' :: back) = front := by
  rw [nameOf, List.takeWhile_append_of_pos (ne_equals plain), List.takeWhile_cons_of_neg (by simp),
    List.append_nil]

theorem valuesOf_cut (plain : '=' ∉ front) :
    valuesOf (front ++ '=' :: back) = Text.commaItems back := by
  rw [valuesOf, List.dropWhile_append_of_pos (ne_equals plain)]
  simp

theorem nameOf_plain (plain : '=' ∉ front) : nameOf front = front :=
  List.takeWhile_eq_self_iff.2 (ne_equals plain)

theorem valuesOf_plain (plain : '=' ∉ front) : valuesOf front = [] := by
  rw [valuesOf, List.dropWhile_eq_nil_iff.2 (ne_equals plain)]
  rfl

end

/-! ## Annotations as they are written -/

def assembled (name : String) (values : List String) : String :=
  marked (name ++ "=" ++ Text.joined "," values)

@[simp] theorem toList_marked (text : String) : (marked text).toList = '@' :: text.toList := by
  simp [marked]

theorem ofString_marked {text : String}
    (last : ∀ c ∈ (marked text).toList.getLast?, Text.isBlank c = false) (line : Line) :
    ofString (marked text) line = ofText text line := by
  have first : ∀ c ∈ (marked text).toList.head?, Text.isBlank c = false := by
    simp
    decide
  simp [ofString, Text.trim_eq_self first last]

/-- The text of the tag is its name, or its name and a list of its values with a `=` between. -/
inductive Composed (tag : Tag) : Prop where
  | bare (name : String) (plain : '=' ∉ name.toList) (text : tag.text = name)
      (named : tag.name = .text name) (values : tag.values = [])
  | valued (name rest : String) (items : List String) (plain : '=' ∉ name.toList)
      (text : tag.text = name ++ "=" ++ rest) (named : tag.name = .text name)
      (listed : Text.CommaList rest items) (values : tag.values = items.map .text)

theorem composed_ofText (text : String) (line : Line) : (ofText text line).Composed := by
  by_cases mem : '=' ∈ text.toList
  · obtain ⟨front, back, split, plain⟩ := List.eq_append_cons_of_mem mem
    have written : text = String.ofList front ++ "=" ++ String.ofList back := by
      rw [← String.toList_inj, split]
      simp
    refine .valued (String.ofList front) (String.ofList back) (Text.commaItems back) ?_ written ?_ ?_ ?_
    · rwa [String.toList_ofList]
    · rw [ofText, split, nameOf_cut plain]
    · rw [Text.commaList_iff, String.toList_ofList]
    · simp [split, valuesOf_cut plain]
  · refine .bare text mem rfl ?_ ?_
    · rw [ofText, nameOf_plain mem, String.ofList_toList]
    · simp [valuesOf_plain mem]

theorem Composed.values_plain {tag : Tag} (composed : tag.Composed) :
    ∀ value ∈ tag.values, ∃ item : String, value = .text item ∧ item ≠ "" ∧ ',' ∉ item.toList := by
  intro value mem
  cases composed with
  | bare name plain text named values =>
      rw [values] at mem
      cases mem
  | valued name rest items plain text named listed values =>
      rw [values] at mem
      obtain ⟨item, memItem, rfl⟩ := List.mem_map.1 mem
      exact ⟨item, rfl, listed.mem memItem⟩

theorem ofText_assembled {name : String} {values : List String} (plain : '=' ∉ name.toList)
    (filled : ∀ value ∈ values, value ≠ "" ∧ ',' ∉ value.toList) (line : Line) :
    ofText (name ++ "=" ++ Text.joined "," values) line =
      ⟨name ++ "=" ++ Text.joined "," values, .text name, values.map .text, line⟩ := by
  have split : (name ++ "=" ++ Text.joined "," values).toList =
      name.toList ++ '=' :: (Text.joined "," values).toList := by
    simp
  have listed : Text.commaItems (Text.joined "," values).toList = values := by
    rw [Text.commaItems_joined fun value mem => (filled value mem).2, List.filter_eq_self]
    exact fun value mem => decide_eq_true (filled value mem).1
  rw [ofText, split, nameOf_cut plain, valuesOf_cut plain, listed, String.ofList_toList]

/-- An annotation that does not end in a blank gives its name and its values back. Every tag that is
read has a name without `=` and values that are no lists, both as they stand in its text, and two
such tags are the same exactly if their texts are. -/
theorem annotations_faithful :
    (∀ (name : String) (values : List String) (line : Line), '=' ∉ name.toList →
      (∀ value ∈ values, value ≠ "" ∧ ',' ∉ value.toList) →
      (∀ c ∈ (assembled name values).toList.getLast?, Text.isBlank c = false) →
      ∃ tag, read (.text (assembled name values)) line.toValue = .ok tag ∧
        tag.name = .text name ∧ tag.values = values.map .text ∧ tag.line = line ∧
        tag.text.toList = (assembled name values).toList.tail) ∧
    (∀ (source : String) (line : Line), ∃ tag, read (.text source) line.toValue = .ok tag ∧
      tag.line = line ∧ tag.Composed ∧
      ∀ value ∈ tag.values, ∃ item : String, value = .text item ∧ item ≠ "" ∧ ',' ∉ item.toList) ∧
    ∀ tag other : Tag, tag.Parsed → other.Parsed →
      (tag.same other = true ↔ tag.text = other.text) := by
  refine ⟨?_, ?_, fun tag other => Parsed.same_iff⟩
  · intro name values line plain filled last
    refine ⟨_, read_text _ line, ?_⟩
    rw [assembled, ofString_marked last, ofText_assembled plain filled]
    simp
  · intro source line
    have composed : (ofString source line).Composed := composed_ofText _ line
    exact ⟨_, read_text source line, rfl, composed, composed.values_plain⟩

theorem annotations_faithful_marks :
    assembled "@ n" ["=a", "@b c"] = "@@ n==a,@b c" ∧ '=' ∉ "@ n".toList ∧
    (∀ value ∈ ["=a", "@b c"], value ≠ "" ∧ ',' ∉ value.toList) ∧
    (∃ tag, read (.text (assembled "@ n" ["=a", "@b c"])) (.bool true) = .ok tag ∧
      tag.name = .text "@ n" ∧ tag.values = [.text "=a", .text "@b c"] ∧
      tag.text.toList = "@ n==a,@b c".toList) ∧
    ∃ tag other : Tag, tag = ofString "@n=a,,b" (.number 1) ∧ other = ofString "n=a,b" (.number 1) ∧
      tag.Composed ∧ ¬tag.same other = true ∧ tag.values = other.values := by
  obtain ⟨written, composed, same⟩ := annotations_faithful
  have plain : '=' ∉ "@ n".toList := by decide
  have filled : ∀ value ∈ ["=a", "@b c"], value ≠ "" ∧ ',' ∉ value.toList := by decide
  have spelled : assembled "@ n" ["=a", "@b c"] = "@@ n==a,@b c" := by decide
  have solid : ∀ c ∈ (assembled "@ n" ["=a", "@b c"]).toList.getLast?, Text.isBlank c = false := by
    intro c mem
    rw [spelled] at mem
    obtain rfl : c = 'c' := by simpa [eq_comm] using mem
    decide
  obtain ⟨tag, read, named, values, -, text⟩ :=
    written "@ n" ["=a", "@b c"] (.flag true) plain filled solid
  obtain ⟨listed, readListed, -, composedListed, -⟩ := composed "@n=a,,b" (.number 1)
  obtain rfl : listed = ofString "@n=a,,b" (.number 1) := by
    simpa [eq_comm] using readListed
  refine ⟨spelled, plain, filled, ⟨tag, read, named, values, by rw [text, spelled]; rfl⟩, _, _, rfl,
    rfl, composedListed, ?_, ?_⟩
  · rw [same _ _ (by simp) (by simp)]
    decide +kernel
  · exact congrArg (List.map Value.text) (by decide +kernel)

end Tag

end TagQuery
