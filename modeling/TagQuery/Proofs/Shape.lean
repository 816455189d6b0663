import TagQuery.Proofs.Listing

/-!
# The shape of a listing

A listing is a list of features, with a list of scenarios and lists of tags in them. A value of
another kind in the place of such a list is not looked for: its members are taken for the items if
it is of a kind that has members, and reading ends with a fault if it is not. As far as there are
lists where lists belong, a file is read exactly if its value has the shape of a listing, and
reported as malformed otherwise.
-/

namespace TagQuery.Listing

/-! ## Shapes -/

inductive IsTag : Value → Prop where
  | text (source : String) : IsTag (.text source)
  | record {fields : List (String × Value)} {source : String}
      (name : Value.field? fields "name" = some (.text source))
      (number : ∀ value, Value.field? fields "line" = some value →
        ∃ line, Line.ofValue? value = some line) :
      IsTag (.object fields)

structure IsLinedTag (item : Value) : Prop where
  isTag : IsTag item
  lined : ∀ fields, item = .object fields → Value.field? fields "line" ≠ none

/-- The fields have this list of tags. None are given by null or by nothing. -/
inductive HasTags (fields : List (String × Value)) : List Value → Prop where
  | absent (none : Value.field? fields "tags" = none) : HasTags fields []
  | null (given : Value.field? fields "tags" = some .null) : HasTags fields []
  | list {items : List Value} (given : Value.field? fields "tags" = some (.list items)) :
      HasTags fields items

inductive HasScenarios (fields : List (String × Value)) : List Value → Prop where
  | absent (none : Value.field? fields "scenarios" = none) : HasScenarios fields []
  | list {items : List Value} (given : Value.field? fields "scenarios" = some (.list items)) :
      HasScenarios fields items

section
variable (IsItem : Value → Prop)

def Tagged (fields : List (String × Value)) : Prop :=
  ∃ items, HasTags fields items ∧ ∀ item ∈ items, IsItem item

inductive IsScenario : Value → Prop where
  | object {fields : List (String × Value)} (tagged : Tagged IsItem fields) :
      IsScenario (.object fields)

inductive IsFeature : Value → Prop where
  | object {fields : List (String × Value)} {items : List Value} (has : HasScenarios fields items)
      (scenarios : ∀ item ∈ items, IsScenario IsItem item) (tagged : Tagged IsItem fields) :
      IsFeature (.object fields)

inductive IsListing : Value → Prop where
  | list {items : List Value} (features : ∀ item ∈ items, IsFeature IsItem item) :
      IsListing (.list items)

end

/-! ## Lists where lists belong -/

/-- An item has the property if all items before it are good. -/
def AsFarAs (Good Property : Value → Prop) (items : List Value) : Prop :=
  ∀ before item after, items = before ++ item :: after → (∀ other ∈ before, Good other) →
    Property item

def TagsListed (fields : List (String × Value)) : Prop := ∃ items, HasTags fields items

def ScenarioListed (item : Value) : Prop := ∀ fields, item = .object fields → TagsListed fields

/-- A text or an object stands in the place of the scenarios and has members. -/
inductive Misplaced (fields : List (String × Value)) : Prop where
  | text {source : String} (given : Value.field? fields "scenarios" = some (.text source))
      (filled : source.toList ≠ []) : Misplaced fields
  | object {inner : List (String × Value)}
      (given : Value.field? fields "scenarios" = some (.object inner)) (filled : inner ≠ []) :
      Misplaced fields

def FeatureListed (item : Value) : Prop :=
  ∀ fields, item = .object fields → Misplaced fields ∨ ∃ items, HasScenarios fields items ∧
    AsFarAs (IsScenario IsTag) ScenarioListed items ∧
    ((∀ scenario ∈ items, IsScenario IsTag scenario) → TagsListed fields)

/-- The scenarios and the tags that reading comes to are lists, except for scenarios that are
misplaced. -/
def Listed (value : Value) : Prop :=
  ∀ items, value = .list items → AsFarAs (IsFeature IsTag) FeatureListed items

theorem AsFarAs.cons {Good Property : Value → Prop} {item : Value} {items : List Value}
    (asFarAs : AsFarAs Good Property (item :: items)) :
    Property item ∧ (Good item → AsFarAs Good Property items) := by
  refine ⟨asFarAs [] item items rfl (by simp), ?_⟩
  intro good before other after split goodBefore
  refine asFarAs (item :: before) other after (by rw [split, List.cons_append]) ?_
  exact List.forall_mem_cons.2 ⟨good, goodBefore⟩

theorem asFarAs_of_forall {Good Property : Value → Prop} {items : List Value}
    (all : ∀ item ∈ items, Property item) : AsFarAs Good Property items := by
  rintro before item after rfl -
  exact all item (by simp)

/-! ## Reports -/

def Reported {α : Type} (shape : Prop) : Except Failure α → Prop
  | .ok _ => shape
  | .error failure => ¬shape ∧ ∃ what, failure = .malformed what

section
variable {α β γ : Type} {shape shape' : Prop} {step : Except Failure α}

theorem Reported.map {f : α → β} (reported : Reported shape step) :
    Reported shape (step.map f) := by
  cases step with
  | error failure => exact reported
  | ok value => exact reported

theorem Reported.both {other : Except Failure β} {combine : α → β → γ}
    (reported : Reported shape step) (reportedOther : shape → Reported shape' other) :
    Reported (shape ∧ shape')
      (step.bind fun value => other.bind fun second => .ok (combine value second)) := by
  cases step with
  | error failure => exact ⟨fun both => reported.1 both.1, reported.2⟩
  | ok value =>
      have second := reportedOther reported
      cases other with
      | error failure => exact ⟨fun both => second.1 both.2, second.2⟩
      | ok value' => exact ⟨reported, second⟩

theorem Reported.of_iff (reported : Reported shape step) (same : shape ↔ shape') :
    Reported shape' step :=
  propext same ▸ reported

end

/-! ## Reading a value -/

theorem exists_tagOf?_iff {item : Value} : (∃ tag, tagOf? item = some tag) ↔ IsTag item := by
  constructor
  · rintro ⟨tag, found⟩
    unfold tagOf? at found
    split at found
    · exact .text _
    · rename_i fields
      dsimp only at found
      split at found
      · rename_i source line name number
        refine .record name fun value given => ⟨line, ?_⟩
        rwa [given, Option.getD_some] at number
      · cases found
    · cases found
  · intro isTag
    cases isTag with
    | text source => exact ⟨_, rfl⟩
    | @record fields source name number =>
        cases given : Value.field? fields "line" with
        | none => exact ⟨_, by rw [tagOf?, name, given]; rfl⟩
        | some value =>
            obtain ⟨line, number⟩ := number value given
            exact ⟨_, by rw [tagOf?, name, given, Option.getD_some, number]⟩

theorem reported_tagsOf {names items : List Value} :
    Reported (∀ item ∈ items, IsTag item) (tagsOf names items) := by
  induction items with
  | nil => exact fun item mem => absurd mem List.not_mem_nil
  | cons item items ih =>
      rw [tagsOf, List.forall_mem_cons]
      split
      · rename_i wrong
        refine ⟨fun all => ?_, _, rfl⟩
        obtain ⟨tag, found⟩ := exists_tagOf?_iff.2 all.1
        rw [wrong] at found
        cases found
      · rename_i tag found
        exact ih.map.of_iff (and_iff_right (exists_tagOf?_iff.1 ⟨tag, found⟩)).symm

section
variable {IsItem : Value → Prop} {fields : List (String × Value)}

theorem HasTags.eq {items items' : List Value} (has : HasTags fields items)
    (has' : HasTags fields items') : items = items' := by
  cases has <;> cases has' <;> simp_all

theorem HasScenarios.eq {items items' : List Value} (has : HasScenarios fields items)
    (has' : HasScenarios fields items') : items = items' := by
  cases has <;> cases has' <;> simp_all

theorem HasTags.tagged_iff {items : List Value} (has : HasTags fields items) :
    Tagged IsItem fields ↔ ∀ item ∈ items, IsItem item := by
  constructor
  · rintro ⟨_, has', all⟩
    exact has.eq has' ▸ all
  · exact fun all => ⟨items, has, all⟩

theorem HasTags.tagsIn {items : List Value} (has : HasTags fields items) (names : List Value) :
    tagsIn names fields = tagsOf names items := by
  unfold Listing.tagsIn
  cases has with
  | absent none =>
      rw [none]
      rfl
  | null given =>
      rw [given]
      rfl
  | list given =>
      rw [given]
      cases items with
      | nil => rfl
      | cons item items => rfl

theorem reported_tagsIn {names : List Value} (listed : TagsListed fields) :
    Reported (Tagged IsTag fields) (tagsIn names fields) := by
  obtain ⟨items, has⟩ := listed
  rw [has.tagsIn]
  exact reported_tagsOf.of_iff has.tagged_iff.symm

theorem isScenario_object : IsScenario IsItem (.object fields) ↔ Tagged IsItem fields := by
  constructor
  · rintro ⟨tagged⟩
    exact tagged
  · exact .object

theorem reported_scenarioOf {owner : Value} {index : Nat} (listed : TagsListed fields) :
    Reported (IsScenario IsTag (.object fields)) (scenarioOf owner index fields) :=
  (reported_tagsIn listed).map.of_iff isScenario_object.symm

end

theorem reported_scenariosOf {owner : Value} {index : Nat} {items : List Value}
    (listed : AsFarAs (IsScenario IsTag) ScenarioListed items) :
    Reported (∀ item ∈ items, IsScenario IsTag item) (scenariosOf owner index items) := by
  fun_induction scenariosOf owner index items with
  | case1 => exact fun item mem => absurd mem List.not_mem_nil
  | case2 index fields items ih =>
      obtain ⟨first, others⟩ := listed.cons
      have reported : Reported _ (scenarioOf owner index fields) :=
        reported_scenarioOf (first fields rfl)
      exact (reported.both fun isScenario => ih (others isScenario)).of_iff
        List.forall_mem_cons.symm
  | case3 items index nonempty other =>
      obtain ⟨item, others, rfl⟩ := List.exists_cons_of_ne_nil nonempty
      refine ⟨fun all => ?_, _, rfl⟩
      cases all item List.mem_cons_self with
      | object => exact other _ _ rfl

theorem HasScenarios.membersOf {fields : List (String × Value)} {items : List Value}
    (has : HasScenarios fields items) :
    membersOf ((Value.field? fields "scenarios").getD (.list [])) = .ok items := by
  cases has with
  | absent none =>
      rw [none]
      rfl
  | list given =>
      rw [given]
      rfl

theorem HasScenarios.isFeature_iff {IsItem : Value → Prop} {fields : List (String × Value)}
    {items : List Value} (has : HasScenarios fields items) :
    IsFeature IsItem (.object fields) ↔
      (∀ item ∈ items, IsScenario IsItem item) ∧ Tagged IsItem fields := by
  constructor
  · rintro ⟨has', scenarios, tagged⟩
    exact ⟨has.eq has' ▸ scenarios, tagged⟩
  · rintro ⟨scenarios, tagged⟩
    exact .object has scenarios tagged

theorem IsListing.tagged {IsItem : Value → Prop} {items : List Value}
    {fields : List (String × Value)} (isListing : IsListing IsItem (.list items))
    (mem : .object fields ∈ items) : Tagged IsItem fields := by
  obtain ⟨features⟩ := isListing
  obtain ⟨has, scenarios, tagged⟩ := features _ mem
  exact tagged

theorem Misplaced.featureOf {fields : List (String × Value)} (misplaced : Misplaced fields)
    (index : Nat) : ∃ what, featureOf index fields = .error (.malformed what) := by
  unfold Listing.featureOf
  cases misplaced with
  | @text source given filled =>
      obtain ⟨c, cs, split⟩ := List.exists_cons_of_ne_nil filled
      rw [given, Option.getD_some, Listing.membersOf, Value.members, split]
      exact ⟨_, rfl⟩
  | object given filled =>
      obtain ⟨entry, entries, rfl⟩ := List.exists_cons_of_ne_nil filled
      rw [given]
      exact ⟨_, rfl⟩

theorem Misplaced.not_isFeature {IsItem : Value → Prop} {fields : List (String × Value)}
    (misplaced : Misplaced fields) : ¬IsFeature IsItem (.object fields) := by
  rintro ⟨has, -, -⟩
  cases misplaced <;> cases has <;> simp_all

theorem reported_featureOf {index : Nat} {fields : List (String × Value)}
    (listed : FeatureListed (.object fields)) :
    Reported (IsFeature IsTag (.object fields)) (featureOf index fields) := by
  rcases listed fields rfl with misplaced | ⟨items, has, scenariosListed, tagsListed⟩
  · obtain ⟨what, failed⟩ := misplaced.featureOf index
    rw [failed]
    exact ⟨misplaced.not_isFeature, what, rfl⟩
  · unfold featureOf
    rw [has.membersOf]
    refine Reported.of_iff ?_ has.isFeature_iff.symm
    exact (reported_scenariosOf scenariosListed).both fun all => reported_tagsIn (tagsListed all)

theorem reported_featuresOf {index : Nat} {items : List Value}
    (listed : AsFarAs (IsFeature IsTag) FeatureListed items) :
    Reported (∀ item ∈ items, IsFeature IsTag item) (featuresOf index items) := by
  fun_induction featuresOf index items with
  | case1 => exact fun item mem => absurd mem List.not_mem_nil
  | case2 index fields items ih =>
      obtain ⟨first, others⟩ := listed.cons
      exact ((reported_featureOf first).both fun isFeature => ih (others isFeature)).of_iff
        List.forall_mem_cons.symm
  | case3 items index nonempty other =>
      obtain ⟨item, others, rfl⟩ := List.exists_cons_of_ne_nil nonempty
      refine ⟨fun all => ?_, _, rfl⟩
      cases all item List.mem_cons_self with
      | object => exact other _ _ rfl

theorem reported_ofValue {value : Value} (listed : Listed value) :
    Reported (IsListing IsTag value) (ofValue value) := by
  cases value with
  | list items =>
      refine (reported_featuresOf (listed items rfl)).of_iff ⟨.list, ?_⟩
      rintro ⟨features⟩
      exact features
  | _ => exact ⟨fun isListing => (by cases isListing), _, rfl⟩

/-! ## Reading a file -/

/-- A file with a text in it that is not beyond what numbers may have digits: either it is a listing
and read, or it is not and is reported. -/
theorem ofFile_listed {bytes : List UInt8} {text : List Char}
    (decoded : Text.Utf8.decode bytes = .ok text)
    (digits : ∀ count, Json.read (unifyLineEnds text) ≠ .error (.numeral count))
    (listed : ∀ value, Json.read (unifyLineEnds text) = .ok value → Listed value) :
    (∃ features value, ofFile (some bytes) = .ok features ∧
        Json.read (unifyLineEnds text) = .ok value ∧ IsListing IsTag value) ∨
      ∃ failure, ofFile (some bytes) = .error failure ∧ failure.isContent = true ∧
        ∀ value, Json.read (unifyLineEnds text) = .ok value → ¬IsListing IsTag value := by
  have opened : ofFile (some bytes) = ofText (unifyLineEnds text) := by
    rw [ofFile, read, decoded]
    rfl
  rw [opened, ofText]
  cases found : Json.read (unifyLineEnds text) with
  | error stop =>
      cases stop with
      | cause cause left => exact .inr ⟨_, rfl, rfl, fun value read => (by cases read)⟩
      | numeral count => exact absurd found (digits count)
  | ok value =>
      have reported := reported_ofValue (listed value found)
      simp only
      cases result : ofValue value with
      | ok features =>
          rw [result] at reported
          exact .inl ⟨features, value, rfl, rfl, reported⟩
      | error failure =>
          rw [result] at reported
          obtain ⟨notListing, what, rfl⟩ := reported
          exact .inr ⟨_, rfl, rfl, fun value' read => Except.ok.inj read ▸ notListing⟩

theorem ofFile_listed_number :
    ∃ (source : String) (bytes : List UInt8) (text : List Char),
      source = "[\x7b\"tags\":[\"@a\",\x7b\"line\":3,\"name\":\"@b\"\x7d,42]\x7d]" ∧
      bytes = source.toUTF8.toList ∧ Text.Utf8.decode bytes = .ok text ∧
      (∀ count, Json.read (unifyLineEnds text) ≠ .error (.numeral count)) ∧
      (∀ value, Json.read (unifyLineEnds text) = .ok value → Listed value) ∧
      ((∃ features value, ofFile (some bytes) = .ok features ∧
          Json.read (unifyLineEnds text) = .ok value ∧ IsListing IsTag value) ∨
        ∃ failure, ofFile (some bytes) = .error failure ∧ failure.isContent = true ∧
          ∀ value, Json.read (unifyLineEnds text) = .ok value → ¬IsListing IsTag value) := by
  let text := "[\x7b\"tags\":[\"@a\",\x7b\"line\":3,\"name\":\"@b\"\x7d,42]\x7d]".toList
  have decoded : Text.Utf8.decode (String.toUTF8
      "[\x7b\"tags\":[\"@a\",\x7b\"line\":3,\"name\":\"@b\"\x7d,42]\x7d]").toList = .ok text :=
    Attempt.eq_ok_of_toOption (by decide +kernel)
  have found : Json.read (unifyLineEnds text) = .ok (.list [.object [("tags",
      .list [.text "@a", .object [("line", .int 3), ("name", .text "@b")], .int 42])]]) := by
    with_unfolding_all rfl
  have digits : ∀ count, Json.read (unifyLineEnds text) ≠ .error (.numeral count) := by
    intro count failed
    cases found.symm.trans failed
  have listed : ∀ value, Json.read (unifyLineEnds text) = .ok value → Listed value := by
    intro value read
    rw [found] at read
    cases read
    rintro _ ⟨⟩
    refine asFarAs_of_forall (List.forall_mem_singleton.2 ?_)
    rintro _ ⟨⟩
    exact .inr ⟨[], .absent rfl, asFarAs_of_forall (by simp), fun _ => ⟨_, .list rfl⟩⟩
  exact ⟨_, _, text, rfl, rfl, decoded, digits, listed, ofFile_listed decoded digits listed⟩

/-- A record without a line is read. So is a text in the place of a list of tags, and null in the
place of a list of scenarios is not reported as malformed. -/
theorem ofFile_unlined :
    (∃ (value : Value) (features : List Feature),
      Json.read "[\x7b\"tags\":[\x7b\"name\":\"@a\"\x7d]\x7d]".toList = .ok value ∧
      ¬IsListing IsLinedTag value ∧
      ofFile (some "[\x7b\"tags\":[\x7b\"name\":\"@a\"\x7d]\x7d]".toUTF8.toList) = .ok features) ∧
    (∃ (value : Value) (features : List Feature),
      Json.read "[\x7b\"tags\":\"@smoke\"\x7d]".toList = .ok value ∧
      ¬IsListing IsLinedTag value ∧
      ofFile (some "[\x7b\"tags\":\"@smoke\"\x7d]".toUTF8.toList) = .ok features) ∧
    ∃ failure, ofFile (some "[\x7b\"scenarios\":null\x7d]".toUTF8.toList) = .error failure ∧
      failure = .fault (.notIterable .null) ∧ failure.isContent = false := by
  refine ⟨?_, ?_, _, by with_unfolding_all rfl, rfl, rfl⟩
  · have found : Json.read "[\x7b\"tags\":[\x7b\"name\":\"@a\"\x7d]\x7d]".toList =
        .ok (.list [.object [("tags", .list [.object [("name", .text "@a")]])]]) := by
      with_unfolding_all rfl
    have readable : (ofFile (some
        "[\x7b\"tags\":[\x7b\"name\":\"@a\"\x7d]\x7d]".toUTF8.toList)).toOption.isSome = true := by
      decide +kernel
    obtain ⟨features, read⟩ := Attempt.exists_ok_of_isSome readable
    refine ⟨_, features, found, fun isListing => ?_, read⟩
    have has : HasTags [("tags", .list [.object [("name", .text "@a")]])] _ := .list rfl
    have tags := has.tagged_iff.1 (isListing.tagged List.mem_cons_self)
    exact (tags _ List.mem_cons_self).lined _ rfl rfl
  · have found : Json.read "[\x7b\"tags\":\"@smoke\"\x7d]".toList =
        .ok (.list [.object [("tags", .text "@smoke")]]) := by
      with_unfolding_all rfl
    have readable : (ofFile (some "[\x7b\"tags\":\"@smoke\"\x7d]".toUTF8.toList)).toOption.isSome =
        true := by
      decide +kernel
    obtain ⟨features, read⟩ := Attempt.exists_ok_of_isSome readable
    refine ⟨_, features, found, fun isListing => ?_, read⟩
    obtain ⟨items, has, -⟩ := isListing.tagged List.mem_cons_self
    cases has <;> simp_all [Value.field?]

end TagQuery.Listing
