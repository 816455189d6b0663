import TagQuery.Proofs.Command.Output

namespace TagQuery.Command

open Attempt (Fails)

/-! ## Errors of use -/

/-- What is wrong in the words whatever stands in the file: a selector and filters are both given, or
the selector that they give is not accepted. -/
inductive Misused (environment : Environment) (words : Words) : Prop where
  | conflict (text : String) (selector : words.selectorIn environment = some text)
      (nonempty : text ≠ "") (filters : words.filtersIn environment ≠ [])
  | selector (source : Selection.Source)
      (resolved : Selection.resolve (words.selectorIn environment) (words.filtersIn environment) =
        .ok source)
      (refused : Refused source)

structure Finds (find : String → Entry) (arguments : List String) (words : Words) (name : String)
    (surplus : List String) (bytes : List UInt8) : Prop where
  read : readWords {} arguments = .ok words
  files : words.files = name :: surplus
  found : find name = .file bytes

theorem resolve_of_both {selector : Option String} {filters : List String} {text : String}
    (given : selector = some text) (nonempty : text ≠ "") (filtered : filters ≠ []) :
    Selection.resolve selector filters = .error {} := by
  have textGiven : (selector.getD "").isEmpty = false := by
    rw [given, Option.getD_some]
    simpa using nonempty
  have filtersGiven : filters.isEmpty = false := by
    simpa using filtered
  rw [Selection.resolve]
  simp only [textGiven, filtersGiven]

@[simp] theorem Outcome.exitCode_after (outcome : Outcome) (debug : Bool) (lines : List String) :
    (outcome.after debug lines).exitCode = outcome.exitCode := by
  cases debug <;> rfl

section
variable {environment : Environment} {words : Words} {source : Selection.Source}

theorem selectFrom_refused (words : Words) (refused : Refused source) :
    ∃ outcome : Outcome, outcome.exitCode = 2 ∧
      ∀ name bytes, selectFrom words name bytes source = outcome := by
  obtain ⟨given, refusal, parsed⟩ := refused
  refine ⟨.after words.debug (sourceLines source) (.usage (.badSelector refusal)), ?_, ?_⟩
  · rw [Outcome.exitCode_after]
    rfl
  · intro name bytes
    unfold selectFrom
    split
    · rename_i absent
      exact absurd absent given
    · rw [parsed]

theorem Misused.runFile (misused : Misused environment words) :
    ∃ outcome : Outcome, outcome.exitCode = 2 ∧
      ∀ name bytes, runFile environment words name bytes = outcome := by
  cases misused with
  | conflict text selector nonempty filters =>
      refine ⟨.usage (.conflict {}), rfl, ?_⟩
      intro name bytes
      rw [Command.runFile, resolve_of_both selector nonempty filters]
  | selector source resolved refused =>
      obtain ⟨outcome, exitCode, same⟩ := selectFrom_refused words refused
      refine ⟨outcome, exitCode, ?_⟩
      intro name bytes
      rw [Command.runFile, resolved]
      exact same name bytes

theorem Misused.run (misused : Misused environment words) (arguments : List String) (name : String)
    (surplus : List String) :
    ∃ outcome : Outcome, (words.request = none → outcome.exitCode = 2) ∧
      ∀ find bytes, Finds find arguments words name surplus bytes →
        run environment find arguments = outcome := by
  -- The outcome is fixed by the words alone, before any file is looked for.
  cases request : words.request with
  | some requested =>
      refine ⟨⟨0, requested.text, "", none⟩, nofun, ?_⟩
      intro find bytes finds
      simp only [Command.run, finds.read, request]
  | none =>
      cases surplus with
      | nil =>
          obtain ⟨outcome, exitCode, same⟩ := misused.runFile
          refine ⟨outcome, fun _ => exitCode, ?_⟩
          intro find bytes finds
          simp only [Command.run, finds.read, request, finds.files, finds.found]
          exact same name bytes
      | cons second others =>
          refine ⟨.usage (.surplusFiles (second :: others)), fun _ => rfl, ?_⟩
          intro find bytes finds
          simp only [Command.run, finds.read, request, finds.files, finds.found]

theorem not_refused_of_parse {text : String} {tree : Selector}
    (given : source.selector = .text text) (compiled : Selector.parse text = .ok tree) :
    ¬Refused source := by
  rintro ⟨-, refused⟩
  rw [given, Selector.parseValue, compiled] at refused
  exact Attempt.not_fails_ok tree refused

/-! ## Errors of the listing -/

@[simp] theorem Outcome.exitCode_listing (debug : Bool) (name : String) (failure : Listing.Failure) :
    (listing debug name failure).exitCode = 1 := by
  unfold listing
  dsimp only
  split
  · rfl
  · cases debug <;> rfl

theorem selectFrom_unread {name : String} {bytes : List UInt8} {failure : Listing.Failure}
    (accepted : ¬Refused source) (quiet : words.debug = false)
    (unread : Listing.read bytes = .error failure) :
    selectFrom words name bytes source = .listing false name failure := by
  have selected (selector : Value) :
      select words name bytes selector = .listing false name failure := by
    rw [select, unread, quiet]
  unfold selectFrom
  rw [quiet]
  split
  · exact selected _
  · rename_i given
    cases parsed : Selector.parseValue source.selector with
    | error refusal => exact absurd ⟨given, refusal, parsed⟩ accepted
    | ok tree => exact selected _

end

/-! ## Both orders -/

/-- If the words are misused, a run ends in the same way for any two contents of the file, and as an
error of use unless the words ask for `--version` or `--help`, which are answered before anything
else is looked at. If the listing can not be read, it ends in the same way for any two selectors or
lists of filters that are accepted and with either form of report. -/
theorem run_precedence :
    (∀ (environment : Environment) (find find' : String → Entry) (arguments : List String)
      (words : Words) (name : String) (surplus : List String) (bytes bytes' : List UInt8),
      Misused environment words → Finds find arguments words name surplus bytes →
      Finds find' arguments words name surplus bytes' →
        run environment find arguments = run environment find' arguments ∧
        (words.request = none → (run environment find arguments).exitCode = 2)) ∧
    ∀ (environment environment' : Environment) (find find' : String → Entry)
      (arguments arguments' : List String) (words words' : Words) (name : String)
      (bytes : List UInt8) (source source' : Selection.Source),
      Fails (Listing.read bytes) → words.debug = false → words'.debug = false →
      Resolves environment find arguments words name bytes source → ¬Refused source →
      Resolves environment' find' arguments' words' name bytes source' → ¬Refused source' →
        run environment find arguments = run environment' find' arguments' ∧
        (run environment find arguments).exitCode = 1 := by
  constructor
  · intro environment find find' arguments words name surplus bytes bytes' misused finds finds'
    obtain ⟨outcome, exitCode, same⟩ := misused.run arguments name surplus
    rw [same find bytes finds, same find' bytes' finds']
    exact ⟨rfl, exitCode⟩
  · intro environment environment' find find' arguments arguments' words words' name bytes source
      source' fails quiet quiet' resolves accepted resolves' accepted'
    obtain ⟨failure, unread⟩ := fails
    rw [resolves.run, resolves'.run, selectFrom_unread accepted quiet unread,
      selectFrom_unread accepted' quiet' unread]
    exact ⟨rfl, Outcome.exitCode_listing _ _ _⟩

theorem run_precedence_broken :
    (∃ (environment : Environment) (arguments : List String) (words : Words),
      environment = ⟨none, some "@a ~@b"⟩ ∧ arguments = ["-s", "x", "f.json"] ∧
      Misused environment words ∧
      Finds (fun _ => .file [0xFF]) arguments words "f.json" [] [0xFF] ∧
      Finds (fun _ => .file "[]".toUTF8.toList) arguments words "f.json" [] "[]".toUTF8.toList ∧
      run environment (fun _ => .file [0xFF]) arguments =
        run environment (fun _ => .file "[]".toUTF8.toList) arguments ∧
      (run environment (fun _ => .file [0xFF]) arguments).exitCode = 2) ∧
    ∃ (bytes : List UInt8) (arguments arguments' : List String) (words words' : Words)
      (source source' : Selection.Source), bytes = "[\x7b".toUTF8.toList ∧
      arguments = ["--json", "-s", "anyOf('a')", "f.json"] ∧ arguments' = ["-t", "~@b", "f.json"] ∧
      Fails (Listing.read bytes) ∧ words.debug = false ∧ words'.debug = false ∧
      Resolves ⟨none, none⟩ (fun _ => .file bytes) arguments words "f.json" bytes source ∧
      ¬Refused source ∧
      Resolves ⟨none, none⟩ (fun _ => .file bytes) arguments' words' "f.json" bytes source' ∧
      ¬Refused source' ∧
      run ⟨none, none⟩ (fun _ => .file bytes) arguments =
        run ⟨none, none⟩ (fun _ => .file bytes) arguments' ∧
      (run ⟨none, none⟩ (fun _ => .file bytes) arguments).exitCode = 1 := by
  obtain ⟨useFirst, listingFirst⟩ := run_precedence
  constructor
  · have misused : Misused ⟨none, some "@a ~@b"⟩ ⟨some "x", [], false, false, none, ["f.json"]⟩ :=
      .conflict "x" rfl (by decide) (by decide +kernel)
    have finds (bytes : List UInt8) : Finds (fun _ => .file bytes) ["-s", "x", "f.json"]
        ⟨some "x", [], false, false, none, ["f.json"]⟩ "f.json" [] bytes := ⟨rfl, rfl, rfl⟩
    obtain ⟨same, exitCode⟩ := useFirst _ _ _ _ _ _ _ _ _ misused (finds [0xFF])
      (finds "[]".toUTF8.toList)
    exact ⟨_, _, _, rfl, rfl, misused, finds _, finds _, same, exitCode rfl⟩
  · obtain ⟨bytes, isBytes⟩ : ∃ bytes, bytes = "[\x7b".toUTF8.toList := ⟨_, rfl⟩
    have fails : Fails (Listing.read bytes) := by
      have unread : (Listing.read bytes).toOption.isNone = true := by
        rw [isBytes]
        decide +kernel
      refine (Attempt.fails_or_ok _).resolve_right ?_
      rintro ⟨features, read⟩
      rw [read] at unread
      cases unread
    have resolves : Resolves ⟨none, none⟩ (fun _ => .file bytes)
        ["--json", "-s", "anyOf('a')", "f.json"]
        ⟨some "anyOf('a')", [], true, false, none, ["f.json"]⟩ "f.json" bytes
        (.written "anyOf('a')") := ⟨⟨rfl, rfl, rfl, rfl⟩, rfl⟩
    have resolves' : Resolves ⟨none, none⟩ (fun _ => .file bytes) ["-t", "~@b", "f.json"]
        ⟨none, ["~@b"], false, false, none, ["f.json"]⟩ "f.json" bytes (.filters ["~@b"]) :=
      ⟨⟨rfl, rfl, rfl, rfl⟩, rfl⟩
    have accepted : ¬Refused (.written "anyOf('a')") :=
      not_refused_of_parse rfl (Selector.parse_eq_ok_iff_readText.2 (by decide +kernel) :
        Selector.parse "anyOf('a')" = .ok (.call (.anyOf ["a"])))
    have accepted' : ¬Refused (.filters ["~@b"]) :=
      not_refused_of_parse rfl (Selector.parse_eq_ok_iff_readText.2 (by decide +kernel) :
        Selector.parse "not('@b')" = .ok (.call (.noneOf ["@b"])))
    exact ⟨bytes, _, _, _, _, _, _, isBytes, rfl, rfl, fails, rfl, rfl, resolves, accepted, resolves',
      accepted', listingFirst _ _ _ _ _ _ _ _ _ _ _ _ fails rfl rfl resolves accepted resolves'
        accepted'⟩

end TagQuery.Command
