import TagQuery.Command.Run
import TagQuery.Proofs.Selection.Filtering
import TagQuery.Proofs.Selector.Outcome

namespace TagQuery.Command

open Attempt (Fails)

/-! ## Outcomes -/

structure Outcome.Failed (outcome : Outcome) : Prop where
  exitCode : outcome.exitCode ≠ 0
  stdout : outcome.stdout = ""

structure Outcome.Printed (text : String) (outcome : Outcome) : Prop where
  exitCode : outcome.exitCode = 0
  stdout : outcome.stdout = text
  unhandled : outcome.unhandled = none

namespace Outcome

theorem failed_usage (error : UsageError) : (usage error).Failed := ⟨Nat.succ_ne_zero 1, rfl⟩

theorem failed_failure (debug : Bool) (message : String) (unhandled : Unhandled) :
    (failure debug message unhandled).Failed := by
  cases debug <;> exact ⟨Nat.one_ne_zero, rfl⟩

theorem failed_listing (debug : Bool) (name : String) (reason : Listing.Failure) :
    (listing debug name reason).Failed := by
  unfold listing
  dsimp only
  split
  · exact ⟨Nat.one_ne_zero, rfl⟩
  · exact failed_failure _ _ _

variable {outcome : Outcome}

theorem Failed.after (failed : outcome.Failed) (debug : Bool) (lines : List String) :
    (outcome.after debug lines).Failed := by
  cases debug
  · exact failed
  · exact ⟨failed.exitCode, failed.stdout⟩

theorem Printed.after {text : String} (printed : outcome.Printed text) (debug : Bool)
    (lines : List String) : (outcome.after debug lines).Printed text := by
  cases debug
  · exact printed
  · exact ⟨printed.exitCode, printed.stdout, printed.unhandled⟩

end Outcome

/-! ## The stages of a run -/

section
variable {words : Words} {name : String} {bytes : List UInt8}

theorem select_of_fails {selector : Value}
    (fails : Fails (Listing.read bytes) ∨ ∃ features, Listing.read bytes = .ok features ∧
      Fails (Selection.ofFeatures selector features)) :
    (select words name bytes selector).Failed := by
  unfold select
  rcases fails with ⟨failure, unread⟩ | ⟨features, read, error, failed⟩
  · rw [unread]
    exact Outcome.failed_listing _ _ _
  · simp only [read, failed]
    exact Outcome.failed_failure _ _ _

theorem select_of_ok {selector : Value} {features : List Feature}
    {selected : List Selection.Selected} (read : Listing.read bytes = .ok features)
    (chosen : Selection.ofFeatures selector features = .ok selected) :
    (select words name bytes selector).Printed (report words.json selected) := by
  simp only [select, read, chosen]
  exact ⟨rfl, rfl, rfl⟩

def Refused (source : Selection.Source) : Prop :=
  source.selector ≠ .null ∧ Fails (Selector.parseValue source.selector)

variable {source : Selection.Source}

theorem selectFrom_of_refused (refused : Refused source) :
    (selectFrom words name bytes source).Failed := by
  obtain ⟨given, refusal, parsed⟩ := refused
  unfold selectFrom
  split
  · rename_i absent
    exact absurd absent given
  · rw [parsed]
    exact (Outcome.failed_usage _).after _ _

theorem selectFrom_of_failed (failed : (select words name bytes source.selector).Failed) :
    (selectFrom words name bytes source).Failed := by
  unfold selectFrom
  split
  · rename_i absent
    exact (absent ▸ failed).after _ _
  · split
    · exact (Outcome.failed_usage _).after _ _
    · exact failed.after _ _

theorem selectFrom_of_printed {text : String} (accepted : ¬ Refused source)
    (printed : (select words name bytes source.selector).Printed text) :
    (selectFrom words name bytes source).Printed text := by
  unfold selectFrom
  split
  · rename_i absent
    exact (absent ▸ printed).after _ _
  · rename_i given
    split
    · rename_i refusal parsed
      exact absurd ⟨given, refusal, parsed⟩ accepted
    · exact printed.after _ _

end

/-! ## The whole run -/

section
variable (environment : Environment) (find : String → Entry) (arguments : List String)

structure Opens (words : Words) (name : String) (bytes : List UInt8) : Prop where
  read : readWords {} arguments = .ok words
  request : words.request = none
  files : words.files = [name]
  found : find name = .file bytes

structure Resolves (words : Words) (name : String) (bytes : List UInt8)
    (source : Selection.Source) : Prop extends Opens find arguments words name bytes where
  resolved : Selection.resolve (words.selectorIn environment) (words.filtersIn environment) =
    .ok source

/-- What can go wrong in a run. A listing can be wrong in any place, and the selector can fail for
any of its scenarios. -/
inductive Faulty : Prop where
  | words (fails : Fails (readWords {} arguments))
  | file (words : Words) (read : readWords {} arguments = .ok words)
      (request : words.request = none)
      (unopened : ∀ name bytes, words.files = [name] → find name ≠ .file bytes)
  | conflict (words : Words) (name : String) (bytes : List UInt8)
      (opens : Opens find arguments words name bytes)
      (fails : Fails (Selection.resolve (words.selectorIn environment)
        (words.filtersIn environment)))
  | selector (words : Words) (name : String) (bytes : List UInt8) (source : Selection.Source)
      (resolves : Resolves environment find arguments words name bytes source)
      (refused : Refused source)
  | listing (words : Words) (name : String) (bytes : List UInt8) (source : Selection.Source)
      (resolves : Resolves environment find arguments words name bytes source)
      (unreadable : Listing.Unreadable bytes)
  | scenario (words : Words) (name : String) (bytes : List UInt8) (source : Selection.Source)
      (resolves : Resolves environment find arguments words name bytes source)
      (features : List Feature) (read : Listing.read bytes = .ok features)
      (pair : Feature × Scenario) (mem : pair ∈ Selection.scenarios features)
      (fails : Fails (Selection.verdict source.selector pair))

inductive Prints : String → Prop where
  | request (words : Words) (read : readWords {} arguments = .ok words) (request : Request)
      (requested : words.request = some request) : Prints request.text
  | report (words : Words) (name : String) (bytes : List UInt8) (source : Selection.Source)
      (resolves : Resolves environment find arguments words name bytes source)
      (accepted : ¬ Refused source) (features : List Feature)
      (read : Listing.read bytes = .ok features) (selected : List Selection.Selected)
      (chosen : Selection.ofFeatures source.selector features = .ok selected) :
      Prints (report words.json selected)

variable {environment find arguments}
variable {words : Words} {name : String} {bytes : List UInt8} {source : Selection.Source}

theorem Opens.run (opens : Opens find arguments words name bytes) :
    run environment find arguments = runFile environment words name bytes := by
  simp only [Command.run, opens.read, opens.request, opens.files, opens.found]

theorem Resolves.run (resolves : Resolves environment find arguments words name bytes source) :
    run environment find arguments = selectFrom words name bytes source := by
  rw [resolves.toOpens.run, runFile, resolves.resolved]

theorem run_of_unopened (read : readWords {} arguments = .ok words) (request : words.request = none)
    (unopened : ∀ name bytes, words.files = [name] → find name ≠ .file bytes) :
    (run environment find arguments).Failed := by
  unfold run
  simp only [read, request]
  split
  · rename_i requested
    cases requested
  · exact Outcome.failed_usage _
  · rename_i name surplus _ files
    cases found : find name with
    | file bytes =>
        cases surplus with
        | nil => exact absurd found (unopened name bytes files)
        | cons => exact Outcome.failed_usage _
    | _ => exact Outcome.failed_usage _

theorem Faulty.failed (faulty : Faulty environment find arguments) :
    (run environment find arguments).Failed := by
  cases faulty with
  | words fails =>
      obtain ⟨error, refused⟩ := fails
      rw [run, refused]
      exact Outcome.failed_usage _
  | file words read request unopened => exact run_of_unopened read request unopened
  | conflict words name bytes opens fails =>
      obtain ⟨conflict, unresolved⟩ := fails
      rw [opens.run, runFile, unresolved]
      exact Outcome.failed_usage _
  | selector words name bytes source resolves refused =>
      rw [resolves.run]
      exact selectFrom_of_refused refused
  | listing words name bytes source resolves unreadable =>
      rw [resolves.run]
      exact selectFrom_of_failed (select_of_fails (.inl (Listing.fails_read_iff.2 unreadable)))
  | scenario words name bytes source resolves features read pair mem fails =>
      rw [resolves.run]
      have failed := Selection.fails_ofFeatures_iff.2 ⟨pair, mem, fails⟩
      exact selectFrom_of_failed (select_of_fails (.inr ⟨features, read, failed⟩))

theorem Prints.printed {text : String} (prints : Prints environment find arguments text) :
    (run environment find arguments).Printed text := by
  cases prints with
  | request words read request requested =>
      simp only [run, read, requested]
      exact ⟨rfl, rfl, rfl⟩
  | report words name bytes source resolves accepted features read selected chosen =>
      rw [resolves.run]
      exact selectFrom_of_printed accepted (select_of_ok read chosen)

theorem Resolves.faulty_or_prints
    (resolves : Resolves environment find arguments words name bytes source) :
    Faulty environment find arguments ∨ ∃ text, Prints environment find arguments text := by
  by_cases refused : Refused source
  · exact .inl (.selector words name bytes source resolves refused)
  rcases Attempt.fails_or_ok (Listing.read bytes) with unread | ⟨features, read⟩
  · exact .inl (.listing words name bytes source resolves (Listing.fails_read_iff.1 unread))
  rcases Attempt.fails_or_ok (Selection.ofFeatures source.selector features) with
    fails | ⟨selected, chosen⟩
  · obtain ⟨pair, mem, fails⟩ := Selection.fails_ofFeatures_iff.1 fails
    exact .inl (.scenario words name bytes source resolves features read pair mem fails)
  · exact .inr ⟨_, .report words name bytes source resolves refused features read selected chosen⟩

theorem faulty_or_prints (environment : Environment) (find : String → Entry)
    (arguments : List String) :
    Faulty environment find arguments ∨ ∃ text, Prints environment find arguments text := by
  -- The cases come in the order in which the command meets them.
  rcases Attempt.fails_or_ok (readWords {} arguments) with fails | ⟨words, read⟩
  · exact .inl (.words fails)
  cases request : words.request with
  | some given => exact .inr ⟨_, .request words read given request⟩
  | none =>
      by_cases opened : ∃ name bytes, words.files = [name] ∧ find name = .file bytes
      · obtain ⟨name, bytes, files, found⟩ := opened
        have opens : Opens find arguments words name bytes := ⟨read, request, files, found⟩
        rcases Attempt.fails_or_ok (Selection.resolve (words.selectorIn environment)
          (words.filtersIn environment)) with fails | ⟨source, resolved⟩
        · exact .inl (.conflict words name bytes opens fails)
        · exact Resolves.faulty_or_prints ⟨opens, resolved⟩
      · refine .inl (.file words read request fun name bytes files found => ?_)
        exact opened ⟨name, bytes, files, found⟩

/-- A run prints nothing if it fails or is left unhandled. It fails exactly if something in it goes
wrong, and otherwise prints a whole report or what is requested. -/
theorem run_output (environment : Environment) (find : String → Entry) (arguments : List String) :
    ((run environment find arguments).exitCode ≠ 0 ∨
        (run environment find arguments).unhandled.isSome = true →
      (run environment find arguments).stdout = "") ∧
    ((run environment find arguments).exitCode ≠ 0 ↔ Faulty environment find arguments) ∧
    ((run environment find arguments).exitCode = 0 →
      Prints environment find arguments (run environment find arguments).stdout) := by
  rcases faulty_or_prints environment find arguments with faulty | ⟨text, prints⟩
  · have failed := faulty.failed
    exact ⟨fun _ => failed.stdout, iff_of_true failed.exitCode faulty,
      fun succeeded => absurd succeeded failed.exitCode⟩
  · have printed := prints.printed
    refine ⟨?_, iff_of_false (not_not_intro printed.exitCode) ?_, fun _ => printed.stdout ▸ prints⟩
    · rintro (failed | unhandled)
      · exact absurd printed.exitCode failed
      · rw [printed.unhandled] at unhandled
        cases unhandled
    · exact fun faulty => faulty.failed.exitCode printed.exitCode

theorem run_output_late :
    ∃ (source : String) (bytes : List UInt8) (arguments : List String),
      source = "anyOf('a') || valuesFor('x').isEach()" ∧
      bytes = ("[\x7b\"scenarios\":[\x7b\"tags\":[\"a\"]\x7d,\x7b\x7d]\x7d]").toUTF8.toList ∧
      arguments = ["--debug", "-s", source, "f.json"] ∧
      Faulty ⟨none, none⟩ (fun _ => .file bytes) arguments ∧
      (run ⟨none, none⟩ (fun _ => .file bytes) arguments).exitCode ≠ 0 ∧
      (run ⟨none, none⟩ (fun _ => .file bytes) arguments).stdout = "" := by
  obtain ⟨source, isSource⟩ : ∃ source, source = "anyOf('a') || valuesFor('x').isEach()" := ⟨_, rfl⟩
  obtain ⟨bytes, isBytes⟩ : ∃ bytes, bytes =
    ("[\x7b\"scenarios\":[\x7b\"tags\":[\"a\"]\x7d,\x7b\x7d]\x7d]").toUTF8.toList := ⟨_, rfl⟩
  have opens : Opens (fun _ => .file bytes) ["--debug", "-s", source, "f.json"]
      ⟨some source, [], false, true, none, ["f.json"]⟩ "f.json" bytes := ⟨rfl, rfl, rfl, rfl⟩
  have resolves : Resolves ⟨none, none⟩ (fun _ => .file bytes) ["--debug", "-s", source, "f.json"]
      ⟨some source, [], false, true, none, ["f.json"]⟩ "f.json" bytes (.written source) :=
    ⟨opens, by rw [isSource]; rfl⟩
  have tagged : (Listing.read bytes).toOption.map (fun features =>
      (Selection.scenarios features).map fun pair => (pair.1.tags ++ pair.2.tags).map (·.text)) =
        some [["a"], []] := by
    rw [isBytes]
    decide +kernel
  obtain ⟨features, found, texts⟩ := Option.map_eq_some_iff.1 tagged
  obtain ⟨last, mem, untagged⟩ : ∃ pair ∈ Selection.scenarios features,
      (pair.1.tags ++ pair.2.tags).map (·.text) = [] :=
    List.mem_map.1 (texts ▸ by simp)
  have compiled : Selector.parse source = .ok (.disjunction (.call (.anyOf ["a"]))
      (.call (.valuesFor "x" (some (.isEach []))))) := by
    rw [isSource]
    exact Selector.parse_eq_ok_iff_readText.2 (by decide +kernel)
  have fails : Fails (Selection.verdict (.text source) last) := by
    rw [List.map_eq_nil_iff] at untagged
    rw [Selection.verdict_of_parsed (by simp [untagged]), untagged, Selector.isSelectedBy_of_answer,
      Selector.answer_of_parse compiled]
    exact ⟨.fault .testMissing, rfl⟩
  have faulty := Faulty.scenario _ _ _ _ resolves features (Attempt.eq_ok_of_toOption found) last mem
    fails
  obtain ⟨silent, failed_iff, -⟩ :=
    run_output ⟨none, none⟩ (fun _ => .file bytes) ["--debug", "-s", source, "f.json"]
  have failed := failed_iff.2 faulty
  exact ⟨source, bytes, _, isSource, isBytes, rfl, faulty, failed, silent (.inl failed)⟩

end

end TagQuery.Command
