import TagQuery.TagValues

namespace TagQuery.TagValues

@[simp] theorem isTrue_iff {answer : Value} : isTrue answer = true ↔ answer = .bool true := by
  cases answer with
  | bool b => cases b <;> simp [isTrue]
  | _ => simp [isTrue]

section
variable {ε : Type} {test : List Value → Value → Except ε Value}

/-! ## One value -/

theorem trialOf_before (before values : List Value) :
    trialOf test before values = trialOf (fun later => test (before ++ later)) [] values := by
  induction values generalizing before test with
  | nil => rfl
  | cons value values ih =>
      rw [trialOf, trialOf, List.append_nil, ih (before ++ [value]), ih ([] ++ [value])]
      simp only [List.nil_append, List.append_assoc]

section
variable {value : Value} {values : List Value}

theorem isEachInTurn_passed (passed : test [] value = .ok (.bool true)) :
    isEachInTurn ⟨value :: values⟩ test =
      ⟨value :: (isEachInTurn ⟨values⟩ fun later => test (value :: later)).seen,
        (isEachInTurn ⟨values⟩ fun later => test (value :: later)).answer⟩ := by
  rw [isEachInTurn, trialOf, passed]
  simp only [isTrue, if_true]
  rw [List.nil_append, trialOf_before]
  rfl

theorem isEachInTurn_failed {answer : Value} (answered : test [] value = .ok answer)
    (notTrue : answer ≠ .bool true) :
    isEachInTurn ⟨value :: values⟩ test = ⟨[value], .ok false⟩ := by
  simp [isEachInTurn, trialOf, answered, notTrue]

theorem isEachInTurn_raised {e : ε} (raised : test [] value = .error e) :
    isEachInTurn ⟨value :: values⟩ test = ⟨[value], .error e⟩ := by
  rw [isEachInTurn, trialOf, raised]

end

/-! ## The deciding place -/

def Passing (test : List Value → Value → Except ε Value) (values : List Value) : Prop :=
  ∀ front value back, values = front ++ value :: back → test front value = .ok (.bool true)

@[simp] theorem passing_nil : Passing test [] := by
  intro front value back split
  cases front <;> cases split

theorem passing_cons {value : Value} {values : List Value} :
    Passing test (value :: values) ↔
      test [] value = .ok (.bool true) ∧ Passing (fun later => test (value :: later)) values := by
  constructor
  · intro passing
    refine ⟨passing [] value values rfl, fun front other back split => ?_⟩
    exact passing (value :: front) other back (by rw [split, List.cons_append])
  · rintro ⟨first, passing⟩ front other back split
    cases front with
    | nil =>
        cases split
        exact first
    | cons head front =>
        cases split
        exact passing front other back rfl

/-- The course of a test over values, told by the place that decides. -/
inductive Decides (test : List Value → Value → Except ε Value) : List Value → Trial ε → Prop
  | passed (values : List Value) (passing : Passing test values) :
      Decides test values ⟨values, .ok true⟩
  | failed (front : List Value) (value : Value) (back : List Value) (passing : Passing test front)
      {answer : Value} (answered : test front value = .ok answer) (notTrue : answer ≠ .bool true) :
      Decides test (front ++ value :: back) ⟨front ++ [value], .ok false⟩
  | raised (front : List Value) (value : Value) (back : List Value) (passing : Passing test front)
      {e : ε} (raised : test front value = .error e) :
      Decides test (front ++ value :: back) ⟨front ++ [value], .error e⟩

theorem Decides.cons {value : Value} {values : List Value} {trial : Trial ε}
    (first : test [] value = .ok (.bool true))
    (decides : Decides (fun later => test (value :: later)) values trial) :
    Decides test (value :: values) ⟨value :: trial.seen, trial.answer⟩ := by
  cases decides with
  | passed _ passing => exact .passed (value :: values) (passing_cons.2 ⟨first, passing⟩)
  | failed front other back passing answered notTrue =>
      exact .failed (value :: front) other back (passing_cons.2 ⟨first, passing⟩) answered notTrue
  | raised front other back passing raised =>
      exact .raised (value :: front) other back (passing_cons.2 ⟨first, passing⟩) raised

theorem decides_isEachInTurn (test : List Value → Value → Except ε Value) (values : List Value) :
    Decides test values (isEachInTurn ⟨values⟩ test) := by
  -- Behind the first value the test is another one: it has seen that value.
  induction values generalizing test with
  | nil => exact .passed [] passing_nil
  | cons value values ih =>
      cases answered : test [] value with
      | error e =>
          rw [isEachInTurn_raised answered]
          exact .raised [] value values passing_nil answered
      | ok answer =>
          by_cases isTrue : answer = .bool true
          · subst isTrue
            rw [isEachInTurn_passed answered]
            exact .cons answered (ih _)
          · rw [isEachInTurn_failed answered isTrue]
            exact .failed [] value values passing_nil answered isTrue

theorem isEachInTurn_append {front : List Value} (passing : Passing test front)
    (back : List Value) :
    isEachInTurn ⟨front ++ back⟩ test =
      ⟨front ++ (isEachInTurn ⟨back⟩ fun later => test (front ++ later)).seen,
        (isEachInTurn ⟨back⟩ fun later => test (front ++ later)).answer⟩ := by
  induction front generalizing test with
  | nil => rfl
  | cons value front ih =>
      obtain ⟨first, passing⟩ := passing_cons.1 passing
      rw [List.cons_append, isEachInTurn_passed first, ih passing]
      rfl

theorem Decides.eq {values : List Value} {trial : Trial ε} (decides : Decides test values trial) :
    isEachInTurn ⟨values⟩ test = trial := by
  cases decides with
  | passed _ passing =>
      have whole := isEachInTurn_append passing []
      rw [List.append_nil] at whole
      rw [whole, isEachInTurn, trialOf, List.append_nil]
  | failed front value back passing answered notTrue =>
      rw [isEachInTurn_append passing, isEachInTurn_failed _ notTrue]
      rwa [List.append_nil]
  | raised front value back passing raised =>
      rw [isEachInTurn_append passing, isEachInTurn_raised]
      rwa [List.append_nil]

theorem Decides.append {values : List Value} {trial : Trial ε} (decides : Decides test values trial)
    (decided : trial.answer ≠ .ok true) (more : List Value) :
    Decides test (values ++ more) trial := by
  cases decides with
  | passed => exact absurd rfl decided
  | failed front value back passing answered notTrue =>
      rw [List.append_assoc, List.cons_append]
      exact .failed front value (back ++ more) passing answered notTrue
  | raised front value back passing raised =>
      rw [List.append_assoc, List.cons_append]
      exact .raised front value (back ++ more) passing raised

end

/-- A test is put to the values up to the deciding place, each place once and in order: the answer
is true if there is no such place, false if the answer there is not the truth value true, and the
error of the test if it fails there. Values behind the deciding place change nothing, and behind
values that pass the test goes on. -/
theorem isEachInTurn_decides {ε : Type} (test : List Value → Value → Except ε Value)
    (values : List Value) :
    (∀ trial, isEachInTurn ⟨values⟩ test = trial ↔ Decides test values trial) ∧
      ((isEachInTurn ⟨values⟩ test).answer ≠ .ok true →
        ∀ more, isEachInTurn ⟨values ++ more⟩ test = isEachInTurn ⟨values⟩ test) ∧
      ((isEachInTurn ⟨values⟩ test).answer = .ok true → ∀ more,
        isEachInTurn ⟨values ++ more⟩ test =
          ⟨values ++ (isEachInTurn ⟨more⟩ fun later => test (values ++ later)).seen,
            (isEachInTurn ⟨more⟩ fun later => test (values ++ later)).answer⟩) := by
  have decides := decides_isEachInTurn test values
  refine ⟨fun trial => ⟨fun same => same ▸ decides, Decides.eq⟩, ?_, ?_⟩
  · intro decided more
    exact (decides.append decided more).eq
  · intro passed more
    apply isEachInTurn_append
    generalize isEachInTurn ⟨values⟩ test = trial at decides passed
    cases decides with
    | passed _ passing => exact passing
    | failed | raised => cases passed

theorem isEachInTurn_decides_remembered :
    ∃ test : List Value → Value → Except Fault Value,
      test = (fun before _ => .ok (.bool before.isEmpty)) ∧
      isEachInTurn ⟨[.text "dev", .text "dev"] ++ [.text "qa"]⟩ test =
        ⟨[.text "dev", .text "dev"], .ok false⟩ := by
  refine ⟨_, rfl, ?_⟩
  obtain ⟨-, decided, -⟩ := isEachInTurn_decides
    (fun before _ => (.ok (.bool before.isEmpty) : Except Fault Value)) [.text "dev", .text "dev"]
  exact decided nofun [.text "qa"]

example : isEach ⟨[.bool true, .int 1, .bool true]⟩ .ok =
    (⟨[.bool true, .int 1], .ok false⟩ : Trial Fault) := rfl

end TagQuery.TagValues
