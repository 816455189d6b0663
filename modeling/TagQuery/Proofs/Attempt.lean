namespace TagQuery.Attempt

universe u v w
variable {α : Type u} {β : Type v} {ε : Type w} {step : Except ε α}

@[simp] theorem bind_eq_ok_iff {next : α → Except ε β} {result : β} :
    step.bind next = .ok result ↔ ∃ value, step = .ok value ∧ next value = .ok result := by
  cases step <;> simp [Except.bind]

@[simp] theorem map_eq_ok_iff {f : α → β} {result : β} :
    step.map f = .ok result ↔ ∃ value, step = .ok value ∧ f value = result := by
  cases step <;> simp [Except.map]

@[simp] theorem mapError_error {ε' : Type w} {f : ε → ε'} (error : ε) :
    (.error error : Except ε α).mapError f = .error (f error) := rfl

@[simp] theorem mapError_ok {ε' : Type w} {f : ε → ε'} (value : α) :
    (.ok value : Except ε α).mapError f = .ok value := rfl

@[simp] theorem mapError_eq_ok_iff {ε' : Type w} {f : ε → ε'} {value : α} :
    step.mapError f = .ok value ↔ step = .ok value := by
  cases step <;> simp

@[simp] theorem mapError_eq_error_iff {ε' : Type w} {f : ε → ε'} {failure : ε'} :
    step.mapError f = .error failure ↔ ∃ error, step = .error error ∧ f error = failure := by
  cases step <;> simp

theorem eq_ok_of_toOption {value : α} (done : step.toOption = some value) : step = .ok value := by
  cases step with
  | error error => cases done
  | ok found => rw [Option.some.inj done]

theorem exists_ok_of_isSome (done : step.toOption.isSome = true) : ∃ value, step = .ok value := by
  obtain ⟨value, done⟩ := Option.isSome_iff_exists.1 done
  exact ⟨value, eq_ok_of_toOption done⟩

/-! ## Failures -/

def Fails (step : Except ε α) : Prop := ∃ error, step = .error error

@[simp] theorem fails_error (error : ε) : Fails (.error error : Except ε α) := ⟨error, rfl⟩

@[simp] theorem not_fails_ok (value : α) : ¬ Fails (.ok value : Except ε α) := by
  simp [Fails]

theorem fails_or_ok (step : Except ε α) : Fails step ∨ ∃ value, step = .ok value := by
  cases step with
  | error error => exact .inl (fails_error error)
  | ok value => exact .inr ⟨value, rfl⟩

@[simp] theorem fails_bind_iff {next : α → Except ε β} :
    Fails (step.bind next) ↔ Fails step ∨ ∃ value, step = .ok value ∧ Fails (next value) := by
  cases step <;> simp [Fails, Except.bind]

@[simp] theorem fails_map_iff {f : α → β} : Fails (step.map f) ↔ Fails step := by
  cases step <;> simp [Fails, Except.map]

@[simp] theorem fails_mapError_iff {ε' : Type w} {f : ε → ε'} :
    Fails (step.mapError f) ↔ Fails step := by
  cases step <;> simp

theorem fails_both_iff {γ : Type v} {other : Except ε β} {combine : α → β → γ} :
    Fails (step.bind fun value => other.bind fun second => .ok (combine value second)) ↔
      Fails step ∨ Fails other := by
  cases step <;> cases other <;> simp [Fails, Except.bind]

end TagQuery.Attempt
