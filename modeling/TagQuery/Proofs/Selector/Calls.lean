import TagQuery.Selector.Call

namespace TagQuery.Selector

def functionNames : List String := ["anyOf", "allOf", "not", "valuesFor"]

def methodNames : List String := ["isPresent", "isAnyOf", "isAllOf", "isOnly", "isEach"]

inductive Call.WrittenAs : Call → WrittenCall → Prop where
  | full (call : Call) : WrittenAs call call.written
  | bare (name : String) :
      WrittenAs (.valuesFor name (some .isPresent))
        ⟨"valuesFor", [name], some ⟨"isPresent", none⟩⟩

structure WrittenMethod.WellFormed (method : WrittenMethod) : Prop where
  known : method.name ∈ ["isPresent", "isAnyOf", "isAllOf", "isOnly", "isEach"]
  called : method.arguments ≠ none
  present : method.name = "isPresent" → method.arguments = some []

structure WrittenCall.WellFormed (call : WrittenCall) : Prop where
  known : call.function ∈ ["anyOf", "allOf", "not", "valuesFor"]
  arity : call.function = "valuesFor" → call.arguments.length = 1
  chained : ∀ method, call.method = some method → call.function = "valuesFor"
  method : ∀ method, call.method = some method → method.WellFormed

theorem Method.written_wellFormed (method : Method) : method.written.WellFormed := by
  cases method <;> constructor <;> simp [Method.written]

theorem Call.written_wellFormed (call : Call) : call.written.WellFormed := by
  cases call with
  | valuesFor name method =>
      cases method with
      | none => constructor <;> simp [Call.written]
      | some method =>
          constructor
          · simp [Call.written]
          · simp [Call.written]
          · simp [Call.written]
          · intro written same
            simp only [Call.written, Option.map_some, Option.some.injEq] at same
            exact same ▸ method.written_wellFormed
  | _ => constructor <;> simp [Call.written]

theorem Method.named?_written {name : String} {make : List String → Method}
    (found : Method.named? name = some make) (candidates : List String) :
    (make candidates).written = ⟨name, some candidates⟩ := by
  unfold Method.named? at found
  split at found
  all_goals cases found
  all_goals rfl

theorem WrittenMethod.written_of_check {written : WrittenMethod} {method : Method}
    (accepted : written.check = .ok method) :
    written = method.written ∨ written = ⟨"isPresent", none⟩ ∧ method = .isPresent := by
  obtain ⟨name, arguments⟩ := written
  unfold WrittenMethod.check at accepted
  split at accepted
  · rename_i present
    cases present
    cases arguments with
    | none =>
        cases accepted
        exact .inr ⟨rfl, rfl⟩
    | some contents =>
        cases contents with
        | nil =>
            cases accepted
            exact .inl rfl
        | cons content contents => cases accepted
  · split at accepted
    · cases accepted
    · rename_i make found
      cases arguments with
      | none => cases accepted
      | some contents =>
          cases accepted
          exact .inl (Method.named?_written found contents).symm

theorem WrittenCall.plain_of_check {written : WrittenCall} {make : List String → Call} {call : Call}
    (accepted : written.checkPlain make = .ok call) :
    written.method = none ∧ call = make written.arguments := by
  unfold WrittenCall.checkPlain at accepted
  split at accepted
  · cases accepted
  · rename_i none
    cases accepted
    exact ⟨none, rfl⟩

theorem WrittenCall.writtenAs_of_check {written : WrittenCall} {call : Call}
    (accepted : written.check = .ok call) : call.WrittenAs written := by
  obtain ⟨function, arguments, method⟩ := written
  unfold WrittenCall.check at accepted
  split at accepted
  · rename_i same
    cases same
    obtain ⟨none, rfl⟩ := WrittenCall.plain_of_check accepted
    cases none
    exact .full (.anyOf arguments)
  · rename_i same
    cases same
    obtain ⟨none, rfl⟩ := WrittenCall.plain_of_check accepted
    cases none
    exact .full (.allOf arguments)
  · rename_i same
    cases same
    obtain ⟨none, rfl⟩ := WrittenCall.plain_of_check accepted
    cases none
    exact .full (.noneOf arguments)
  · rename_i same
    cases same
    split at accepted
    · rename_i name single
      cases single
      split at accepted
      · rename_i none
        cases none
        cases accepted
        exact .full (.valuesFor name none)
      · rename_i chained some
        cases some
        cases checked : chained.check with
        | error violation =>
            rw [checked] at accepted
            cases accepted
        | ok method =>
            rw [checked] at accepted
            cases accepted
            rcases WrittenMethod.written_of_check checked with rfl | ⟨rfl, rfl⟩
            · exact .full (.valuesFor name (some method))
            · exact .bare name
    · cases accepted
  · cases accepted

theorem Call.WrittenAs.check {call : Call} {written : WrittenCall} (form : call.WrittenAs written) :
    written.check = .ok call := by
  cases form with
  | full => exact call.check_written
  | bare name => rfl

theorem Call.WrittenAs.chained {call : Call} {written : WrittenCall} {method : WrittenMethod}
    (form : call.WrittenAs written) (some : written.method = some method) :
    written.function = "valuesFor" := by
  cases form with
  | full => exact call.written_wellFormed.chained method some
  | bare => rfl

theorem WrittenCall.check_eq_ok_iff {written : WrittenCall} {call : Call} :
    written.check = .ok call ↔ call.WrittenAs written :=
  ⟨writtenAs_of_check, Call.WrittenAs.check⟩

end TagQuery.Selector
