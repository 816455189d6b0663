import TagQuery.Proofs.Selector.Calls

namespace TagQuery.Selector

inductive WrittenMethod.Breaks (method : WrittenMethod) : Violation → Prop where
  | unknown (unknown : method.name ∉ methodNames) : Breaks method (.unknownMethod method.name)
  | arguments {contents : List String} (present : method.name = "isPresent")
      (given : method.arguments = some contents) (filled : contents ≠ []) :
      Breaks method .isPresentArguments
  | notCalled (other : method.name ≠ "isPresent") (bare : method.arguments = none) :
      Breaks method (.methodNotCalled method.name)

inductive WrittenCall.Breaks (call : WrittenCall) : Violation → Prop where
  | unknown (unknown : call.function ∉ functionNames) : Breaks call (.unknownFunction call.function)
  | arity (values : call.function = "valuesFor") (arity : call.arguments.length ≠ 1) :
      Breaks call .valuesForArity
  | withoutValues {method : WrittenMethod} (chained : call.method = some method)
      (other : call.function ≠ "valuesFor") : Breaks call (.methodWithoutValues method.name)
  | method {method : WrittenMethod} {violation : Violation} (chained : call.method = some method)
      (broken : method.Breaks violation) : Breaks call violation

def WrittenCall.Obeys (call : WrittenCall) : Prop := ∀ violation, ¬call.Breaks violation

def Violation.rank : Violation → Nat
  | .unknownFunction _ => 0
  | .valuesForArity => 1
  | .methodWithoutValues _ => 2
  | .unknownMethod _ => 3
  | .isPresentArguments => 4
  | .methodNotCalled _ => 5

structure FirstBroken (Breaks : Violation → Prop) (violation : Violation) : Prop where
  broken : Breaks violation
  first : ∀ other, Breaks other → violation.rank ≤ other.rank

theorem WrittenMethod.Breaks.rank {method : WrittenMethod} {violation : Violation}
    (broken : method.Breaks violation) : 3 ≤ violation.rank := by
  cases broken <;> simp [Violation.rank]

theorem WrittenMethod.Breaks.eq_of_rank {method : WrittenMethod} {violation other : Violation}
    (broken : method.Breaks violation) (broken' : method.Breaks other)
    (same : violation.rank = other.rank) : violation = other := by
  cases broken <;> cases broken' <;> first | rfl | simp [Violation.rank] at same

theorem WrittenCall.Breaks.eq_of_rank {call : WrittenCall} {violation other : Violation}
    (broken : call.Breaks violation) (broken' : call.Breaks other)
    (same : violation.rank = other.rank) : violation = other := by
  cases broken with
  | unknown | arity =>
      cases broken' with
      | method _ inner => exact absurd (same ▸ inner.rank) (by simp [Violation.rank])
      | _ => first | rfl | simp [Violation.rank] at same
  | withoutValues chained =>
      cases broken' with
      | withoutValues chained' => rw [Option.some.inj (chained.symm.trans chained')]
      | method _ inner => exact absurd (same ▸ inner.rank) (by simp [Violation.rank])
      | _ => simp [Violation.rank] at same
  | method chained inner =>
      cases broken' with
      | method chained' inner' =>
          obtain rfl := Option.some.inj (chained.symm.trans chained')
          exact inner.eq_of_rank inner' same
      | _ => exact absurd (same ▸ inner.rank) (by simp [Violation.rank])

theorem FirstBroken.eq {call : WrittenCall} {violation other : Violation}
    (breaks : FirstBroken call.Breaks violation) (breaks' : FirstBroken call.Breaks other) :
    violation = other :=
  breaks.broken.eq_of_rank breaks'.broken
    (Nat.le_antisymm (breaks.first _ breaks'.broken) (breaks'.first _ breaks.broken))

/-! ## The check -/

def Reports {α : Type} (Breaks : Violation → Prop) : Except Violation α → Prop
  | .ok _ => ∀ violation, ¬Breaks violation
  | .error violation => FirstBroken Breaks violation

theorem Method.named?_eq_none_iff {name : String} (other : name ≠ "isPresent") :
    Method.named? name = none ↔ name ∉ methodNames := by
  unfold Method.named?
  split <;> simp_all [methodNames]

theorem WrittenMethod.reports_check (method : WrittenMethod) :
    Reports method.Breaks method.check := by
  unfold WrittenMethod.check
  split
  · rename_i present
    have known : method.name ∈ methodNames := by rw [present]; exact List.mem_cons_self
    split
    · rename_i content contents given
      refine ⟨.arguments present given (List.cons_ne_nil _ _), fun other broken => ?_⟩
      cases broken with
      | unknown unknown => exact absurd known unknown
      | arguments | notCalled => simp [Violation.rank]
    · rename_i blank
      intro violation broken
      cases broken with
      | unknown unknown => exact absurd known unknown
      | @arguments contents _ given filled =>
          obtain ⟨content, others, rfl⟩ := List.exists_cons_of_ne_nil filled
          exact blank content others given
      | notCalled other => exact other present
  · rename_i other
    split
    · rename_i unnamed
      exact ⟨.unknown ((Method.named?_eq_none_iff other).1 unnamed), fun _ broken => broken.rank⟩
    · rename_i make named
      have known : method.name ∈ methodNames := by
        apply Decidable.byContradiction
        intro unknown
        rw [(Method.named?_eq_none_iff other).2 unknown] at named
        cases named
      split
      · rename_i bare
        refine ⟨.notCalled other bare, fun violation broken => ?_⟩
        cases broken with
        | unknown unknown => exact absurd known unknown
        | arguments present => exact absurd present other
        | notCalled => exact Nat.le_refl _
      · rename_i contents called
        intro violation broken
        cases broken with
        | unknown unknown => exact unknown known
        | arguments present => exact other present
        | notCalled _ bare =>
            rw [called] at bare
            cases bare

section
variable {call : WrittenCall}

theorem WrittenCall.check_of_unknown (unknown : call.function ∉ functionNames) :
    call.check = .error (.unknownFunction call.function) := by
  unfold WrittenCall.check
  split <;> simp_all [functionNames]

theorem WrittenCall.check_of_plain (known : call.function ∈ functionNames)
    (other : call.function ≠ "valuesFor") : ∃ make, call.check = call.checkPlain make := by
  unfold WrittenCall.check
  split
  · exact ⟨_, rfl⟩
  · exact ⟨_, rfl⟩
  · exact ⟨_, rfl⟩
  · rename_i values
    exact absurd values other
  · simp_all [functionNames]

theorem WrittenCall.check_of_arity (values : call.function = "valuesFor")
    (arity : call.arguments.length ≠ 1) : call.check = .error .valuesForArity := by
  obtain ⟨function, arguments, method⟩ := call
  cases values
  match arguments, arity with
  | [], _ => rfl
  | [_], arity => exact absurd rfl arity
  | _ :: _ :: _, _ => rfl

theorem WrittenCall.check_of_values (values : call.function = "valuesFor")
    (arity : call.arguments.length = 1) : ∃ name, call.check = match call.method with
      | none => .ok (.valuesFor name none)
      | some method => method.check.map fun method => .valuesFor name (some method) := by
  obtain ⟨function, arguments, method⟩ := call
  cases values
  match arguments, arity with
  | [name], _ => exact ⟨name, rfl⟩

theorem WrittenCall.reports_plain (known : call.function ∈ functionNames)
    (other : call.function ≠ "valuesFor") (make : List String → Call) :
    Reports call.Breaks (call.checkPlain make) := by
  unfold WrittenCall.checkPlain
  split
  · rename_i method chained
    refine ⟨.withoutValues chained other, fun violation broken => ?_⟩
    cases broken with
    | unknown unknown => exact absurd known unknown
    | arity values => exact absurd values other
    | withoutValues => exact Nat.le_refl _
    | method _ broken => exact Nat.le_of_succ_le broken.rank
  · rename_i plain
    intro violation broken
    cases broken with
    | unknown unknown => exact absurd known unknown
    | arity values => exact absurd values other
    | withoutValues chained | method chained =>
        rw [plain] at chained
        cases chained

theorem WrittenCall.Breaks.of_method {method : WrittenMethod} {violation : Violation}
    (broken : call.Breaks violation) (values : call.function = "valuesFor")
    (arity : call.arguments.length = 1) (chained : call.method = some method) :
    method.Breaks violation := by
  cases broken with
  | unknown unknown => exact absurd (by rw [values]; decide) unknown
  | arity _ wrong => exact absurd arity wrong
  | withoutValues _ other => exact absurd values other
  | method chained' broken =>
      obtain rfl := Option.some.inj (chained.symm.trans chained')
      exact broken

theorem WrittenCall.reports_values (values : call.function = "valuesFor")
    (arity : call.arguments.length = 1) : Reports call.Breaks call.check := by
  obtain ⟨name, same⟩ := check_of_values values arity
  rw [same]
  split
  · rename_i plain
    intro violation broken
    cases broken with
    | unknown unknown => exact unknown (by rw [values]; decide)
    | arity _ wrong => exact wrong arity
    | withoutValues chained | method chained =>
        rw [plain] at chained
        cases chained
  · rename_i method chained
    have judged := method.reports_check
    cases checked : method.check with
    | ok accepted =>
        rw [checked] at judged
        exact fun violation broken => judged violation (broken.of_method values arity chained)
    | error violation =>
        rw [checked] at judged
        exact ⟨.method chained judged.broken, fun other broken =>
          judged.first other (broken.of_method values arity chained)⟩

end

theorem WrittenCall.reports_check (call : WrittenCall) : Reports call.Breaks call.check := by
  by_cases known : call.function ∈ functionNames
  · by_cases values : call.function = "valuesFor"
    · by_cases arity : call.arguments.length = 1
      · exact reports_values values arity
      · rw [check_of_arity values arity]
        refine ⟨.arity values arity, fun violation broken => ?_⟩
        cases broken with
        | unknown unknown => exact absurd known unknown
        | arity => exact Nat.le_refl _
        | withoutValues _ other => exact absurd values other
        | method _ broken => exact Nat.le_trans (by decide) broken.rank
    · obtain ⟨make, same⟩ := check_of_plain known values
      rw [same]
      exact reports_plain known values make
  · rw [check_of_unknown known]
    exact ⟨.unknown known, fun _ _ => Nat.zero_le _⟩

theorem WrittenCall.check_eq_error_iff {call : WrittenCall} {violation : Violation} :
    call.check = .error violation ↔ FirstBroken call.Breaks violation := by
  have judged := call.reports_check
  cases checked : call.check with
  | ok accepted =>
      rw [checked] at judged
      exact ⟨fun same => (by cases same), fun breaks => absurd breaks.broken (judged violation)⟩
  | error found =>
      rw [checked] at judged
      rw [Except.error.injEq]
      exact ⟨fun same => same ▸ judged, fun breaks => judged.eq breaks⟩

theorem WrittenCall.exists_check_eq_ok_iff {call : WrittenCall} :
    (∃ accepted, call.check = .ok accepted) ↔ call.Obeys := by
  have judged := call.reports_check
  cases checked : call.check with
  | ok accepted =>
      rw [checked] at judged
      exact ⟨fun _ => judged, fun _ => ⟨accepted, rfl⟩⟩
  | error violation =>
      rw [checked] at judged
      exact ⟨fun ⟨_, same⟩ => (by cases same), fun obeys => absurd judged.broken (obeys violation)⟩

end TagQuery.Selector
