import Mathlib.Logic.Basic

/-!
# Outcomes of partial imperative functions

A function of the modelled programs ends in one of three ways: it returns a
value, it returns an error to its caller, or it panics and takes the process
down.  `Outcome` keeps the three apart.  A panic is not an error: no caller
in the modelled code recovers from it.
-/

namespace Fabric.Library

universe u v

/-- The three ways in which a call can end. -/
inductive Outcome (Reason : Type u) (Value : Type v) where
  | ok (value : Value)
  | error (reason : Reason)
  | panic
deriving DecidableEq

namespace Outcome

variable {Reason : Type u} {Value Result : Type v}

/-- Sequential composition; errors and panics skip the continuation. -/
def bind (outcome : Outcome Reason Value) (next : Value → Outcome Reason Result) :
    Outcome Reason Result :=
  match outcome with
  | .ok value => next value
  | .error reason => .error reason
  | .panic => .panic

instance : Monad (Outcome Reason) where
  pure := .ok
  bind := bind

instance : LawfulMonad (Outcome Reason) :=
  LawfulMonad.mk' _ (by
      intro _ outcome
      cases outcome <;> rfl)
    (by
      intros
      rfl)
    (by
      intro _ _ _ outcome _ _
      cases outcome <;> rfl)

@[simp]
theorem pure_ok (value : Value) : (pure value : Outcome Reason Value) = .ok value :=
  rfl

@[simp]
theorem ok_bind (value : Value) (next : Value → Outcome Reason Result) :
    (Outcome.ok value >>= next) = next value :=
  rfl

@[simp]
theorem error_bind (reason : Reason) (next : Value → Outcome Reason Result) :
    ((Outcome.error reason : Outcome Reason Value) >>= next) = .error reason :=
  rfl

@[simp]
theorem panic_bind (next : Value → Outcome Reason Result) :
    ((Outcome.panic : Outcome Reason Value) >>= next) = .panic :=
  rfl

variable {outcome : Outcome Reason Value} {next : Value → Outcome Reason Result}

/-- A composition returns exactly when both halves do. -/
theorem bind_ok_iff {result : Result} : (outcome >>= next) = .ok result ↔
      ∃ value, outcome = .ok value ∧ next value = .ok result := by
  cases outcome with
  | ok value | error _ | panic => simp

/-- A composition panics when the first half does, or the second after it. -/
theorem bind_panic_iff : (outcome >>= next) = .panic ↔ outcome = .panic ∨
        ∃ value, outcome = .ok value ∧ next value = .panic := by
  cases outcome with
  | ok value | error _ | panic => simp

theorem bind_ne_panic (first : outcome ≠ .panic)
    (second : ∀ value, outcome = .ok value → next value ≠ .panic) :
    (outcome >>= next) ≠ .panic := by
  rw [ne_eq, bind_panic_iff]
  rintro (panics | ⟨value, returned, panics⟩)
  · exact first panics
  · exact second value returned panics

/-- Continue only when the condition holds, and report `reason` otherwise. -/
def require (condition : Prop) [Decidable condition] (reason : Reason) : Outcome Reason PUnit :=
  if condition then .ok ⟨⟩ else .error reason

@[simp]
theorem require_ok_iff (condition : Prop) [Decidable condition] (reason : Reason) (result : PUnit) :
    require condition reason = .ok result ↔ condition := by
  by_cases holds : condition <;> simp [require, holds]

@[simp]
theorem require_ne_panic (condition : Prop) [Decidable condition] (reason : Reason) :
    require condition reason ≠ (.panic : Outcome Reason PUnit.{v + 1}) := by
  by_cases holds : condition <;> simp [require, holds]

variable {reason : Reason} {value : Value} {condition : Prop}

theorem ok_ne_panic : ok value ≠ (.panic : Outcome Reason Value) :=
  nofun

theorem error_ne_panic : error reason ≠ (.panic : Outcome Reason Value) :=
  nofun

theorem require_bind_ne_panic [Decidable condition] {next : PUnit → Outcome Reason Result}
    (second : condition → next ⟨⟩ ≠ .panic) :
    (require condition reason >>= next) ≠ .panic := by
  apply bind_ne_panic (require_ne_panic _ _)
  intro _ holds
  exact second ((require_ok_iff _ _ _).mp holds)

variable {Item : Type*} {check : Item → Outcome Reason PUnit.{v + 1}}

theorem forM_ok_iff {items : List Item} :
    items.forM check = .ok ⟨⟩ ↔ ∀ item ∈ items, check item = .ok ⟨⟩ := by
  induction items with
  | nil => simp
  | cons item items ih =>
    change (check item >>= fun _ => items.forM check) = .ok ⟨⟩ ↔ _
    rw [bind_ok_iff, List.forall_mem_cons]
    simp only [ih]
    constructor
    · rintro ⟨_, first, rest⟩
      exact ⟨first, rest⟩
    · rintro ⟨first, rest⟩
      exact ⟨⟨⟩, first, rest⟩

theorem forM_ne_panic {items : List Item} (each : ∀ item ∈ items, check item ≠ .panic) :
    items.forM check ≠ .panic := by
  induction items with
  | nil => simp
  | cons item items ih =>
    rcases List.forall_mem_cons.mp each with ⟨first, rest⟩
    exact bind_ne_panic first fun _ _ => ih rest

theorem mapM_of_forall_ok {items : List Item}
    {convert : Item → Outcome Reason Value} {converted : Item → Value}
    (each : ∀ item ∈ items, convert item = .ok (converted item)) :
    items.mapM convert = .ok (items.map converted) := by
  induction items with
  | nil => rfl
  | cons item _ ih =>
    rw [List.forall_mem_cons] at each
    rw [List.mapM_cons, each.1, ih each.2]
    rfl

variable {State Item : Type*} {round : State → Item → Outcome Reason State}

theorem foldlM_ne_panic
    {items : List Item} (each : ∀ item ∈ items, ∀ state, round state item ≠ .panic)
    (state : State) :
    items.foldlM round state ≠ .panic := by
  induction items generalizing state with
  | nil => nofun
  | cons item items ih =>
    rcases List.forall_mem_cons.mp each with ⟨first, rest⟩
    rw [List.foldlM_cons]
    exact bind_ne_panic (first state) fun middle _ => ih rest middle

theorem bind_ne_error (first : outcome ≠ .error reason)
    (second : ∀ value, outcome = .ok value → next value ≠ .error reason) :
    (outcome >>= next) ≠ .error reason := by
  cases outcome with
  | ok value => exact second value rfl
  | error _ =>
    intro failed
    rw [error_bind, Outcome.error.injEq] at failed
    exact first (congrArg _ failed)
  | panic => nofun

theorem foldlM_ne_error {items : List Item}
    (each : ∀ item ∈ items, ∀ state, round state item ≠ .error reason) (state : State) :
    items.foldlM round state ≠ .error reason := by
  induction items generalizing state with
  | nil => nofun
  | cons item items ih =>
    rcases List.forall_mem_cons.mp each with ⟨first, rest⟩
    rw [List.foldlM_cons]
    exact bind_ne_error (first state) fun middle _ => ih rest middle

/-- What every round keeps holds after a loop that returns. -/
theorem foldlM_invariant {invariant : State → Prop}
    (step : ∀ state item later, invariant state → round state item = .ok later → invariant later)
    {items : List Item} {state later : State} (holds : invariant state)
    (runs : items.foldlM round state = .ok later) :
    invariant later := by
  induction items generalizing state with
  | nil =>
    cases runs
    exact holds
  | cons item items ih =>
    rw [List.foldlM_cons, bind_ok_iff] at runs
    rcases runs with ⟨middle, first, rest⟩
    exact ih (step state item middle holds first) rest

/-- The result of a call that reports failure by returning an error. -/
def ofOption (reason : Reason) : Option Value → Outcome Reason Value
  | some value => .ok value
  | none => .error reason

@[simp]
theorem ofOption_ok_iff (reason : Reason) (result : Option Value) (value : Value) :
    ofOption reason result = .ok value ↔ result = some value := by
  cases result <;> simp [ofOption]

@[simp]
theorem ofOption_ne_panic (reason : Reason) (result : Option Value) :
    ofOption reason result ≠ .panic := by
  cases result <;> simp [ofOption]

theorem ofOption_bind_ne_panic {found : Option Value}
    (second : ∀ value, found = some value → next value ≠ .panic) :
    (ofOption reason found >>= next) ≠ .panic := by
  apply bind_ne_panic (ofOption_ne_panic _ _)
  intro value returned
  exact second value ((ofOption_ok_iff _ _ _).mp returned)

def mapError {Wrapped : Type*} (wrap : Reason → Wrapped) :
    Outcome Reason Value → Outcome Wrapped Value
  | .ok value => .ok value
  | .error reason => .error (wrap reason)
  | .panic => .panic

variable {Wrapped : Type*}

@[simp]
theorem mapError_ok_iff (wrap : Reason → Wrapped) (outcome : Outcome Reason Value) (value : Value) :
    outcome.mapError wrap = .ok value ↔ outcome = .ok value := by
  cases outcome <;> simp [mapError]

@[simp]
theorem mapError_panic_iff (wrap : Reason → Wrapped) (outcome : Outcome Reason Value) :
    outcome.mapError wrap = .panic ↔ outcome = .panic := by
  cases outcome <;> simp [mapError]

theorem mapError_bind_ne_panic {Wrapped : Type u} {wrap : Reason → Wrapped}
    {next : Value → Outcome Wrapped Result} (first : outcome ≠ .panic)
    (second : ∀ value, outcome = .ok value → next value ≠ .panic) :
    (outcome.mapError wrap >>= next) ≠ .panic := by
  apply bind_ne_panic
  · rwa [ne_eq, mapError_panic_iff]
  · intro value returned
    exact second value ((mapError_ok_iff _ _ _).mp returned)

/-- Continue after a return, with or without an error. -/
def handle {Other : Type*} (outcome : Outcome Reason Value)
    (onError : Reason → Outcome Other Result)
    (next : Value → Outcome Other Result) : Outcome Other Result :=
  match outcome with
  | .ok value => next value
  | .error reason => onError reason
  | .panic => .panic

variable {Other : Type*}

theorem handle_panic_iff {onError : Reason → Outcome Other Result}
    {next : Value → Outcome Other Result} :
    outcome.handle onError next = .panic ↔ outcome = .panic ∨
        (∃ reason, outcome = .error reason ∧ onError reason = .panic) ∨
        ∃ value, outcome = .ok value ∧ next value = .panic := by
  cases outcome <;> simp [handle]

/-- Use of a pointer or of an indexed element: panics when it is absent. -/
def deref : Option Value → Outcome Reason Value
  | some value => .ok value
  | none => .panic

@[simp]
theorem deref_some (value : Value) : deref (some value) = (.ok value : Outcome Reason Value) :=
  rfl

@[simp]
theorem deref_none : deref none = (.panic : Outcome Reason Value) :=
  rfl

@[simp]
theorem deref_ok_iff (pointer : Option Value) (value : Value) :
    deref pointer = (.ok value : Outcome Reason Value) ↔ pointer = some value := by
  cases pointer <;> simp [deref]

@[simp]
theorem deref_panic_iff (pointer : Option Value) :
    deref pointer = (.panic : Outcome Reason Value) ↔ pointer = none := by
  cases pointer <;> simp [deref]

theorem deref_ne_error (pointer : Option Value) (reason : Reason) :
    deref pointer ≠ .error reason := by
  cases pointer <;> nofun

/-- Use of a result by a caller that panics when there is none. -/
def orPanic {Other : Type*} : Outcome Reason Value → Outcome Other Value
  | .ok value => .ok value
  | _ => .panic

@[simp]
theorem orPanic_ok_iff (outcome : Outcome Reason Value) (value : Value) :
    outcome.orPanic = (.ok value : Outcome Other Value) ↔ outcome = .ok value := by
  cases outcome <;> simp [orPanic]

/-- The computation returns a value that passes a test. -/
def returns (test : Value → Bool) : Outcome Reason Value → Bool
  | .ok value => test value
  | _ => false

/-- Whether a computation returns a value with a property is found by evaluating it. -/
instance {property : Value → Prop} [DecidablePred property] :
    (outcome : Outcome Reason Value) → Decidable (∃ value, outcome = .ok value ∧ property value)
  | .ok value => decidable_of_iff (property value) (by simp)
  | .error _ | .panic => isFalse (by simp)

instance : (outcome : Outcome Reason Value) → Decidable (outcome = .panic)
  | .panic => isTrue rfl
  | .ok _ | .error _ => isFalse nofun

theorem of_exists_ok {property : Value → Prop} (returned : outcome = .ok value)
    (evaluated : ∃ value, outcome = .ok value ∧ property value) : property value := by
  rcases evaluated with ⟨_, same, holds⟩
  cases returned.symm.trans same
  exact holds

/-! ## Exact preconditions -/

/--
The computation returns, with the given postcondition, when the condition holds,
and panics when it does not.
-/
structure ReturnsIff
    (condition : Prop) (post : Value → Prop) (outcome : Outcome Reason Value) : Prop where
  returns : condition → ∃ value, outcome = .ok value ∧ post value
  panics : ¬ condition → outcome = .panic

namespace ReturnsIff

variable {post : Value → Prop}

theorem ok (holds : condition) (holdsPost : post value) :
    ReturnsIff condition post (.ok value : Outcome Reason Value) :=
  ⟨fun _ => ⟨value, rfl, holdsPost⟩, fun fails => absurd holds fails⟩

theorem panic (fails : ¬ condition) : ReturnsIff condition post (.panic : Outcome Reason Value) :=
  ⟨fun holds => absurd holds fails, fun _ => rfl⟩

theorem deref (pointer : Option Value) :
    ReturnsIff (pointer.isSome = true) (fun value => pointer = some value)
      (deref pointer : Outcome Reason Value) := by
  cases pointer with
  | none => exact panic nofun
  | some value => exact ok rfl rfl

variable {postAfter : Result → Prop}

/-- A composition returns if the first half does and the second after it. -/
theorem bind {conditionAfter : Value → Prop} (first : ReturnsIff condition post outcome)
    (second : ∀ value, outcome = .ok value → post value →
        ReturnsIff (conditionAfter value) postAfter (next value)) :
    ReturnsIff (condition ∧ ∀ value, outcome = .ok value → conditionAfter value)
      postAfter (outcome >>= next) := by
  constructor
  · rintro ⟨holds, holdsAfter⟩
    rcases first.returns holds with ⟨value, returned, holdsPost⟩
    rcases (second value returned holdsPost).returns
      (holdsAfter value returned) with ⟨result, returnedAfter, holdsPostAfter⟩
    exact ⟨result, bind_ok_iff.mpr ⟨value, returned, returnedAfter⟩, holdsPostAfter⟩
  · intro fails
    by_cases holds : condition
    · rcases first.returns holds with ⟨value, returned, holdsPost⟩
      refine bind_panic_iff.mpr (.inr ⟨value, returned, ?_⟩)
      apply (second value returned holdsPost).panics
      intro holdsAfter
      apply fails
      refine ⟨holds, ?_⟩
      intro _ same
      rw [returned, ok.injEq] at same
      rw [← same]
      exact holdsAfter
    · exact bind_panic_iff.mpr (.inl (first.panics holds))

theorem of_iff {other : Prop}
    (same : condition ↔ other) (first : ReturnsIff condition post outcome) :
    ReturnsIff other post outcome :=
  ⟨fun holds => first.returns (same.mpr holds),
    fun fails => first.panics fun holds => fails (same.mp holds)⟩

theorem ite_ok {flag : Bool} (early : post value) (other : ReturnsIff condition post outcome) :
    ReturnsIff (flag = true → condition) post (if flag = false then .ok value else outcome) := by
  cases flag with
  | false => exact ok (by simp) early
  | true => exact other.of_iff (by simp)

section

variable (first : ReturnsIff condition post outcome)
include first

/-- A computation that leaves nothing to be done unless something is known. -/
theorem bind_of_known (flag : Value → Bool) {needed : Prop}
    (second : ∀ value, outcome = .ok value → post value →
        ReturnsIff (flag value = true → needed) postAfter (next value))
    (known : ∀ value, post value → flag value = false → needed) :
    ReturnsIff (condition ∧ needed) postAfter (outcome >>= next) := by
  refine (first.bind second).of_iff ?_
  refine and_congr_right fun holds => ⟨?_, fun given _ _ _ => given⟩
  intro after
  rcases first.returns holds with ⟨value, returned, holdsPost⟩
  cases flagged : flag value with
  | true => exact after value returned flagged
  | false => exact known value holdsPost flagged

theorem bind_ok {form : Value → Result} (implies : ∀ value, post value → postAfter (form value)) :
    ReturnsIff condition postAfter (outcome >>= fun value => .ok (form value)) := by
  constructor
  · intro holds
    rcases first.returns holds with ⟨value, returned, holdsPost⟩
    exact ⟨form value, by rw [returned, ok_bind], implies value holdsPost⟩
  · intro fails
    rw [first.panics fails, panic_bind]

theorem imp {weaker : Value → Prop} (implies : ∀ value, post value → weaker value) :
    ReturnsIff condition weaker outcome := by
  refine ⟨?_, first.panics⟩
  intro holds
  rcases first.returns holds with ⟨value, returned, holdsPost⟩
  exact ⟨value, returned, implies value holdsPost⟩

theorem condition_of_ok (returned : outcome = .ok value) : condition := by
  by_cases holds : condition
  · exact holds
  · rw [first.panics holds] at returned
    cases returned

theorem post_of_ok (returned : outcome = .ok value) : post value := by
  rcases first.returns (first.condition_of_ok returned) with ⟨_, same, holds⟩
  rw [returned, ok.injEq] at same
  rw [same]
  exact holds

theorem exists_iff : (∃ value, outcome = .ok value) ↔ condition := by
  constructor
  · rintro ⟨value, returned⟩
    exact first.condition_of_ok returned
  · intro holds
    rcases first.returns holds with ⟨value, returned, _⟩
    exact ⟨value, returned⟩

end

end ReturnsIff

end Outcome

end Fabric.Library
