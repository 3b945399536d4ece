import Mathlib.Logic.Function.Basic

/-!
# Calls that share a state

A call is a program of atomic actions on a state that it shares with other
calls.  An action returns a reply, on which the rest of the program depends, or
panics.  The calls of a pool take their actions in any order.

If every call, run alone, leaves the state as it found it, then calls that do
not overlap return what they return alone: whenever a call begins, the state is
the one at the start.
-/

namespace Fabric.Library.Interleaving

/-- A program of atomic actions; an action without a result panics. -/
inductive Program (State Reply Result : Type) where
  | done (result : Result)
  | atom (act : State → Option (State × Reply))
      (next : Reply → Program State Reply Result)

namespace Program

variable {State Reply Result Other : Type}

def run : Program State Reply Result → State → Option (State × Result)
  | done result, state => some (state, result)
  | atom act next, state => (act state).bind fun reached => (next reached.2).run reached.1

def bind (program : Program State Reply Result)
    (rest : Result → Program State Reply Other) : Program State Reply Other :=
  match program with
  | done result => rest result
  | atom act next => atom act fun reply => (next reply).bind rest

instance : Monad (Program State Reply) where
  pure := done
  bind := bind

/-- The program of a single action, whose result is the reply. -/
def perform (act : State → Option (State × Reply)) : Program State Reply Reply :=
  atom act done

@[simp]
theorem run_pure (result : Result) (state : State) :
    (pure result : Program State Reply Result).run state = some (state, result) :=
  rfl

@[simp]
theorem run_bind (program : Program State Reply Result)
    (rest : Result → Program State Reply Other) (state : State) :
    (program >>= rest).run state = (program.run state).bind fun reached =>
        (rest reached.2).run reached.1 := by
  show (program.bind rest).run state = _
  induction program generalizing state with
  | done _ => rfl
  | atom _ _ ih =>
    rw [bind, run, run, Option.bind_assoc]
    simp only [ih]

@[simp]
theorem run_perform (act : State → Option (State × Reply)) (state : State) :
    (perform act).run state = act state := by
  rw [perform, run]
  cases act state with
  | none | some _ => rfl

end Program

/-! ## Pools -/

/-- How far a call has come. -/
inductive Status (State Reply Result : Type) where
  | idle
  | running (rest : Program State Reply Result)
  | panicked

/-- The shared state and the calls that are made on it. -/
structure Pool (Call State Reply Result : Type) where
  shared : State
  status : Call → Status State Reply Result

section

variable {Call State Reply Result : Type} [DecidableEq Call]
  (programs : Call → Program State Reply Result)

/-- What a call has yet to do. -/
def Pool.rest (pool : Pool Call State Reply Result) (call : Call) :
    Option (Program State Reply Result) :=
  match pool.status call with
  | .idle => some (programs call)
  | .running rest => some rest
  | .panicked => none

/-- A call has begun and has not returned. -/
def Pool.Unfinished (pool : Pool Call State Reply Result) (call : Call) : Prop :=
  pool.status call = .panicked ∨ ∃ act next, pool.status call = .running (.atom act next)

def Pool.set (pool : Pool Call State Reply Result) (call : Call)
    (state : State) (status : Status State Reply Result) :
    Pool Call State Reply Result :=
  ⟨state, Function.update pool.status call status⟩

@[simp]
theorem Pool.status_set_self (pool : Pool Call State Reply Result) (call : Call) (state : State)
    (status : Status State Reply Result) : (pool.set call state status).status call = status := by
  show Function.update pool.status call status call = status
  rw [Function.update_self]

theorem Pool.status_set_of_ne (pool : Pool Call State Reply Result) {call other : Call}
    (distinct : other ≠ call) (state : State) (status : Status State Reply Result) :
    (pool.set call state status).status other = pool.status other := by
  show Function.update pool.status call status other = pool.status other
  rw [Function.update_of_ne distinct]

/-- One program performs its next action. -/
inductive Step (pool : Pool Call State Reply Result) (call : Call) :
    Pool Call State Reply Result → Prop where
  | act {act : State → Option (State × Reply)}
      {next : Reply → Program State Reply Result} {state : State}
      {reply : Reply}
      (here : pool.rest programs call = some (.atom act next))
      (acts : act pool.shared = some (state, reply)) :
      Step pool call (pool.set call state (.running (next reply)))
  | panics {act : State → Option (State × Reply)}
      {next : Reply → Program State Reply Result}
      (here : pool.rest programs call = some (.atom act next))
      (acts : act pool.shared = none) :
      Step pool call (pool.set call pool.shared .panicked)

/-- The pools that are reached by the calls in any order. -/
inductive Run (start : State) : Pool Call State Reply Result → Prop where
  | start : Run start ⟨start, fun _ => .idle⟩
  | step {pool later : Pool Call State Reply Result} {call : Call}
      (before : Run start pool) (step : Step programs pool call later) :
      Run start later

/-- The pools that are reached by calls that begin when no other is going on. -/
inductive SerialRun (start : State) : Pool Call State Reply Result → Prop where
  | start : SerialRun start ⟨start, fun _ => .idle⟩
  | step {pool later : Pool Call State Reply Result} {call : Call}
      (before : SerialRun start pool) (step : Step programs pool call later)
      (serial : pool.status call = .idle → ∀ other, ¬ pool.Unfinished other) :
      SerialRun start later

/-- A call returns the result. -/
def Pool.Returned (pool : Pool Call State Reply Result) (call : Call) (result : Result) : Prop :=
  pool.rest programs call = some (.done result)

/-- A call that is the only one going on comes to its end. -/
theorem SerialRun.exists_returned {start : State} {call : Call}
    {pool : Pool Call State Reply Result} {rest : Program State Reply Result}
    {state : State} {result : Result} (run : SerialRun programs start pool)
    (here : pool.rest programs call = some rest)
    (serial : pool.status call = .idle → ∀ other, ¬ pool.Unfinished other)
    (ends : rest.run pool.shared = some (state, result)) :
    ∃ later, SerialRun programs start later ∧ later.Returned programs call result := by
  induction rest generalizing pool with
  | done _ =>
    cases ends
    exact ⟨pool, run, here⟩
  | atom act next ih =>
    rw [Program.run, Option.bind_eq_some_iff] at ends
    rcases ends with ⟨⟨reached, reply⟩, acts, ends⟩
    refine ih reply (run.step (.act here acts) serial) ?_ ?_ ends
    · rw [Pool.rest, Pool.status_set_self]
    · intro idle
      rw [Pool.status_set_self] at idle
      cases idle

/-! ## Calls that do not overlap -/

/-- At most one call is going on, and it goes on as it does alone. -/
inductive Phase (start : State) (pool : Pool Call State Reply Result) : Prop where
  | quiet
      (shared : pool.shared = start)
      (finished : ∀ call, ¬ pool.Unfinished call)
  | busy {call : Call} {act : State → Option (State × Reply)}
      {next : Reply → Program State Reply Result}
      (running : pool.status call = .running (.atom act next))
      (resumes : (Program.atom act next).run pool.shared = (programs call).run start)
      (finished : ∀ other, other ≠ call → ¬ pool.Unfinished other)
  | dead {call : Call}
      (panicked : pool.status call = .panicked)
      (alone : (programs call).run start = none)
      (finished : ∀ other, other ≠ call → ¬ pool.Unfinished other)

/-- At most one program is under way, and those that have returned left the state as it was. -/
structure Serial (start : State) (pool : Pool Call State Reply Result) : Prop where
  phase : Phase programs start pool
  returned : ∀ call result, pool.status call = .running (.done result) →
      (programs call).run start = some (start, result)

variable {programs} {start : State} {pool later : Pool Call State Reply Result}

omit [DecidableEq Call] in
theorem serial_start :
    Serial programs start (⟨start, fun _ => .idle⟩ : Pool Call State Reply Result) where
  phase := by
    refine Phase.quiet rfl ?_
    rintro call (panicked | ⟨_, _, running⟩)
    · cases panicked
    · cases running
  returned call result running := by cases running

theorem Pool.unfinished_set_of_ne {call other : Call} (distinct : other ≠ call) (state : State)
    (status : Status State Reply Result) :
    (pool.set call state status).Unfinished other ↔ pool.Unfinished other := by
  rw [Pool.Unfinished, Pool.Unfinished, pool.status_set_of_ne distinct]

variable {call : Call}

theorem Serial.advance (restores : ∀ call state result,
        (programs call).run start = some (state, result) → state = start)
    (serial : Serial programs start pool) {state : State} {rest : Program State Reply Result}
    (resumes : rest.run state = (programs call).run start)
    (finished : ∀ other, other ≠ call → ¬ pool.Unfinished other) :
    Serial programs start (pool.set call state (.running rest)) := by
  have others : ∀ other, other ≠ call →
        ¬ (pool.set call state (.running rest)).Unfinished other := by
    intro other distinct
    rw [Pool.unfinished_set_of_ne distinct]
    exact finished other distinct
  constructor
  · cases rest with
    | done result =>
      apply Phase.quiet (restores call state result resumes.symm)
      intro other
      by_cases same : other = call
      · subst same
        rintro (panicked | ⟨_, _, running⟩)
        · rw [Pool.status_set_self] at panicked
          cases panicked
        · rw [Pool.status_set_self] at running
          cases running
      · exact others other same
    | atom _ _ => exact .busy (Pool.status_set_self _ _ _ _) resumes others
  · intro other result running
    by_cases same : other = call
    · subst same
      rw [Pool.status_set_self] at running
      cases running
      have alone := resumes.symm
      rw [Program.run] at alone
      rw [alone, restores _ _ _ alone]
    · rw [pool.status_set_of_ne same] at running
      exact serial.returned other result running

/-- The call that is going on has panicked, as it does alone. -/
theorem Serial.panic (serial : Serial programs start pool)
    (alone : (programs call).run start = none)
    (finished : ∀ other, other ≠ call → ¬ pool.Unfinished other) :
    Serial programs start (pool.set call pool.shared .panicked) := by
  constructor
  · apply Phase.dead (Pool.status_set_self _ _ _ _) alone
    intro other distinct
    rw [Pool.unfinished_set_of_ne distinct]
    exact finished other distinct
  · intro other result running
    by_cases same : other = call
    · subst same
      rw [Pool.status_set_self] at running
      cases running
    · rw [pool.status_set_of_ne same] at running
      exact serial.returned other result running

/-- The call that takes an action is the only one that is going on. -/
theorem Serial.resumes (serial : Serial programs start pool) {act : State → Option (State × Reply)}
    {next : Reply → Program State Reply Result}
    (here : pool.rest programs call = some (.atom act next))
    (alone : pool.status call = .idle → ∀ other, ¬ pool.Unfinished other) :
    (Program.atom act next).run pool.shared = (programs call).run start ∧
      ∀ other, other ≠ call → ¬ pool.Unfinished other := by
  rw [Pool.rest] at here
  cases status : pool.status call with
  | idle =>
    rw [status, Option.some.injEq] at here
    rw [← here]
    refine ⟨?_, fun other _ => alone status other⟩
    cases serial.phase with
    | quiet shared _ => rw [shared]
    | busy running _ _ => exact absurd (Or.inr ⟨_, _, running⟩) (alone status _)
    | dead panicked _ _ => exact absurd (Or.inl panicked) (alone status _)
  | running rest =>
    rw [status] at here
    cases here
    have unfinished : pool.Unfinished call := Or.inr ⟨_, _, status⟩
    cases serial.phase with
    | quiet _ finished => exact absurd unfinished (finished call)
    | @busy active _ _ running resumes finished =>
      by_cases same : call = active
      · subst same
        rw [status] at running
        cases running
        exact ⟨resumes, finished⟩
      · exact absurd unfinished (finished call same)
    | @dead active panicked _ finished =>
      by_cases same : call = active
      · subst same
        rw [status] at panicked
        cases panicked
      · exact absurd unfinished (finished call same)
  | panicked =>
    rw [status] at here
    cases here

theorem serial_of_serialRun (restores : ∀ call state result,
        (programs call).run start = some (state, result) → state = start)
    (run : SerialRun programs start pool) : Serial programs start pool := by
  induction run with
  | start => exact serial_start
  | step _ step alone serial =>
    cases step with
    | @act act _ state _ here acts =>
      rcases serial.resumes here alone with ⟨resumes, finished⟩
      rw [Program.run, acts] at resumes
      exact serial.advance restores resumes finished
    | panics here acts =>
      rcases serial.resumes here alone with ⟨resumes, finished⟩
      rw [Program.run, acts] at resumes
      exact serial.panic resumes.symm finished

omit [DecidableEq Call] in
/-- Calls that do not overlap return what they return alone. -/
theorem Serial.run_of_returned (serial : Serial programs start pool) {result : Result}
    (returned : pool.Returned programs call result) :
    (programs call).run start = some (start, result) := by
  rw [Pool.Returned, Pool.rest] at returned
  cases status : pool.status call with
  | idle =>
    rw [status, Option.some.injEq] at returned
    rw [returned]
    rfl
  | running rest =>
    rw [status, Option.some.injEq] at returned
    subst returned
    exact serial.returned call result status
  | panicked =>
    rw [status] at returned
    cases returned

omit [DecidableEq Call] in
/-- Calls that do not overlap panic only if they do alone. -/
theorem Serial.run_of_panicked (serial : Serial programs start pool)
    (panicked : pool.status call = .panicked) : (programs call).run start = none := by
  have unfinished : pool.Unfinished call := Or.inl panicked
  cases serial.phase with
  | quiet _ finished => exact absurd unfinished (finished call)
  | @busy active _ _ running _ finished =>
    by_cases same : call = active
    · subst same
      rw [panicked] at running
      cases running
    · exact absurd unfinished (finished call same)
  | @dead active _ alone finished =>
    by_cases same : call = active
    · subst same
      exact alone
    · exact absurd unfinished (finished call same)

end

end Fabric.Library.Interleaving
