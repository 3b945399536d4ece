import Fabric.Config.HandlerCalls
import Fabric.ConfigTx.Transactions

/-!
# Calls of one manager that overlap

Several clients may propose updates to a channel, or have configurations
validated, at the same time.  Each call opens proposals in the handlers of the
channel and closes them before it returns.  The handlers keep proposals by a
transaction handle, but all calls use the same one, so that a call that begins
while another one is going on finds a proposal that is open and panics.  Calls
that do not overlap return what they return alone.
-/

namespace Fabric.ConfigTx.OverlappingCalls

open Library Outcome Interleaving Protos Config.GroupValues Config.Policies
  Config.Proposals Config HandlerCalls ConfigTx.Tree Manager Elements RoundTrip
  Compute Transactions

/-! ## Requests -/

/-- What is asked of the manager of a channel. -/
inductive Request where
  | propose (configtx : Option Envelope)
  | validate (configEnv : Option ConfigEnvelope)

/-- What a call returns. -/
inductive Answer where
  | proposed (outcome : Outcome ConfigError ConfigEnvelope)
  | validated (outcome : Outcome ManagerError Unit)

def Answer.Panics : Answer → Prop
  | .proposed outcome => outcome = .panic
  | .validated outcome => outcome = .panic

section

variable {MSP : Type} (services : Services MSP) (codec : Codec)

/-- The answer to a request that is the only one. -/
def alone (cm : ChannelManager MSP) : Request → Answer
  | .propose configtx => .proposed (proposeConfigUpdate services codec cm configtx).2
  | .validate configEnv =>
    .validated (Transactions.validate services codec cm configEnv).2

/--
The configuration that a request leads to.  This reads the configuration that is
in force, which no proposal changes.
-/
def requestedGroup (cm : ChannelManager MSP) : Request → Outcome ManagerError ConfigGroup
  | .propose configtx =>
    (envelopeToConfigUpdate codec configtx >>=
      updatedGroup services codec cm).mapError .config
  | .validate none => .error .nilEnvelope
  | .validate (some configEnv) =>
    (authorizedGroup services codec cm configEnv).mapError .config

/-- The answer to a request, once the handlers have accepted it. -/
def accepted (cm : ChannelManager MSP) (channelGroup : ConfigGroup) : Request → Answer
  | .propose configtx => .proposed (.ok ⟨some ⟨cm.sequence + 1, some channelGroup⟩, configtx⟩)
  | .validate _ => .validated (.ok ())

def refused (reason : ManagerError) : Request → Answer
  | .propose _ =>
    match reason with
    | .config reason => .proposed (.error reason)
    | .nilEnvelope => .proposed (.error .refusedByHandlers)
  | .validate _ => .validated (.error reason)

/-- The calls of the handlers that a request makes, up to its answer. -/
def requestCalls (cm : ChannelManager MSP) (request : Request) : Calls MSP Answer :=
  match requestedGroup services codec cm request with
  | .error reason => pure (refused reason request)
  | .panic => do
      let _ ← call fun _ => .panic
      pure (refused .nilEnvelope request)
  | .ok channelGroup => do
      match ← processCalls services channelGroup with
      | none => pure (accepted cm channelGroup request)
      | some _ => pure (refused (.config .refusedByHandlers) request)

/-! ## Requests that are the only ones -/

variable {services codec} {cm : ChannelManager MSP}

/-- A request panics, or is answered and leaves the resources as they were. -/
def AnsweredAlone (resources : Resources MSP) (answer : Answer)
    (ended : Option (Resources MSP × Answer)) : Prop :=
  (ended = none ∧ answer.Panics) ∨ (ended = some (resources, answer) ∧ ¬ answer.Panics)

theorem answeredAlone_requestCalls (settled : cm.resources.Settled) (request : Request) :
    AnsweredAlone cm.resources (alone services codec cm request)
      ((requestCalls services codec cm request).run cm.resources) := by
  have runs (channelGroup : ConfigGroup) :=
    @run_processCalls MSP services cm.resources settled channelGroup
  rcases request with configtx | _ | configEnv
  · rw [requestCalls, requestedGroup, alone, proposeConfigUpdate]
    cases envelopeToConfigUpdate codec configtx >>= updatedGroup services codec cm with
    | error reason => exact Or.inr ⟨rfl, error_ne_panic⟩
    | panic => exact Or.inl ⟨rfl, rfl⟩
    | ok channelGroup =>
      have run := runs channelGroup
      simp only [mapError, Program.run_bind]
      rw [run, processConfig]
      rcases cm.resources.processConfig services channelGroup with ⟨later, _ | reason | _⟩
      · exact Or.inr ⟨rfl, ok_ne_panic⟩
      · exact Or.inr ⟨rfl, error_ne_panic⟩
      · exact Or.inl ⟨rfl, rfl⟩
  · exact Or.inr ⟨rfl, error_ne_panic⟩
  · rw [requestCalls, requestedGroup, alone, Transactions.validate, Transactions.prepareApply]
    cases authorizedGroup services codec cm configEnv with
    | error reason => exact Or.inr ⟨rfl, error_ne_panic⟩
    | panic => exact Or.inl ⟨rfl, rfl⟩
    | ok channelGroup =>
      have run := runs channelGroup
      simp only [mapError, Program.run_bind]
      rw [run, processConfig]
      rcases cm.resources.processConfig services channelGroup with ⟨later, _ | reason | _⟩
      · exact Or.inr ⟨rfl, ok_ne_panic⟩
      · exact Or.inr ⟨rfl, error_ne_panic⟩
      · exact Or.inl ⟨rfl, rfl⟩

variable {request : Request}

theorem wellFormed_of_requestedGroup (decodes : OrderedTrees codec) {current group : ConfigGroup}
    (holds : Current cm current)
    (requested : requestedGroup services codec cm request = .ok group) :
    Ordered group ∧ NilFree group := by
  have updated : ∃ configUpdateEnv, updatedGroup services codec cm configUpdateEnv =
          .ok group := by
    rcases request with _ | _ | _
    · rw [requestedGroup, mapError_ok_iff, bind_ok_iff] at requested
      rcases requested with ⟨configUpdateEnv, _, updated⟩
      exact ⟨configUpdateEnv, updated⟩
    · cases requested
    · rw [requestedGroup, mapError_ok_iff, authorizedGroup] at requested
      simp only [bind_ok_iff] at requested
      rcases requested with ⟨_, _, _, _, configUpdateEnv, _, _, updated, _, _, same⟩
      cases same
      exact ⟨configUpdateEnv, updated⟩
  rcases updated with ⟨configUpdateEnv, updated⟩
  rcases wellFormed_of_updatedGroup decodes holds updated with ⟨ordered, present, _⟩
  exact ⟨ordered, present⟩

/-- The setup of no provider that the requested configuration defines panics. -/
def SetsUp (services : Services MSP) (codec : Codec)
    (cm : ChannelManager MSP) (request : Request) : Prop :=
  ∀ channelGroup, requestedGroup services codec cm request = .ok channelGroup →
    ∀ config, Committed.Defines services.codec .channel channelGroup config →
      services.setup config ≠ .panic

/-- Past its authorization, a request panics in the setup of its providers only. -/
theorem alone_not_panics (quiet : SetsUp services codec cm request)
    (decodes : OrderedTrees codec) (reachable : Reachable services codec cm)
    (authorizes : requestedGroup services codec cm request ≠ .panic) :
    ¬ (alone services codec cm request).Panics := by
  rcases reachable.settled_and_kind with ⟨settled, kind⟩
  rcases reachable.exists_current decodes with ⟨_, holds⟩
  have answered := @answeredAlone_requestCalls MSP services codec cm settled request
  rcases answered with ⟨ended, _⟩ | ⟨_, answered⟩
  · rw [requestCalls] at ended
    cases requested : requestedGroup services codec cm request with
    | error reason =>
      rw [requested] at ended
      cases ended
    | panic => exact absurd requested authorizes
    | ok channelGroup =>
      rw [requested] at ended
      rcases wellFormed_of_requestedGroup decodes holds requested with ⟨ordered, present⟩
      have silent := @Committed.processConfig_ne_panic MSP services channelGroup
          cm.resources (by rw [kind]; exact quiet channelGroup requested) settled present ordered
      simp only [Program.run_bind] at ended
      rw [run_processCalls settled channelGroup] at ended
      rcases processed : cm.resources.processConfig services channelGroup with
        ⟨_, _ | reason | _⟩
      · rw [processed] at ended
        cases ended
      · rw [processed] at ended
        cases ended
      · rw [processed] at silent
        exact absurd rfl silent
  · exact answered

/-! ## Requests that do not overlap -/

/--
In every run in which a request begins to call the handlers only while no other
one is going on, each request gets the answer that it gets alone.  In particular
it does not panic, unless its authorization does or the setup of a provider that
the requested configuration defines.
-/
theorem answers_alone (decodes : OrderedTrees codec)
    (reachable : Reachable services codec cm)
    {Call : Type} [DecidableEq Call] (requests : Call → Request)
    {pool : Pool Call (Resources MSP) (Option HandlerError) Answer}
    (run : SerialRun (fun call =>
          requestCalls services codec cm (requests call))
        cm.resources pool) :
    (∀ call answer, pool.Returned (fun call =>
            requestCalls services codec cm (requests call))
          call answer →
        answer = alone services codec cm (requests call)) ∧
      (∀ call, pool.status call = .panicked →
        (alone services codec cm (requests call)).Panics) ∧
      (∀ call, requestedGroup services codec cm (requests call) ≠ .panic →
          SetsUp services codec cm (requests call) →
        pool.status call ≠ .panicked) := by
  have settled := reachable.settled
  have answered (call : Call) := @answeredAlone_requestCalls MSP services codec cm settled
      (requests call)
  have serial := serial_of_serialRun (by
      intro call _ answer ended
      rcases answered call with ⟨none, _⟩ | ⟨some, _⟩
      · rw [none] at ended
        cases ended
      · rw [some] at ended
        cases ended
        rfl) run
  have panics : ∀ call, pool.status call = .panicked →
        (alone services codec cm (requests call)).Panics := by
    intro call panicked
    have ended := serial.run_of_panicked panicked
    rcases answered call with ⟨_, panics⟩ | ⟨some, _⟩
    · exact panics
    · rw [some] at ended
      cases ended
  refine ⟨?_, panics, ?_⟩
  · intro call answer returned
    have ended := serial.run_of_returned returned
    rcases answered call with ⟨none, _⟩ | ⟨some, _⟩
    · rw [none] at ended
      cases ended
    · rw [some] at ended
      cases ended
      rfl
  · intro call authorizes quiet panicked
    exact alone_not_panics quiet decodes reachable authorizes (panics call panicked)

/-! ## Requests that overlap -/

/-- The call that opens the proposal of providers. -/
def beginAction (resources : Resources MSP) : Option (Resources MSP × Option HandlerError) :=
  match resources.beginConfig with
  | .ok later => some (later, none)
  | .error reason => some (resources, some reason)
  | .panic => none

theorem exists_requestCalls_eq {channelGroup : ConfigGroup}
    (requested : requestedGroup services codec cm request = .ok channelGroup) :
    ∃ next, requestCalls services codec cm request = .atom beginAction next := by
  rw [requestCalls, requested]
  exact ⟨_, rfl⟩

/-- The resources with the proposal of providers open. -/
def begunResources (resources : Resources MSP) : Resources MSP :=
  { resources with mspConfigHandler := ⟨some ⟨[], none⟩, resources.mspConfigHandler.manager⟩ }

section

variable {request : Request} {next : Option HandlerError → Calls MSP Answer}
  (program : requestCalls services codec cm request = .atom beginAction next)

include program

theorem step_begin (settled : cm.resources.Settled) :
    Step (fun _ : Bool => requestCalls services codec cm request)
      ⟨cm.resources, fun _ => .idle⟩ false
      (Pool.set ⟨cm.resources, fun _ => .idle⟩ false
        (begunResources cm.resources) (.running (next none))) :=
  .act (congrArg some program) (by rw [beginAction, beginConfig_of_settled settled]; rfl)

/-- A request that begins right after another one panics. -/
theorem exists_overlap (settled : cm.resources.Settled) :
    ∃ pool : Pool Bool (Resources MSP) (Option HandlerError) Answer,
      Run (fun _ => requestCalls services codec cm request) cm.resources pool ∧
        pool.status true = .panicked := by
  let begun : Pool Bool (Resources MSP) (Option HandlerError) Answer :=
    Pool.set ⟨cm.resources, fun _ => .idle⟩ false
      (begunResources cm.resources) (.running (next none))
  have idle : begun.status true = .idle := Pool.status_set_of_ne _ (by decide) _ _
  have here : begun.rest (fun _ => requestCalls services codec cm request) true =
        some (.atom beginAction next) := by
    rw [Pool.rest, idle, program]
  have panics : Step (fun _ => requestCalls services codec cm request) begun
        true (begun.set true begun.shared .panicked) :=
    .panics here rfl
  exact ⟨_, (Run.start.step (step_begin program settled)).step panics, Pool.status_set_self _ _ _ _⟩

end

end

section

open ConfigTx.Transactions.Sample

theorem Sample.exists_proposeConfigUpdate :
    ∃ (cm : ChannelManager Unit) (channelGroup : ConfigGroup) (configEnv : ConfigEnvelope),
      Reachable services (codec .nil update) cm ∧
        requestedGroup services (codec .nil update) cm (.propose (some configtx)) =
          .ok channelGroup ∧
        (proposeConfigUpdate services (codec .nil update) cm (some configtx)).2 =
          .ok configEnv := by
  have evaluated : ∃ cm, newManagerImpl (handlers services) (codec .nil update)
        newResources (some ⟨none, none⟩) = .ok cm ∧ (∃ channelGroup,
          requestedGroup services (codec .nil update) cm (.propose (some configtx)) =
            .ok channelGroup ∧ True) ∧ ∃ configEnv,
          (proposeConfigUpdate services (codec .nil update) cm (some configtx)).2 =
            .ok configEnv ∧ True := by
    decide +kernel
  rcases evaluated with ⟨cm, made, ⟨channelGroup, requested, _⟩, configEnv, proposed, _⟩
  exact ⟨cm, channelGroup, configEnv, .new made, requested, proposed⟩

/--
Two clients propose the same update.  Each proposal is accepted alone; the one
that begins while the other is going on panics.
-/
theorem overlapping_call_panics :
    ∃ (update : ConfigUpdate) (cm : ChannelManager Unit)
      (pool : Pool Bool (Resources Unit) (Option HandlerError) Answer),
      Reachable services (codec .nil update) cm ∧
        Run (fun _ => requestCalls services (codec .nil update) cm
            (.propose (some configtx))) cm.resources pool ∧
        pool.status true = .panicked ∧
        ¬ (alone services (codec .nil update) cm (.propose (some configtx))).Panics := by
  rcases Sample.exists_proposeConfigUpdate with ⟨cm, _, _, reachable, requested, proposed⟩
  rcases exists_requestCalls_eq requested with ⟨_, program⟩
  rcases exists_overlap program reachable.settled with ⟨pool, run, panicked⟩
  refine ⟨update, cm, pool, reachable, run, panicked, ?_⟩
  rw [alone, proposed]
  exact ok_ne_panic

/-- One of two clients gets its answer before the other one begins. -/
theorem answers_alone_sample :
    ∃ (cm : ChannelManager Unit) (configEnv : ConfigEnvelope)
      (pool : Pool Bool (Resources Unit) (Option HandlerError) Answer),
      Reachable services (codec .nil update) cm ∧
        SerialRun (fun _ => requestCalls services (codec .nil update) cm
            (.propose (some configtx))) cm.resources pool ∧
        pool.Returned (fun _ => requestCalls services (codec .nil update) cm
            (.propose (some configtx))) false (.proposed (.ok configEnv)) ∧
        ∀ call, pool.status call ≠ .panicked := by
  rcases Sample.exists_proposeConfigUpdate with ⟨cm, _, configEnv, reachable, requested, proposed⟩
  have answered := @answeredAlone_requestCalls Unit services (codec .nil update) cm
      reachable.settled (.propose (some configtx))
  rw [alone, proposed] at answered
  rcases answered with ⟨_, panics⟩ | ⟨ended, _⟩
  · exact absurd panics ok_ne_panic
  · have idle : Pool.rest (fun _ : Bool => requestCalls services (codec .nil update) cm
            (.propose (some configtx))) ⟨cm.resources, fun _ => .idle⟩ false = some _ :=
      rfl
    rcases SerialRun.start.exists_returned _ idle (by
        rintro _ _ (panicked | ⟨_, _, running⟩)
        · cases panicked
        · cases running) ended with ⟨pool, run, returned⟩
    refine ⟨cm, configEnv, pool, reachable, run, returned, ?_⟩
    intro call
    apply (answers_alone orderedTrees_nil reachable (fun _ => .propose (some configtx)) run).2.2
    · rw [requested]
      exact ok_ne_panic
    · intro _ _ _ _
      exact ok_ne_panic

end

end Fabric.ConfigTx.OverlappingCalls
