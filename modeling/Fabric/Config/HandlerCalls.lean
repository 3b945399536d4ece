import Fabric.Config.Committed
import Fabric.Library.Interleaving
import Fabric.Library.Paths

/-!
# The calls of the handlers

A configuration is proposed by calls of the handlers and managers of its groups,
each of which locks the one that it is made to.  Between two of them other calls
may be made, so this module gives the proposal as a program of atomic calls on
the resources of a channel, with the handlers found by the paths of their groups.

The source keys open proposals by a transaction handle.  A result that is created
for a new configuration leaves it nil and passes it on to the groups below, so
that all proposals use the same key, and a handler has one open proposal at most.

Run alone, the program does what `Resources.processConfig` and the rollback after
it do.
-/

namespace Fabric.Config.HandlerCalls

open Library Outcome ByteString Interleaving Paths Protos GroupValues Config.Policies Proposals
  Committed ConfigTx.Elements Children

/-! ## The handlers of the groups below -/

variable {key : GoString}

variable {proposer inner : Proposer}

theorem setGroup_setGroup (found : proposer.group key = some inner) (first second : Proposer) :
    (proposer.setGroup key first).setGroup key second = proposer.setGroup key second := by
  rcases proposer with ⟨_, _, groups, _ | ⟨_, _, _⟩⟩
  · simp [Proposer.setGroup]
  · cases here : groups key with
    | none | some group => simp [Proposer.setGroup, here]

theorem setGroup_self (found : proposer.group key = some inner) :
    proposer.setGroup key inner = proposer := by
  rcases proposer with ⟨_, _, groups, _ | ⟨_, _, _⟩⟩
  · rw [Proposer.group] at found
    simp [Proposer.setGroup, ← found]
  · rw [Proposer.group] at found
    cases here : groups key with
    | none =>
      rw [here, Option.none_or] at found
      simp [Proposer.setGroup, here, ← found]
    | some group =>
      rw [here, Option.some_or] at found
      simp [Proposer.setGroup, here, ← found]

def valueGroups : Children GoString Proposer where
  child := Proposer.group
  setChild key inner proposer := proposer.setGroup key inner
  child_setChild := Proposer.group_setGroup_self
  setChild_setChild := setGroup_setGroup

variable {MSP : Type}

section

theorem setPendingManager_setPendingManager (key : GoString) (first second manager : Manager MSP) :
    setPendingManager key second (setPendingManager key first manager) =
      setPendingManager key second manager := by
  rcases manager with ⟨_, _, _ | ⟨_, _⟩⟩
  · rfl
  · simp only [setPendingManager, List.map_map]
    congr 2
    apply List.map_congr_left
    intro entry _
    by_cases same : entry.1 = key
    · simp [same]
    · simp [same]

def policyManagers : Children GoString (Manager MSP) where
  child := pendingManager
  setChild := setPendingManager
  child_setChild := setPendingManager_self
  setChild_setChild _ first second := setPendingManager_setPendingManager _ first second _

end

/-! ## Calls -/

section

variable (services : Services MSP)

/-- A program of calls of the handlers of a channel. -/
abbrev Calls (MSP Result : Type) :=
  Program (Resources MSP) (Option HandlerError) Result

/-- A call; one that returns an error leaves the handlers as they are. -/
def call (act : Resources MSP → Outcome HandlerError (Resources MSP)) :
    Calls MSP (Option HandlerError) :=
  Program.perform fun resources =>
    match act resources with
    | .ok later => some (later, none)
    | .error reason => some (resources, some reason)
    | .panic => none

section

variable (path : List GoString)

def updateValues (update : Proposer → Proposer) (resources : Resources MSP) : Resources MSP :=
  { resources with channel := valueGroups.updateAt update path resources.channel }

def updatePolicies (update : Manager MSP → Manager MSP) (resources : Resources MSP) :
    Resources MSP :=
  { resources with
    policyManager :=
      policyManagers.updateAt update path resources.policyManager }

def callValues (act : Proposer → Outcome ValueError Proposer) : Calls MSP (Option HandlerError) :=
  call fun resources => do
    let proposer ← deref (valueGroups.nodeAt path resources.channel)
    let later ← (act proposer).mapError .value
    .ok (updateValues path (fun _ => later) resources)

def callPolicies (act : Manager MSP → Outcome PolicyError (Manager MSP)) :
    Calls MSP (Option HandlerError) :=
  call fun resources => do
    let manager ← deref (policyManagers.nodeAt path resources.policyManager)
    let later ← (act manager).mapError .policy
    .ok (updatePolicies path (fun _ => later) resources)

end

mutual

/--
Abandon the proposals of a group and of those below it.  A handler that was made
for a proposal may be gone with that proposal.
-/
def rollbackCalls : ConfigResult → List GoString → Calls MSP Unit
  | .mk subResults, path => do
      rollbackSubCalls subResults path
      let _ ← call fun resources => .ok (updateValues path Proposer.rollbackProposals resources)
      let _ ← call fun resources => .ok (updatePolicies path Manager.rollbackProposals resources)
      pure ()

def rollbackSubCalls : SubResults → List GoString → Calls MSP Unit
  | [], _ => pure ()
  | (key, result) :: rest, path => do
      rollbackCalls result (path ++ [key])
      rollbackSubCalls rest path

end

/-- Decode the values of a group, up to the first that is refused. -/
def deserializeCalls (path : List GoString) :
    Entries ConfigValue → Calls MSP (Option HandlerError)
  | [] => pure none
  | entry :: rest => do
      match ← callValues path (Proposer.loadValues services.codec [entry]) with
      | some reason => pure (some reason)
      | none => deserializeCalls path rest

/-- Propose the policies of a group, up to the first that is refused. -/
def proposePolicyCalls (path : List GoString) :
    Entries ConfigPolicy → Calls MSP (Option HandlerError)
  | [] => pure none
  | entry :: rest => do
      match ← callPolicies path (Manager.proposePolicy services.toProviders entry.1 entry.2) with
      | some reason => pure (some reason)
      | none => proposePolicyCalls path rest

/-- Propose the values and the policies of a group itself. -/
def loadCalls (path : List GoString) (values : Entries ConfigValue)
    (policies : Entries ConfigPolicy) :
    Calls MSP (Option HandlerError) := do
  match ← deserializeCalls services path values with
  | some reason => pure (some reason)
  | none => proposePolicyCalls services path policies

/-- The calls that open a proposal. -/
def beginCalls (path : List GoString) (names : List GoString) :
    Calls MSP (Option HandlerError) := do
  match ← callValues path (Proposer.beginValueProposals names) with
  | some reason => pure (some reason)
  | none => callPolicies path (Manager.beginPolicyProposals names)

mutual

/-- The calls that propose a group. -/
def proposeGroupCalls : ConfigGroup → List GoString → Calls MSP (ConfigResult × Option HandlerError)
  | .mk _ groups values policies _, path => do
      match ← beginCalls path (entryKeys (groupEntries groups)) with
      | some reason => pure (.mk [], some reason)
      | none =>
        match ← loadCalls services path values policies with
        | some reason => do
            rollbackCalls (.mk []) path
            pure (.mk [], some reason)
        | none => do
            let (result, failed) ← proposeGroupsCalls groups path []
            match failed with
            | none => pure (result, none)
            | some reason => do
                rollbackCalls result path
                pure (result, some reason)

def proposeGroupsCalls :
    ConfigGroups → List GoString → SubResults →
      Calls MSP (ConfigResult × Option HandlerError)
  | .nil, _, done => pure (.mk done, none)
  | .absent _ _, _, done => do
      let _ ← call fun _ => .panic
      pure (.mk done, none)
  | .present key group rest, path, done => do
      let (result, failed) ← proposeGroupCalls group (path ++ [key])
      match failed with
      | none => proposeGroupsCalls rest path (done ++ [(key, result)])
      | some reason => pure (.mk (done ++ [(key, result)]), some reason)

end

/-- Check the values of a group with the providers that are proposed. -/
def preCommitCall (path : List GoString) : Calls MSP (Option HandlerError) :=
  call fun resources => do
    let store ← deref resources.mspConfigHandler.pending
    let proposer ← deref (valueGroups.nodeAt path resources.channel)
    let (store, proposer) ← (proposer.preCommit services store).mapError .value
    let checked := updateValues path (fun _ => proposer) resources
    .ok
      { checked with mspConfigHandler := { checked.mspConfigHandler with pending := some store } }

mutual

/-- Check the proposed values, up to the first that are refused. -/
def preCommitCalls : ConfigResult → List GoString → Calls MSP (Option HandlerError)
  | .mk subResults, path => do
      match ← preCommitSubCalls subResults path with
      | some reason => pure (some reason)
      | none => preCommitCall services path

def preCommitSubCalls : SubResults → List GoString →
    Calls MSP (Option HandlerError)
  | [], _ => pure none
  | (key, result) :: rest, path => do
      match ← preCommitCalls result (path ++ [key]) with
      | some reason => pure (some reason)
      | none => preCommitSubCalls rest path

end

/-- Make the manager of the providers that are proposed. -/
def rootPreCommitCall : Calls MSP (Option HandlerError) :=
  call fun resources => do
    let store ← deref resources.mspConfigHandler.pending
    .ok
      { resources with
        mspConfigHandler := { resources.mspConfigHandler with pending := some store.preCommit } }

/-- The calls that roll a proposal back. -/
def rootRollbackCalls (result : ConfigResult) : Calls MSP Unit := do
  rollbackCalls result []
  let _ ← call fun resources =>
      .ok
        { resources with mspConfigHandler := { resources.mspConfigHandler with pending := none } }
  pure ()

/-- Propose a configuration, check it and abandon it. -/
def processCalls (channelGroup : ConfigGroup) : Calls MSP (Option HandlerError) := do
  match ← call Resources.beginConfig with
  | some reason => pure (some reason)
  | none =>
    let (result, failed) ← proposeGroupCalls services channelGroup []
    match failed with
    | some reason => do
        rootRollbackCalls result
        pure (some reason)
    | none =>
      match ← preCommitCalls services result [] with
      | some reason => do
          rootRollbackCalls result
          pure (some reason)
      | none => do
          let _ ← rootPreCommitCall
          rootRollbackCalls result
          pure none

end

/-! ## Calls that are made alone -/

section

variable {services : Services MSP} {resources : Resources MSP}
  {path : List GoString}

theorem run_call (act : Resources MSP → Outcome HandlerError (Resources MSP)) :
    (call act).run resources =
      match act resources with
      | .ok later => some (later, none)
      | .error reason => some (resources, some reason)
      | .panic => none :=
  Program.run_perform _ _

variable {proposer : Proposer}

theorem run_callValues (found : valueGroups.nodeAt path resources.channel = some proposer)
    (act : Proposer → Outcome ValueError Proposer) : (callValues path act).run resources =
      match act proposer with
      | .ok later => some (updateValues path (fun _ => later) resources, none)
      | .error reason => some (resources, some (.value reason))
      | .panic => none := by
  rw [callValues, run_call, found]
  simp only [deref, ok_bind]
  cases act proposer with
  | ok later | error reason | panic => rfl

theorem run_callPolicies {manager : Manager MSP}
    (found : policyManagers.nodeAt path resources.policyManager = some manager)
    (act : Manager MSP → Outcome PolicyError (Manager MSP)) :
    (callPolicies path act).run resources =
      match act manager with
      | .ok later => some (updatePolicies path (fun _ => later) resources, none)
      | .error reason => some (resources, some (.policy reason))
      | .panic => none := by
  rw [callPolicies, run_call, found]
  simp only [deref, ok_bind]
  cases act manager with
  | ok later | error reason | panic => rfl

/-- Two channels differ in handlers of values and in proposals of policies. -/
structure Kept (first later : Resources MSP) : Prop where
  policies : SamePolicies first.policyManager later.policyManager
  mspConfigHandler : later.mspConfigHandler = first.mspConfigHandler

theorem Kept.refl (resources : Resources MSP) : Kept resources resources :=
  ⟨⟨rfl, rfl⟩, rfl⟩

theorem Kept.trans {first middle later : Resources MSP} (left : Kept first middle)
    (right : Kept middle later) : Kept first later :=
  ⟨left.policies.trans right.policies, right.mspConfigHandler.trans left.mspConfigHandler⟩

variable {update : Manager MSP → Manager MSP}

theorem samePolicies_updateAt {manager inner : Manager MSP}
    (found : policyManagers.nodeAt path manager = some inner)
    (same : SamePolicies inner (update inner)) :
    SamePolicies manager (policyManagers.updateAt update path manager) := by
  cases path with
  | nil =>
    cases found
    exact same
  | cons key path =>
    rw [nodeAt, Option.bind_eq_some_iff] at found
    rcases found with ⟨_, here, _⟩
    rw [updateAt_of_child here]
    exact samePolicies_setPending key _ manager

theorem kept_updatePolicies (same : ∀ manager, SamePolicies manager (update manager))
    (path : List GoString) (resources : Resources MSP) :
    Kept resources (updatePolicies path update resources) := by
  refine ⟨?_, rfl⟩
  cases path with
  | nil => exact same resources.policyManager
  | cons key path =>
    show SamePolicies _ (policyManagers.updateAt update (key :: path) _)
    cases here : policyManagers.child key resources.policyManager with
    | none =>
      rw [updateAt_of_no_child here]
      exact ⟨rfl, rfl⟩
    | some _ =>
      rw [updateAt_of_child here]
      exact samePolicies_setPending key _ _

/-- The resources that a rollback of a group leads to. -/
structure RolledBack (update : Proposer → Proposer) (path : List GoString)
    (first later : Resources MSP) : Prop where
  channel : later.channel = valueGroups.updateAt update path first.channel
  kept : Kept first later

theorem updateAt_self (path : List GoString) :
    valueGroups.updateAt (fun inner => inner) path proposer = proposer := by
  induction path generalizing proposer with
  | nil => rfl
  | cons key path ih =>
    cases here : valueGroups.child key proposer with
    | none => rw [updateAt_of_no_child here]
    | some inner =>
      rw [updateAt_of_child here, ih]
      exact setGroup_self here

variable {middle later : Resources MSP}

theorem RolledBack.trans {first second : Proposer → Proposer}
    (left : RolledBack first path resources middle) (right : RolledBack second path middle later) :
    RolledBack (fun proposer => second (first proposer)) path resources later where
  channel := by
    rw [right.channel, left.channel, updateAt_updateAt]
  kept := left.kept.trans right.kept

mutual

theorem run_rollbackCalls :
    ∀ (result : ConfigResult) (path : List GoString) (resources : Resources MSP),
      ∃ later, (rollbackCalls result path).run resources = some (later, ()) ∧
        RolledBack (rollbackValues result) path resources later
  | .mk subResults, path, resources => by
    rcases run_rollbackSubCalls subResults path resources with ⟨middle, runs, rolledBack⟩
    let values := updateValues path Proposer.rollbackProposals middle
    have last : RolledBack Proposer.rollbackProposals path middle
          (updatePolicies path Manager.rollbackProposals values) :=
      ⟨rfl, (⟨⟨rfl, rfl⟩, rfl⟩ : Kept middle values).trans
          (kept_updatePolicies (fun ⟨_, _, _⟩ => ⟨rfl, rfl⟩) path values)⟩
    refine ⟨_, ?_, rolledBack.trans last⟩
    rw [rollbackCalls, Program.run_bind, runs]
    rfl

theorem run_rollbackSubCalls :
    ∀ (subResults : SubResults) (path : List GoString)
      (resources : Resources MSP),
      ∃ later, (rollbackSubCalls subResults path).run resources = some (later, ()) ∧
          RolledBack (rollbackSubValues subResults) path resources later
  | [], path, resources => ⟨resources, rfl, (updateAt_self path).symm, Kept.refl resources⟩
  | (key, result) :: rest, path, resources => by
    rcases run_rollbackCalls result (path ++ [key]) resources with ⟨middle, first, rolledBack⟩
    rcases run_rollbackSubCalls rest path middle with ⟨later, second, others⟩
    have below : RolledBack (valueGroups.updateAt (rollbackValues result) [key]) path
          resources middle :=
      ⟨rolledBack.channel.trans (updateAt_append _ path key _), rolledBack.kept⟩
    have both : rollbackSubValues ((key, result) :: rest) = fun proposer =>
            rollbackSubValues rest (valueGroups.updateAt (rollbackValues result) [key]
                proposer) := by
      ext1 proposer
      rw [rollbackSubValues]
      cases here : proposer.group key with
      | none => rw [updateAt_of_no_child here]
      | some group => rw [updateAt_of_child here]; rfl
    refine ⟨later, ?_, ?_⟩
    · rw [rollbackSubCalls, Program.run_bind, first]
      exact second
    · rw [both]
      exact below.trans others

end

/-! ## Proposals that are made alone -/

/-- The handler and the manager of the group at the end of a path. -/
structure At (resources : Resources MSP) (path : List GoString) (handler : Handler MSP) : Prop where
  values : valueGroups.nodeAt path resources.channel = some handler.values
  policies : policyManagers.nodeAt path resources.policyManager = some handler.policies

def put (path : List GoString) (handler : Handler MSP)
    (resources : Resources MSP) : Resources MSP :=
  updatePolicies path (fun _ => handler.policies)
    (updateValues path (fun _ => handler.values) resources)

variable {first handler : Handler MSP}

theorem At.put (there : At resources path first) (handler : Handler MSP) :
    At (put path handler resources) path handler where
  values := nodeAt_updateAt there.values _
  policies := nodeAt_updateAt there.policies _

theorem Kept.put (there : At resources path first)
    (same : SamePolicies first.policies handler.policies) :
    Kept resources (put path handler resources) :=
  ⟨samePolicies_updateAt there.policies same, rfl⟩

variable {inner : Handler MSP}

theorem At.sub (there : At resources path handler) (found : handler.sub key = some inner) :
    At resources (path ++ [key]) inner := by
  rw [Handler.sub_eq_some_iff] at found
  constructor
  · rw [nodeAt_append, there.values]
    exact found.1
  · rw [nodeAt_append, there.policies]
    exact found.2

theorem put_setSub (found : handler.sub key = some inner) (later : Handler MSP) :
    put (path ++ [key]) later (put path handler resources) =
      put path (handler.setSub key later) resources := by
  rw [Handler.sub_eq_some_iff] at found
  have values : valueGroups.updateAt (fun _ => later.values) [key] handler.values =
        handler.values.setGroup key later.values :=
    updateAt_of_child found.1 _ []
  have policies : policyManagers.updateAt (fun _ => later.policies) [key] handler.policies =
        setPendingManager key later.policies handler.policies :=
    updateAt_of_child found.2 _ []
  simp only [put, updateValues, updatePolicies, updateAt_append,
    updateAt_updateAt, values, policies, Handler.setSub]

/-! ## The values and the policies of a group -/

/--
How calls of the handlers of one group end.  What an error leaves behind in the
proposal is dropped by the rollback that follows it.
-/
def Ends (outcome : Outcome HandlerError (Handler MSP)) (path : List GoString)
    (handler : Handler MSP) (resources : Resources MSP)
    (ended : Option (Resources MSP × Option HandlerError)) : Prop :=
  match outcome with
  | .ok later => ended = some (put path later resources, none)
  | .error reason =>
    ∃ later : Handler MSP, ended = some (put path later resources, some reason) ∧
        later.values.rollbackProposals = handler.values.rollbackProposals ∧
        SamePolicies handler.policies later.policies
  | .panic => ended = none

variable {ended : Option (Resources MSP × Option HandlerError)}

theorem Ends.resume {outcome : Outcome HandlerError (Handler MSP)} {middle : Handler MSP}
    (ends : Ends outcome path middle resources ended)
    (restored : middle.values.rollbackProposals = handler.values.rollbackProposals)
    (same : SamePolicies handler.policies middle.policies) :
    Ends outcome path handler resources ended := by
  rcases outcome with _ | _ | _
  · exact ends
  · rcases ends with ⟨last, ended, dropped, policies⟩
    exact ⟨last, ended, dropped.trans restored, same.trans policies⟩
  · exact ends

variable {codec : ValueCodec}

theorem loadValues_cons (pending : proposer.pending ≠ .none)
    (entry : GoString × Option ConfigValue) (rest : Entries ConfigValue) :
    proposer.loadValues codec (entry :: rest) = proposer.loadValues codec [entry] >>= fun later =>
        later.loadValues codec rest := by
  rcases proposer with ⟨_, _, _, _ | ⟨allocated, _, _⟩⟩
  · exact absurd rfl pending
  · simp only [Proposer.loadValues, deserializeAll, List.foldlM_cons, List.foldlM_nil]
    cases entry.2 with
    | none => rfl
    | some value =>
      simp only [deref_some, ok_bind]
      cases allocated.deserialize codec entry.1 value.value with
      | ok _ | error _ | panic => rfl

theorem kept_of_loadValues {entries : Entries ConfigValue}
    {proposer later : Proposer} (loaded : proposer.loadValues codec entries = .ok later) :
    later.pending ≠ .none ∧ later.rollbackProposals = proposer.rollbackProposals := by
  rcases revalues_loadValues loaded with ⟨_, _, revalues, _⟩
  refine ⟨revalues.pending.2, ?_⟩
  cases revalues
  rfl

theorem ends_deserializeCalls (there : At resources path first) (manager : Manager MSP) :
    ∀ (entries : Entries ConfigValue) {proposer : Proposer},
      proposer.pending ≠ .none →
      Ends ((proposer.loadValues services.codec entries).mapError .value >>=
          fun later => .ok ⟨later, manager⟩)
        path ⟨proposer, manager⟩ resources
        ((deserializeCalls services path entries).run (put path ⟨proposer, manager⟩ resources))
  | [], proposer, pending => by
    rcases proposer with ⟨_, _, _, _ | _⟩
    · exact absurd rfl pending
    · rfl
  | entry :: rest, proposer, pending => by
    rw [deserializeCalls, Program.run_bind, run_callValues (there.put ⟨proposer, manager⟩).values,
      loadValues_cons pending]
    cases loaded : proposer.loadValues services.codec [entry] with
    | ok later =>
      rcases kept_of_loadValues loaded with ⟨pending, same⟩
      have ih := ends_deserializeCalls there manager rest pending
      simp only [ok_bind, Option.bind_some, put, updateValues, updatePolicies, updateAt_updateAt]
      exact ih.resume same ⟨rfl, rfl⟩
    | error _ => exact ⟨⟨proposer, manager⟩, rfl, rfl, rfl, rfl⟩
    | panic => rfl

theorem ends_proposePolicyCalls (there : At resources path first) (proposer : Proposer) :
    ∀ (entries : Entries ConfigPolicy) (manager : Manager MSP), Ends
        ((loadPolicies services entries manager).mapError .policy >>=
          fun later => .ok ⟨proposer, later⟩)
        path ⟨proposer, manager⟩ resources
        ((proposePolicyCalls services path entries).run (put path ⟨proposer, manager⟩ resources))
  | [], manager => rfl
  | entry :: rest, manager => by
    rw [proposePolicyCalls, Program.run_bind,
      run_callPolicies (there.put ⟨proposer, manager⟩).policies, loadPolicies, List.foldlM_cons]
    cases proposed : manager.proposePolicy services.toProviders entry.1 entry.2 with
    | ok later =>
      have same := (proposePolicy_ok proposed).1
      have ih := ends_proposePolicyCalls there proposer rest later
      simp only [ok_bind, Option.bind_some, put, updatePolicies, updateAt_updateAt]
      exact ih.resume rfl same
    | error _ => exact ⟨⟨proposer, manager⟩, rfl, rfl, rfl, rfl⟩
    | panic => rfl

theorem ends_loadCalls (there : At resources path first) (pending : handler.values.pending ≠ .none)
    (values : Entries ConfigValue)
    (policies : Entries ConfigPolicy) :
    Ends (handler.load services values policies) path handler resources
      ((loadCalls services path values policies).run (put path handler resources)) := by
  rcases handler with ⟨proposer, manager⟩
  have decoded := @ends_deserializeCalls MSP services resources path first there manager
      values proposer pending
  rw [loadCalls, Program.run_bind, Handler.load]
  generalize loaded : proposer.loadValues services.codec values = loads at decoded
  rcases loads with later | _ | _
  · rw [show _ = _ from decoded]
    have proposed := @ends_proposePolicyCalls MSP services resources path first there later
        policies manager
    exact proposed.resume (kept_of_loadValues loaded).2 ⟨rfl, rfl⟩
  · rcases decoded with ⟨last, ended, restored, policies⟩
    rw [ended]
    exact ⟨last, rfl, restored, policies⟩
  · rw [show _ = _ from decoded]
    rfl

theorem run_beginCalls (there : At resources path handler) (names : List GoString) :
    (beginCalls path names).run resources =
      match handler.begin names with
      | .ok begun => some (put path begun resources, none)
      | .error reason => some (resources, some reason)
      | .panic => none := by
  rcases handler with ⟨proposer, manager⟩
  rw [beginCalls, Program.run_bind, run_callValues there.values, Handler.begin]
  cases proposer.beginValueProposals names with
  | ok later =>
    have found : policyManagers.nodeAt path
            (updateValues path (fun _ => later) resources).policyManager =
          some manager :=
      there.policies
    simp only [Option.bind_some]
    rw [run_callPolicies found]
    rcases manager with ⟨policies, _, _ | _⟩
    · rfl
    · rfl
  | error reason | panic => rfl

/-! ## Groups and the groups below them -/

/-- How the calls that propose a group end. -/
def Proceeds (proposed : Proposed MSP) (path : List GoString) (resources : Resources MSP)
    (ended : Option (Resources MSP × ConfigResult × Option HandlerError)) : Prop :=
  match proposed.outcome with
  | .ok _ => ended = some (put path proposed.handler resources, proposed.result, none)
  | .error reason =>
    ∃ later, ended = some (later, proposed.result, some reason) ∧
        later.channel = (put path proposed.handler resources).channel ∧
        Kept resources later
  | .panic => ended = none

theorem channel_put_self (there : At resources path handler) :
    (put path handler resources).channel = resources.channel := by
  have same : valueGroups.updateAt (fun _ => handler.values) path resources.channel =
        valueGroups.updateAt (fun inner => inner) path resources.channel :=
    updateAt_congr there.values rfl
  exact same.trans (updateAt_self path)

theorem RolledBack.channel_put {update : Proposer → Proposer}
    (rolledBack : RolledBack update path middle later)
    (same : middle.channel = (put path handler resources).channel) {last : Handler MSP}
    (restored : last.values = update handler.values) :
    later.channel = (put path last resources).channel := by
  rw [rolledBack.channel, same]
  show valueGroups.updateAt update path (valueGroups.updateAt (fun _ => handler.values) path
          resources.channel) =
      valueGroups.updateAt (fun _ => last.values) path resources.channel
  rw [updateAt_updateAt, restored]

theorem begin_ok {names : List GoString} {begun : Handler MSP}
    (opened : handler.begin names = .ok begun) :
    begun.values.pending ≠ .none ∧ SamePolicies handler.policies begun.policies := by
  rcases begun with ⟨_, _⟩
  rcases Handler.of_begin opened with ⟨openedValues, openedPolicies⟩
  refine ⟨?_, (samePolicies_beginPolicyProposals openedPolicies).1⟩
  rcases beginValueProposals_ok openedValues with ⟨_, _, _, _, _, _, rfl⟩
  simp [Proposer.pending]

mutual

/-- Run alone, the calls for a group do what `proposeGroup` does. -/
theorem proceeds_proposeGroupCalls :
    ∀ (group : ConfigGroup) {resources : Resources MSP}
      {path : List GoString} {handler : Handler MSP},
      At resources path handler →
        Proceeds (proposeGroup services group handler) path resources
          ((proposeGroupCalls services group path).run resources)
  | .mk _ groups values policies _, resources, path, handler, there => by
    rw [proposeGroupCalls, Program.run_bind, run_beginCalls there, proposeGroup]
    cases opened : handler.begin (entryKeys (groupEntries groups)) with
    | error reason => exact ⟨resources, rfl, (channel_put_self there).symm, Kept.refl _⟩
    | panic => rfl
    | ok begun =>
      rcases begin_ok opened with ⟨pending, same⟩
      have loads := @ends_loadCalls MSP services resources path handler begun
          there pending values policies
      simp only [Option.bind_some, Program.run_bind]
      generalize loaded : begun.load services values policies = ended at loads
      rcases ended with loaded' | _ | _
      · rw [show _ = _ from loads]
        rcases Handler.of_load loaded with ⟨_, accepted⟩
        have proposes := proceeds_proposeGroupsCalls groups [] there
            (same.trans (loadPolicies_ok accepted).1) (by
              intro key member
              rw [sub_load loaded]
              exact exists_sub_of_begin opened key member)
        simp only [Option.bind_some, Program.run_bind]
        generalize proposeGroups services groups loaded' [] = proposed at proposes
        rcases proposed with ⟨_, result, _ | reason | _⟩
        · rw [show _ = _ from proposes]
          rfl
        · rcases proposes with ⟨later, ended, channel, kept⟩
          rcases run_rollbackCalls result path later with ⟨last, runs, rolledBack⟩
          refine ⟨last, ?_, rolledBack.channel_put channel rfl, kept.trans rolledBack.kept⟩
          rw [ended]
          simp only [Option.bind_some, Program.run_bind, runs, Program.run_pure]
        · rw [show _ = _ from proposes]
          rfl
      · rcases loads with ⟨later, ended, restored, policies⟩
        rcases run_rollbackCalls (.mk []) path (put path later resources) with
          ⟨last, runs, rolledBack⟩
        have kept := Kept.put there (same.trans policies)
        refine ⟨last, ?_, rolledBack.channel_put rfl restored.symm, kept.trans rolledBack.kept⟩
        rw [ended]
        simp only [Option.bind_some, Program.run_bind, runs, Program.run_pure]
      · rw [show _ = _ from loads]
        rfl

theorem proceeds_proposeGroupsCalls :
    ∀ (groups : ConfigGroups) {resources : Resources MSP}
      {path : List GoString} {first handler : Handler MSP}
      (done : SubResults),
      At resources path first → SamePolicies first.policies handler.policies →
        (∀ key ∈ entryKeys (groupEntries groups), ∃ inner, handler.sub key = some inner) →
        Proceeds (proposeGroups services groups handler done) path resources
          ((proposeGroupsCalls services groups path done).run
            (put path handler resources))
  | .nil, _, _, _, _, _, _, _, _ => rfl
  | .absent _ _, _, _, _, _, _, _, _, _ => rfl
  | .present key group rest, resources, path, first, handler, done, there,
    same, present => by
      rcases present key List.mem_cons_self with ⟨inner, found⟩
      have proposes := proceeds_proposeGroupCalls group ((there.put handler).sub found)
      rw [proposeGroupsCalls, Program.run_bind, proposeGroups, found]
      dsimp only
      generalize proposeGroup services group inner = proposed at proposes
      rcases proposed with ⟨later, _, _ | _ | _⟩
      · rw [show _ = _ from proposes, put_setSub found]
        apply proceeds_proposeGroupsCalls rest _ there
        · exact same.trans (samePolicies_setPending _ _ _)
        · intro other member
          by_cases equal : other = key
          · subst equal
            exact ⟨_, Handler.sub_setSub_self found later⟩
          · rw [Handler.sub_setSub_of_ne equal]
            exact present other (List.mem_cons_of_mem _ member)
      · rcases proposes with ⟨last, ended, channel, kept⟩
        rw [ended]
        refine ⟨last, rfl, ?_, (Kept.put there same).trans kept⟩
        rw [channel, put_setSub found]
      · rw [show _ = _ from proposes]
        rfl

end

/-! ## Checking a proposal -/

/--
The handlers of the groups that a result lists differ in the values of their open
proposals.
-/
inductive Touched : ConfigResult → Proposer → Proposer → Prop where
  | refl (result : ConfigResult) (proposer : Proposer) : Touched result proposer proposer
  | checked {result : ConfigResult} {kind : Kind} {committed : Option Values}
      {groups created : GoString → Option Proposer}
      {allocated values : Values} {names : List GoString} :
      Touched result (.mk kind committed groups (.begun allocated names created))
        (.mk kind committed groups (.begun values names created))
  | group {subResults : SubResults} {key : GoString}
      {result : ConfigResult} {proposer inner later : Proposer}
      (member : (key, result) ∈ subResults)
      (found : proposer.group key = some inner)
      (below : Touched result inner later) :
      Touched (.mk subResults) proposer (proposer.setGroup key later)
  | trans {result : ConfigResult} {first middle later : Proposer}
      (left : Touched result first middle)
      (right : Touched result middle later) : Touched result first later

variable {result : ConfigResult}

theorem Touched.eq_of_settled {proposer later : Proposer}
    (touched : Touched result proposer later) (settled : Settled proposer) :
    later = proposer := by
  induction touched with
  | refl result proposer => rfl
  | checked => cases settled
  | group _ found _ ih =>
    rw [ih ?_]
    · exact setGroup_self found
    · cases settled with
      | mk _ inner => exact inner _ _ found
  | trans _ _ leftSame rightSame =>
    have same := leftSame settled
    subst same
    exact rightSame settled

theorem Begun.touched {before proposer later : Proposer} (touched : Touched result proposer later)
    (begun : Begun result before proposer) : Begun result before later := by
  induction touched generalizing before with
  | refl => exact begun
  | checked => exact begun.revalue .mk
  | @group subResults key result proposer inner later member found below
      ih =>
      by_cases pending : proposer.pending = .none
      · cases begun with
        | closed settled =>
          have same := (Touched.group member found below).eq_of_settled settled
          rw [same]
          exact .closed settled
        | opened => cases pending
      · apply begun.setGroup pending member
        intro group source
        exact ih (begun.sub pending member source found)
  | trans _ _ leftKeeps rightKeeps => exact rightKeeps (leftKeeps begun)

def check (path : List GoString) (later : Proposer)
    (store : MSPConfigStore MSP) (resources : Resources MSP) :
    Resources MSP :=
  let checked := updateValues path (fun _ => later) resources
  { checked with
    mspConfigHandler :=
      { checked.mspConfigHandler with pending := some store } }

variable {store : MSPConfigStore MSP}

theorem check_self (found : valueGroups.nodeAt path resources.channel = some proposer)
    (pending : resources.mspConfigHandler.pending = some store) :
    check path proposer store resources = resources := by
  have same : valueGroups.updateAt (fun _ => proposer) path resources.channel =
        valueGroups.updateAt (fun inner => inner) path resources.channel :=
    updateAt_congr found rfl
  rcases resources with ⟨channel, _, ⟨_, _⟩⟩
  cases pending
  simp only [check, updateValues, same, updateAt_self]

theorem check_check (first second : Proposer) (other : MSPConfigStore MSP) :
    check path second other (check path first store resources) =
      check path second other resources := by
  simp only [check, updateValues, updateAt_updateAt]

theorem check_setGroup {group : Proposer}
    (there : valueGroups.nodeAt path resources.channel = some proposer)
    (found : proposer.group key = some group) (later : Proposer) :
    check (path ++ [key]) later store resources =
      check path (proposer.setGroup key later) store resources := by
  have same : valueGroups.updateAt (valueGroups.updateAt (fun _ => later) [key]) path
          resources.channel =
        valueGroups.updateAt (fun _ => proposer.setGroup key later) path resources.channel :=
    updateAt_congr there (updateAt_of_child found _ [])
  simp only [check, updateValues, updateAt_append, same]

/-- How the calls that check a proposal end. -/
def Checks (outcome : Outcome ValueError (MSPConfigStore MSP × Proposer))
    (result : ConfigResult) (path : List GoString) (proposer : Proposer) (resources : Resources MSP)
    (ended : Option (Resources MSP × Option HandlerError)) : Prop :=
  match outcome with
  | .ok (store, later) =>
    ended = some (check path later store resources, none) ∧ Touched result proposer later
  | .error reason =>
    ∃ later store, ended = some (check path later store resources, some (.value reason)) ∧
        Touched result proposer later
  | .panic => ended = none

theorem Checks.resume {outcome : Outcome ValueError (MSPConfigStore MSP × Proposer)}
    {inner : Proposer} (touched : Touched result proposer inner)
    (checks : Checks outcome result path inner (check path inner store resources) ended) :
    Checks outcome result path proposer resources ended := by
  rcases outcome with ⟨other, later⟩ | _ | _
  · rcases checks with ⟨ended, more⟩
    rw [check_check] at ended
    exact ⟨ended, touched.trans more⟩
  · rcases checks with ⟨later, other, ended, more⟩
    rw [check_check] at ended
    exact ⟨later, other, ended, touched.trans more⟩
  · exact checks

theorem checks_preCommitCall (found : valueGroups.nodeAt path resources.channel = some proposer)
    (pending : resources.mspConfigHandler.pending = some store) (result : ConfigResult) :
    Checks (proposer.preCommit services store) result path proposer resources
      ((preCommitCall services path).run resources) := by
  rw [preCommitCall, run_call, pending, found]
  simp only [deref_some, ok_bind]
  cases checked : proposer.preCommit services store with
  | ok reached =>
    rcases reached with ⟨_, _⟩
    refine ⟨rfl, ?_⟩
    rcases revalues_preCommit checked with ⟨_, _, _, ⟨⟩, _⟩
    exact .checked
  | error _ =>
    refine ⟨proposer, store, ?_, .refl _ _⟩
    rw [check_self found pending]
    rfl
  | panic => rfl

theorem run_preCommitCalls_absent :
    ∀ (result : ConfigResult) {path : List GoString} {resources : Resources MSP},
      valueGroups.nodeAt path resources.channel = none →
        (preCommitCalls services result path).run resources = none
  | .mk [], path, resources, absent => by
    rw [preCommitCalls, preCommitSubCalls]
    show (preCommitCall services path).run resources = none
    rw [preCommitCall, run_call, absent]
    cases resources.mspConfigHandler.pending with
    | none | some _ => rfl
  | .mk ((key, result) :: rest), path, resources, absent => by
    rw [preCommitCalls, preCommitSubCalls, Program.run_bind, Program.run_bind,
      run_preCommitCalls_absent result (by rw [nodeAt_append, absent]; rfl)]
    rfl

mutual

/-- Run alone, the calls that check a proposal do what `preCommit` does. -/
theorem checks_preCommitCalls :
    ∀ (result : ConfigResult) {path : List GoString}
      {resources : Resources MSP} {proposer : Proposer}
      {store : MSPConfigStore MSP},
      valueGroups.nodeAt path resources.channel = some proposer →
        resources.mspConfigHandler.pending = some store →
        Checks (preCommit services result store proposer) result path proposer
          resources ((preCommitCalls services result path).run resources)
  | .mk subResults, path, resources, proposer, store, found, pending => by
    have below := checks_preCommitSubCalls subResults (List.Subset.refl _) found pending
    rw [preCommitCalls, Program.run_bind, preCommit]
    generalize preCommitSub services subResults store proposer = checked at below
    rcases checked with ⟨middle, inner⟩ | _ | _
    · rcases below with ⟨ended, touched⟩
      rw [ended]
      have there : valueGroups.nodeAt path (check path inner middle resources).channel =
            some inner :=
        nodeAt_updateAt found _
      have last := @checks_preCommitCall MSP services _ path inner middle there rfl (.mk subResults)
      exact last.resume touched
    · rcases below with ⟨later, other, ended, touched⟩
      rw [ended]
      exact ⟨later, other, rfl, touched⟩
    · rw [show _ = _ from below]
      rfl

theorem checks_preCommitSubCalls :
    ∀ (rest : SubResults)
      {subResults : SubResults} {path : List GoString}
      {resources : Resources MSP} {proposer : Proposer}
      {store : MSPConfigStore MSP},
      rest ⊆ subResults → valueGroups.nodeAt path resources.channel = some proposer →
        resources.mspConfigHandler.pending = some store →
        Checks (preCommitSub services rest store proposer) (.mk subResults) path proposer resources
          ((preCommitSubCalls services rest path).run resources)
  | [], subResults, path, resources, proposer, store, _, found, pending => by
    refine ⟨?_, .refl _ _⟩
    rw [check_self found pending]
    rfl
  | (key, result) :: rest, subResults, path, resources, proposer, store,
    within, found, pending => by
      rw [preCommitSubCalls, Program.run_bind, preCommitSub]
      have located : valueGroups.nodeAt (path ++ [key]) resources.channel = proposer.group key := by
        rw [nodeAt_append, found]
        rfl
      cases here : proposer.group key with
      | none =>
        rw [here] at located
        rw [run_preCommitCalls_absent result located]
        rfl
      | some group =>
        rw [here] at located
        have below := checks_preCommitCalls result located pending
        have member := within List.mem_cons_self
        simp only [deref_some, ok_bind]
        generalize preCommit services result store group = checked at below
        rcases checked with ⟨middle, inner⟩ | _ | _
        · rcases below with ⟨ended, touched⟩
          rw [ended, check_setGroup found here]
          have there : valueGroups.nodeAt path (check path (proposer.setGroup key inner) middle
                    resources).channel =
                some (proposer.setGroup key inner) :=
            nodeAt_updateAt found _
          have others := checks_preCommitSubCalls rest
              (fun _ member => within (List.mem_cons_of_mem _ member))
              there rfl
          have first := Touched.group member here touched
          exact others.resume first
        · rcases below with ⟨_, other, ended, touched⟩
          rw [ended, check_setGroup found here]
          exact ⟨_, other, rfl, .group member here touched⟩
        · rw [show _ = _ from below]
          rfl

end

/-! ## Whole configurations -/

theorem run_rootRollbackCalls {first later : Resources MSP} (settled : first.Settled)
    (begun : Begun result first.channel later.channel)
    (policies : SamePolicies first.policyManager later.policyManager)
    (manager : later.mspConfigHandler.manager = first.mspConfigHandler.manager) :
    (rootRollbackCalls result).run later = some (first, ()) := by
  rcases result with ⟨subResults⟩
  rcases run_rollbackSubCalls subResults [] later with ⟨middle, runs, rolledBack⟩
  have channel : middle.channel.rollbackProposals = first.channel := by
    rw [rolledBack.channel]
    exact rollbackValues_begun begun
  have restored : middle.policyManager.rollbackProposals = first.policyManager :=
    (policies.trans rolledBack.kept.policies).rollbackProposals settled.policyManager
  have providers := rolledBack.kept.mspConfigHandler
  rw [rootRollbackCalls, Program.run_bind, rollbackCalls, Program.run_bind, runs]
  rcases first with ⟨_, _, ⟨_, _⟩⟩
  rcases settled with ⟨_, _, closed⟩
  cases closed
  rcases middle with ⟨_, _, ⟨_, _⟩⟩
  dsimp only at channel restored providers manager
  subst channel restored
  rw [← providers] at manager
  dsimp only at manager
  subst manager
  rfl

/--
Run alone, the calls that process a configuration return what `processConfig`
returns, and leave the handlers as they were.
-/
theorem run_processCalls (settled : resources.Settled) (channelGroup : ConfigGroup) :
    (processCalls services channelGroup).run resources =
      match (resources.processConfig services channelGroup).2 with
      | .ok _ => some (resources, none)
      | .error reason => some (resources, some reason)
      | .panic => none := by
  let opened : Resources MSP :=
    { resources with mspConfigHandler := ⟨some ⟨[], none⟩, resources.mspConfigHandler.manager⟩ }
  have begins : resources.beginConfig = .ok opened := beginConfig_of_settled settled
  have there : At opened [] resources.handler := ⟨rfl, rfl⟩
  have handlerSettled : resources.handler.Settled := ⟨settled.channel, settled.policyManager⟩
  have proposes := @proceeds_proposeGroupCalls MSP services channelGroup opened []
      resources.handler there
  have returns := @returns_proposeGroup MSP services channelGroup
      resources.handler handlerSettled
  rw [processCalls, Program.run_bind, run_call, begins,
    Resources.processConfig, Resources.propose, begins]
  simp only [Option.bind_some, Program.run_bind]
  rw [show opened.handler = resources.handler from rfl]
  generalize proposeGroup services channelGroup resources.handler = proposed
    at proposes returns
  rcases proposed with ⟨handler, result, _ | reason | _⟩
  · have accepted : Opened result resources.handler handler := returns.1
    have checks := @checks_preCommitCalls MSP services result [] (put [] handler opened)
        handler.values ⟨[], none⟩ rfl rfl
    have rolledBack : ∀ {inner : Proposer} {store : MSPConfigStore MSP},
          Touched result handler.values inner → (rootRollbackCalls result).run
                (check [] inner store (put [] handler opened)) =
              some (resources, ()) := by
      intro inner store touched
      apply run_rootRollbackCalls settled
      · exact Begun.touched touched accepted.values
      · exact accepted.policies
      · rfl
    rw [show _ = _ from proposes]
    simp only [Option.bind_some, Program.run_bind]
    have outcome : (opened.withHandler handler).preCommit services result = (do
            let (store, channel) ← (Proposals.preCommit services result ⟨[], none⟩
                handler.values).mapError .value
            .ok (check [] channel store.preCommit (opened.withHandler handler))) :=
      rfl
    rw [outcome]
    generalize Proposals.preCommit services result ⟨[], none⟩ handler.values = checked at checks
    rcases checked with ⟨store, inner⟩ | _ | _
    · rcases checks with ⟨ended, touched⟩
      have made : (rootPreCommitCall : Calls MSP _).run
              (check [] inner store (put [] handler opened)) =
            some (check [] inner store.preCommit (put [] handler opened), none) :=
        rfl
      rw [ended]
      simp only [Option.bind_some, Program.run_bind, made, rolledBack touched, Program.run_pure]
      rfl
    · rcases checks with ⟨inner, store, ended, touched⟩
      rw [ended]
      simp only [Option.bind_some, Program.run_bind, rolledBack touched, Program.run_pure]
      rfl
    · rw [show _ = _ from checks]
      rfl
  · rcases proposes with ⟨later, ended, channel, kept⟩
    have unchanged : handler = resources.handler := returns
    have rolledBack : (rootRollbackCalls result).run later = some (resources, ()) := by
      apply run_rootRollbackCalls settled
      · rw [channel, unchanged]
        exact .closed settled.channel
      · exact kept.policies
      · rw [kept.mspConfigHandler]
    rw [ended]
    simp only [Option.bind_some, Program.run_bind, rolledBack, Program.run_pure]
  · rw [show _ = _ from proposes]
    rfl

end

end Fabric.Config.HandlerCalls
