import Fabric.Config.GroupValues
import Fabric.Config.Policies
import Fabric.ConfigTx.Elements

/-!
# Proposing a configuration

A configuration is proposed group by group to the handlers of its values and to
the managers of its policies.  Every handler opens a proposal of its own, so
that a proposal that is refused half way, at any depth, has to be rolled back
where it has been opened.  `Begun` says where this is: the handlers differ from
the ones before in open proposals only, and those are the ones that the result
of the proposal lists.  Rolling back therefore restores the handlers, and what
is committed is the configuration that was proposed.
-/

namespace Fabric.Config.Proposals

open Library Outcome ByteString Protos GroupValues Config.Policies ConfigTx.Elements

/-! ## Handlers of values -/

mutual

/--
The handler of a group: its values and the handlers of the groups below it, and
what is proposed for them.
-/
inductive Proposer where
  | mk (kind : Kind) (committed : Option Values)
      (groups : GoString → Option Proposer) (pending : PendingConfig)

/--
A proposal holds values, the names of its groups, and the handlers of those that
are new.  The handlers of the others are the current ones.
-/
inductive PendingConfig where
  | none
  | begun (allocated : Values) (names : List GoString)
      (created : GoString → Option Proposer)

end

namespace Proposer

def kind : Proposer → Kind
  | mk kind _ _ _ => kind

def committed : Proposer → Option Values
  | mk _ committed _ _ => committed

def groups : Proposer → GoString → Option Proposer
  | mk _ _ groups _ => groups

def pending : Proposer → PendingConfig
  | mk _ _ _ pending => pending

end Proposer

/-- A group without values. -/
def newProposer (kind : Kind) : Proposer :=
  .mk kind none (fun _ => none) .none

/-- The handlers of the groups that are not there yet. -/
def createGroups (kind : Kind) (current : GoString → Option Proposer) :
    List GoString → Outcome ValueError (GoString → Option Proposer)
  | [] => .ok fun _ => none
  | name :: names =>
    match current name with
    | some _ => createGroups kind current names
    | none => do
        let created ← kind.newGroup name
        let others ← createGroups kind current names
        .ok (Function.update others name (some (newProposer created)))

/-- Opens a proposal; a second one panics. -/
def Proposer.beginValueProposals (names : List GoString) : Proposer → Outcome ValueError Proposer
  | .mk kind committed groups .none => do
      let created ← createGroups kind groups names
      .ok (.mk kind committed groups (.begun kind.allocate names created))
  | .mk _ _ _ (.begun _ _ _) => .panic

/-- The group under a key. -/
def Proposer.group (key : GoString) : Proposer → Option Proposer
  | .mk _ _ groups .none => groups key
  | .mk _ _ groups (.begun _ _ created) => (groups key).or (created key)

/-- Replaces the group under a key. -/
def Proposer.setGroup (proposer : Proposer) (key : GoString) (group : Proposer) : Proposer :=
  match proposer with
  | .mk kind committed groups .none =>
    .mk kind committed (Function.update groups key (some group)) .none
  | .mk kind committed groups (.begun allocated names created) =>
    if (groups key).isSome then
      .mk kind committed (Function.update groups key (some group)) (.begun allocated names created)
    else
      .mk kind committed groups (.begun allocated names (Function.update created key (some group)))

section

variable (codec : ValueCodec) (entries : Entries ConfigValue)

/-- Decode the values of a group into the values that are allocated. -/
def deserializeAll (allocated : Values) : Outcome ValueError Values :=
  entries.foldlM (fun values entry => do
      let value ← deref entry.2
      values.deserialize codec entry.1 value.value)
    allocated

/-- Reads the values proposed. -/
def Proposer.loadValues : Proposer → Outcome ValueError Proposer
  | .mk _ _ _ .none => .panic
  | .mk kind committed groups (.begun allocated names created) => do
      let values ← deserializeAll codec entries allocated
      .ok (.mk kind committed groups (.begun values names created))

end

/-- Drops the proposal. -/
def Proposer.rollbackProposals : Proposer → Proposer
  | .mk kind committed groups _ => .mk kind committed groups .none

/-- Make the proposed values and groups the current ones. -/
def Proposer.commitProposals : Proposer → Outcome ValueError Proposer
  | .mk _ _ _ .none => .panic
  | .mk kind _ groups (.begun allocated names created) =>
    .ok (.mk kind (some allocated) (fun name =>
          if name ∈ names then (groups name).or (created name) else none)
        .none)

variable {MSP : Type}

section

variable (services : Services MSP)

/-- Check the proposed values and groups. -/
def Proposer.preCommit (store : MSPConfigStore MSP) :
    Proposer → Outcome ValueError (MSPConfigStore MSP × Proposer)
  | .mk _ _ _ .none => .panic
  | .mk kind committed groups (.begun allocated names created) => do
      let kinds := names.filterMap fun name =>
          ((groups name).or (created name)).map fun group => (name, group.kind)
      let (later, values) ← allocated.validate services kind committed kinds store
      .ok (later, .mk kind committed groups (.begun values names created))

end

/-! ## Managers of policies -/

section

/-- The proposed manager under a key. -/
def pendingManager (key : GoString) : Manager MSP → Option (Manager MSP)
  | .mk _ _ .none => none
  | .mk _ _ (.begun _ managers) => managers.lookup key

/-- Replaces the proposed manager under a key. -/
def setPendingManager (key : GoString) (inner : Manager MSP) : Manager MSP → Manager MSP
  | .mk policies managers .none => .mk policies managers .none
  | .mk policies managers (.begun proposed pending) =>
    .mk policies managers (.begun proposed (pending.map fun entry =>
          if entry.1 = key then (key, inner) else entry))

/-- Proposes every policy of a group. -/
def loadPolicies (services : Services MSP) (entries : Entries ConfigPolicy)
    (manager : Manager MSP) : Outcome PolicyError (Manager MSP) :=
  entries.foldlM (fun manager entry =>
      manager.proposePolicy services.toProviders entry.1 entry.2) manager

end

/-! ## Results of proposals -/

/-- The groups that have been proposed, by their names below a group. -/
inductive ConfigResult where
  | mk (subResults : List (GoString × ConfigResult))

/-- The results for the groups below a group. -/
abbrev SubResults := List (GoString × ConfigResult)

/-- The handler and the manager of one group. -/
structure Handler (MSP : Type) where
  values : Proposer
  policies : Manager MSP

/-- Why a handler refuses a call. -/
inductive HandlerError where
  | value (reason : ValueError)
  | policy (reason : PolicyError)
deriving DecidableEq

/-- The handlers, the result and the outcome when a proposal returns. -/
structure Proposed (MSP : Type) where
  handler : Handler MSP
  result : ConfigResult
  outcome : Outcome HandlerError Unit

mutual

/-- Abandon the proposals of the values of a group and of those below it. -/
def rollbackValues : ConfigResult → Proposer → Proposer
  | .mk subResults, proposer => (rollbackSubValues subResults proposer).rollbackProposals

def rollbackSubValues : SubResults → Proposer → Proposer
  | [], proposer => proposer
  | (key, result) :: rest, proposer =>
    match proposer.group key with
    | some group => rollbackSubValues rest (proposer.setGroup key (rollbackValues result group))
    | none => rollbackSubValues rest proposer

end

section

mutual

/-- Abandon the proposals of the policies of a group and of those below it. -/
def rollbackPolicies : ConfigResult → Manager MSP → Manager MSP
  | .mk subResults, manager => (rollbackSubPolicies subResults manager).rollbackProposals

def rollbackSubPolicies : SubResults → Manager MSP → Manager MSP
  | [], manager => manager
  | (key, result) :: rest, manager =>
    match pendingManager key manager with
    | some inner =>
      rollbackSubPolicies rest (setPendingManager key (rollbackPolicies result inner) manager)
    | none => rollbackSubPolicies rest manager

end

/-- Abandon a proposal.  Handlers of values and of policies are distinct. -/
def ConfigResult.rollback (result : ConfigResult) (handler : Handler MSP) : Handler MSP :=
  ⟨rollbackValues result handler.values, rollbackPolicies result handler.policies⟩

end

/-! ## Proposing the groups of a configuration -/

section

variable (services : Services MSP)

/-- The handler of a group below. -/
def Handler.sub (key : GoString) (handler : Handler MSP) : Option (Handler MSP) := do
  let values ← handler.values.group key
  let policies ← pendingManager key handler.policies
  some ⟨values, policies⟩

/-- Replaces the handler of a group below. -/
def Handler.setSub (handler : Handler MSP) (key : GoString) (inner : Handler MSP) : Handler MSP :=
  ⟨handler.values.setGroup key inner.values, setPendingManager key inner.policies handler.policies⟩

/-- Opens the proposals of values and policies. -/
def Handler.begin (names : List GoString) (handler : Handler MSP) :
    Outcome HandlerError (Handler MSP) := do
  let values ← (handler.values.beginValueProposals names).mapError .value
  let policies ← (handler.policies.beginPolicyProposals names).mapError .policy
  .ok ⟨values, policies⟩

/-- Propose the values and the policies of a group itself. -/
def Handler.load (handler : Handler MSP) (values : Entries ConfigValue)
    (policies : Entries ConfigPolicy) :
    Outcome HandlerError (Handler MSP) := do
  let proposer ← (handler.values.loadValues services.codec values).mapError .value
  let manager ← (loadPolicies services policies handler.policies).mapError .policy
  .ok ⟨proposer, manager⟩

mutual

/--
Propose a group and the groups below it.  What an error leaves behind in open
proposals is dropped by the rollback that follows it.
-/
def proposeGroup : ConfigGroup → Handler MSP → Proposed MSP
  | .mk _ groups values policies _, handler =>
    match handler.begin (entryKeys (groupEntries groups)) with
    | .error reason => ⟨handler, .mk [], .error reason⟩
    | .panic => ⟨handler, .mk [], .panic⟩
    | .ok begun =>
      match begun.load services values policies with
      | .error reason => ⟨(ConfigResult.mk []).rollback begun, .mk [], .error reason⟩
      | .panic => ⟨begun, .mk [], .panic⟩
      | .ok loaded =>
        let proposed := proposeGroups groups loaded []
        match proposed.outcome with
        | .error reason =>
          ⟨proposed.result.rollback proposed.handler, proposed.result, .error reason⟩
        | _ => proposed

/-- Propose the groups below a group, one after the other. -/
def proposeGroups : ConfigGroups → Handler MSP → SubResults → Proposed MSP
  | .nil, handler, done => ⟨handler, .mk done, .ok ()⟩
  | .absent _ _, handler, done => ⟨handler, .mk done, .panic⟩
  | .present key group rest, handler, done =>
    match handler.sub key with
    | none => ⟨handler, .mk done, .panic⟩
    | some inner =>
      let proposed := proposeGroup group inner
      let later := handler.setSub key proposed.handler
      let results := done ++ [(key, proposed.result)]
      match proposed.outcome with
      | .ok _ => proposeGroups rest later results
      | .error reason => ⟨later, .mk results, .error reason⟩
      | .panic => ⟨later, .mk results, .panic⟩

end

/-! ## Checking and committing a proposal -/

mutual

/-- Check the proposed values, from the groups at the bottom upwards. -/
def preCommit :
    ConfigResult → MSPConfigStore MSP → Proposer →
      Outcome ValueError (MSPConfigStore MSP × Proposer)
  | .mk subResults, store, proposer => do
      let (store, proposer) ← preCommitSub subResults store proposer
      proposer.preCommit services store

def preCommitSub :
    SubResults → MSPConfigStore MSP → Proposer →
      Outcome ValueError (MSPConfigStore MSP × Proposer)
  | [], store, proposer => .ok (store, proposer)
  | (key, result) :: rest, store, proposer => do
      let group ← deref (proposer.group key)
      let (store, group) ← preCommit result store group
      preCommitSub rest store (proposer.setGroup key group)

end

mutual

/-- Commit the proposed values, from the groups at the bottom upwards. -/
def commitValues : ConfigResult → Proposer → Outcome ValueError Proposer
  | .mk subResults, proposer => do
      let proposer ← commitSubValues subResults proposer
      proposer.commitProposals

def commitSubValues : SubResults → Proposer → Outcome ValueError Proposer
  | [], proposer => .ok proposer
  | (key, result) :: rest, proposer => do
      let group ← deref (proposer.group key)
      let group ← commitValues result group
      commitSubValues rest (proposer.setGroup key group)

end

mutual

/-- Commit the proposed policies, from the groups at the bottom upwards. -/
def commitPolicies (root : Manager MSP) :
    ConfigResult → Manager MSP → Outcome PolicyError (Manager MSP)
  | .mk subResults, manager => do
      let manager ← commitSubPolicies root subResults manager
      manager.commitProposals root

def commitSubPolicies (root : Manager MSP) :
    SubResults → Manager MSP → Outcome PolicyError (Manager MSP)
  | [], manager => .ok manager
  | (key, result) :: rest, manager => do
      let inner ← deref (pendingManager key manager)
      let inner ← commitPolicies root result inner
      commitSubPolicies root rest (setPendingManager key inner manager)

end

end

/-! ## The resources of a channel -/

/-- The providers of a channel, and those that are proposed. -/
structure MSPConfigHandler (MSP : Type) where
  pending : Option (MSPConfigStore MSP)
  manager : Option (List (GoString × MSP))

/-- The handlers of a channel. -/
structure Resources (MSP : Type) where
  channel : Proposer
  policyManager : Manager MSP
  mspConfigHandler : MSPConfigHandler MSP

section

variable (services : Services MSP)

/-- The handlers of a channel that has no configuration yet. -/
def newResources : Resources MSP where
  channel := .mk .channel (some Kind.channel.allocate) (fun _ => none) .none
  policyManager := newManager
  mspConfigHandler := ⟨none, none⟩

def Resources.handler (resources : Resources MSP) : Handler MSP :=
  ⟨resources.channel, resources.policyManager⟩

def Resources.withHandler (resources : Resources MSP) (handler : Handler MSP) : Resources MSP :=
  { resources with channel := handler.values, policyManager := handler.policies }

/-- Opens the proposal of the MSPs; a second one panics. -/
def Resources.beginConfig (resources : Resources MSP) : Outcome HandlerError (Resources MSP) :=
  match resources.mspConfigHandler.pending with
  | none =>
    .ok
      { resources with
        mspConfigHandler := { resources.mspConfigHandler with pending := some ⟨[], none⟩ } }
  | some _ => .panic

/-- Drops everything proposed. -/
def Resources.rollback (result : ConfigResult) (resources : Resources MSP) : Resources MSP :=
  let restored := resources.withHandler (result.rollback resources.handler)
  { restored with mspConfigHandler := { restored.mspConfigHandler with pending := none } }

/-- Proposes a whole channel group. -/
def Resources.propose (resources : Resources MSP) (channelGroup : ConfigGroup) :
    Resources MSP × Outcome HandlerError ConfigResult :=
  match resources.beginConfig with
  | .error reason => (resources, .error reason)
  | .panic => (resources, .panic)
  | .ok begun =>
    let proposed := proposeGroup services channelGroup begun.handler
    let later := begun.withHandler proposed.handler
    match proposed.outcome with
    | .ok _ => (later, .ok proposed.result)
    | .error reason => (later.rollback proposed.result, .error reason)
    | .panic => (later, .panic)

/-- Checks the proposed values. -/
def Resources.preCommit (result : ConfigResult) (resources : Resources MSP) :
    Outcome HandlerError (Resources MSP) := do
  let store ← deref resources.mspConfigHandler.pending
  let (store, channel) ← (Proposals.preCommit services result store resources.channel).mapError
      .value
  .ok
    { resources with
      channel := channel
      mspConfigHandler := { resources.mspConfigHandler with pending := some store.preCommit } }

/-- Propose a configuration and check it; the proposal is left open. -/
def Resources.processConfig (resources : Resources MSP) (channelGroup : ConfigGroup) :
    Resources MSP × Outcome HandlerError ConfigResult :=
  match resources.propose services channelGroup with
  | (later, .ok result) =>
    match later.preCommit services result with
    | .ok checked => (checked, .ok result)
    | .error reason => (later.rollback result, .error reason)
    | .panic => (later, .panic)
  | (later, .error reason) => (later, .error reason)
  | (later, .panic) => (later, .panic)

/-- Puts what is proposed in force. -/
def Resources.commit (result : ConfigResult) (resources : Resources MSP) :
    Outcome HandlerError (Resources MSP) := do
  let channel ← (commitValues result resources.channel).mapError .value
  let policyManager ← (commitPolicies resources.policyManager result
      resources.policyManager).mapError .policy
  let store ← deref resources.mspConfigHandler.pending
  .ok
    { channel := channel
      policyManager := policyManager
      mspConfigHandler := ⟨none, store.proposedMgr⟩ }

end

/-! ## Handlers without proposals -/

/--
No handler of a tree has an open proposal, and the groups are of the kinds that
the groups above them create.
-/
inductive Settled : Proposer → Prop where
  | mk {kind : Kind} {committed : Option Values}
      {groups : GoString → Option Proposer}
      (kinds : ∀ key group, groups key = some group → kind.newGroup key = .ok group.kind)
      (inner : ∀ key group, groups key = some group → Settled group) :
      Settled (.mk kind committed groups .none)

theorem settled_newProposer (kind : Kind) : Settled (newProposer kind) := by
  constructor
  · intro key group found
    cases found
  · intro key group found
    cases found

variable {kind : Kind}

theorem settled_createGroups {current : GoString → Option Proposer} :
    ∀ {names : List GoString} {created : GoString → Option Proposer},
      createGroups kind current names = .ok created → ∀ key group, created key = some group →
          kind.newGroup key = .ok group.kind ∧ Settled group
  | [], _, made, key, group, found => by
    cases made
    cases found
  | name :: names, created, made, key, group, found => by
    rw [createGroups] at made
    cases here : current name with
    | some _ =>
      rw [here] at made
      exact settled_createGroups made key group found
    | none =>
      rw [here] at made
      simp only [bind_ok_iff] at made
      rcases made with ⟨inner, allowed, _, rest, same⟩
      cases same
      rw [Function.update_apply] at found
      split at found
      next same =>
        cases found
        rw [same]
        exact ⟨allowed, settled_newProposer inner⟩
      next => exact settled_createGroups rest key group found

/-! ## Where proposals are open -/

/--
A handler differs from the one before in its open proposal at most, and so do
the handlers of the groups that the result lists, but no other ones.
-/
inductive Begun : ConfigResult → Proposer → Proposer → Prop where
  | closed {result : ConfigResult} {proposer : Proposer}
      (settled : Settled proposer) : Begun result proposer proposer
  | opened {subResults : SubResults} {kind : Kind}
      {committed : Option Values} {before groups : GoString → Option Proposer}
      {allocated : Values} {names : List GoString}
      {created : GoString → Option Proposer}
      (distinct : (subResults.map Prod.fst).Nodup)
      (kept : ∀ key, key ∉ subResults.map Prod.fst → groups key = before key)
      (present : ∀ key, (groups key).isSome = (before key).isSome)
      (listed : ∀ key result first later, (key, result) ∈ subResults →
          before key = some first → groups key = some later →
          Begun result first later) :
      Begun (.mk subResults) (.mk kind committed before .none)
        (.mk kind committed groups (.begun allocated names created))

variable {names : List GoString} {subResults : SubResults} {proposer : Proposer}
  {result : ConfigResult}

section

variable {before groups : GoString → Option Proposer} {committed : Option Values}
  {allocated : Values} {created : GoString → Option Proposer}

theorem rollbackSubValues_begun {subResults : SubResults}
    (distinct : (subResults.map Prod.fst).Nodup)
    (kept : ∀ key, key ∉ subResults.map Prod.fst → groups key = before key)
    (present : ∀ key, (groups key).isSome = (before key).isSome)
    (restored : ∀ key result first later, (key, result) ∈ subResults →
        before key = some first → groups key = some later →
        rollbackValues result later = first) :
    ∃ later, rollbackSubValues subResults
          (.mk kind committed groups (.begun allocated names created)) =
        .mk kind committed before (.begun allocated names later) := by
  induction subResults generalizing groups created with
  | nil =>
    refine ⟨created, ?_⟩
    rw [rollbackSubValues, funext fun key => kept key List.not_mem_nil]
  | cons entry rest ih =>
    rcases entry with ⟨key, result⟩
    rcases List.nodup_cons.mp distinct with ⟨fresh, distinct⟩
    have later : ∀ key result first later, (key, result) ∈ rest →
          before key = some first → groups key = some later →
          rollbackValues result later = first :=
      fun key result first later member =>
        restored key result first later (List.mem_cons_of_mem _ member)
    cases here : groups key with
    | none =>
      have missing : before key = none := by
        rw [← Option.not_isSome_iff_eq_none, ← present key, here]
        simp
      have others : ∀ other, other ∉ rest.map Prod.fst → groups other = before other := by
        intro other unlisted
        by_cases same : other = key
        · rw [same, here, missing]
        · exact kept other (by simp [same, unlisted])
      rw [rollbackSubValues, Proposer.group, here, Option.none_or]
      cases created key with
      | none => exact ih distinct others present later
      | some group =>
        simp only [Proposer.setGroup, here, Option.isSome_none, Bool.false_eq_true, if_false]
        exact ih distinct others present later
    | some group =>
      rcases Option.isSome_iff_exists.mp ((present key).symm.trans (by rw [here]; rfl)) with
        ⟨first, found⟩
      have back := restored key result first group List.mem_cons_self found here
      rw [rollbackSubValues, Proposer.group, here, Option.some_or]
      simp only [Proposer.setGroup, here, Option.isSome_some, if_true, back]
      apply ih distinct
      · intro other unlisted
        rw [Function.update_apply]
        split
        next same => rw [same, found]
        next different => exact kept other (by simp [different, unlisted])
      · intro other
        rw [Function.update_apply]
        split
        next same => rw [same, found]
        next => exact present other
      · intro other result first later member source target
        have different : other ≠ key := ne_of_mem_of_not_mem (List.mem_map_of_mem member) fresh
        rw [Function.update_of_ne different] at target
        exact restored other result first later (List.mem_cons_of_mem _ member) source target

theorem rollbackValues_settled (settled : Settled proposer) (result : ConfigResult) :
    rollbackValues result proposer = proposer := by
  induction settled generalizing result with
  | @mk kind committed groups _ _ restored =>
    have kept : ∀ subResults : SubResults,
          rollbackSubValues subResults (.mk kind committed groups .none) =
            .mk kind committed groups .none := by
      intro subResults
      induction subResults with
      | nil => rfl
      | cons entry _ ih =>
        rcases entry with ⟨key, result⟩
        rw [rollbackSubValues, Proposer.group]
        cases here : groups key with
        | none => exact ih
        | some group =>
          simp only [restored key group here, Proposer.setGroup]
          rw [← here, Function.update_eq_self]
          exact ih
    rcases result with ⟨subResults⟩
    rw [rollbackValues, kept]
    rfl

theorem rollbackValues_begun {first later : Proposer} (begun : Begun result first later) :
    rollbackValues result later = first := by
  induction begun with
  | closed settled => exact rollbackValues_settled settled _
  | opened distinct kept present _ restored =>
    rcases rollbackSubValues_begun distinct kept present
        (fun key result first later member source target =>
          restored key result first later member source target) with
      ⟨_, same⟩
    rw [rollbackValues, same]
    rfl

end

/-! ## What a proposal opens -/

theorem beginValueProposals_ok {first later : Proposer}
    (opened : first.beginValueProposals names = .ok later) :
    ∃ kind committed groups created, first = .mk kind committed groups .none ∧
      createGroups kind groups names = .ok created ∧
      later = .mk kind committed groups (.begun kind.allocate names created) := by
  rcases first with ⟨_, _, _, _ | _⟩
  · simp only [Proposer.beginValueProposals, bind_ok_iff] at opened
    rcases opened with ⟨created, made, same⟩
    cases same
    exact ⟨_, _, _, created, rfl, made, rfl⟩
  · cases opened

theorem begun_of_beginValueProposals {first later : Proposer}
    (opened : first.beginValueProposals names = .ok later) :
    Begun (.mk []) first later := by
  rcases beginValueProposals_ok opened with ⟨_, _, _, _, rfl, _, rfl⟩
  exact .opened List.nodup_nil (fun _ _ => rfl) (fun _ => rfl)
      (fun _ _ _ _ member => by cases member)

variable {entries : Entries ConfigValue} {codec : ValueCodec}

/-- Only the values of an open proposal change. -/
inductive Revalues (allocated values : Values) : Proposer → Proposer → Prop where
  | mk {kind : Kind} {committed : Option Values} {groups created : GoString → Option Proposer}
      {names : List GoString} :
      Revalues allocated values (.mk kind committed groups (.begun allocated names created))
        (.mk kind committed groups (.begun values names created))

theorem revalues_loadValues {first later : Proposer}
    (loaded : first.loadValues codec entries = .ok later) :
    ∃ allocated values, Revalues allocated values first later ∧
      deserializeAll codec entries allocated = .ok values := by
  rcases first with ⟨_, _, _, _ | _⟩
  · cases loaded
  · simp only [Proposer.loadValues, bind_ok_iff] at loaded
    rcases loaded with ⟨values, decodes, same⟩
    cases same
    exact ⟨_, values, .mk, decodes⟩

theorem revalues_preCommit {services : Services MSP} {store next : MSPConfigStore MSP}
    {first later : Proposer} (checked : first.preCommit services store = .ok (next, later)) :
    ∃ allocated values kinds, Revalues allocated values first later ∧
      allocated.validate services first.kind first.committed kinds store = .ok (next, values) := by
  rcases first with ⟨_, _, _, _ | _⟩
  · cases checked
  · simp only [Proposer.preCommit, bind_ok_iff] at checked
    rcases checked with ⟨⟨_, values⟩, validates, same⟩
    cases same
    exact ⟨_, values, _, .mk, validates⟩

variable {allocated values : Values}

theorem Revalues.pending {first later : Proposer}
    (revalues : Revalues allocated values first later) :
    first.pending ≠ .none ∧ later.pending ≠ .none := by
  cases revalues
  simp [Proposer.pending]

theorem Begun.revalue {first middle later : Proposer} (begun : Begun result first middle)
    (revalues : Revalues allocated values middle later) : Begun result first later := by
  cases revalues
  cases begun with
  | closed settled => cases settled
  | opened distinct kept present listed => exact .opened distinct kept present listed

variable {key : GoString} {done : SubResults}

theorem Begun.append {first middle inner : Proposer} (begun : Begun (.mk done) first middle)
    (pending : middle.pending ≠ .none) (fresh : key ∉ done.map Prod.fst)
    (opened : ∀ group, first.groups key = some group → Begun result group inner) :
    Begun (.mk (done ++ [(key, result)])) first
      (middle.setGroup key inner) := by
  rcases begun with settled | @⟨_, _, _, _, groups, _, _, _, distinct, kept, present, openedBefore⟩
  · cases settled
    exact (pending rfl).elim
  have distinctLater : ((done ++ [(key, result)]).map Prod.fst).Nodup := by
    rw [List.map_append, List.nodup_append]
    refine ⟨distinct, List.nodup_singleton key, ?_⟩
    intro _ member other same
    rw [List.map_singleton, List.mem_singleton] at same
    rintro rfl
    rw [same] at member
    exact fresh member
  simp only [Proposer.setGroup]
  split
  next here =>
    refine .opened distinctLater ?_ ?_ ?_
    · intro other unlisted
      simp only [List.map_append, List.map_singleton, List.mem_append,
        List.mem_singleton, not_or] at unlisted
      rw [Function.update_of_ne unlisted.2]
      exact kept other unlisted.1
    · intro other
      rw [Function.update_apply]
      split
      next same =>
        rw [same, ← present key, here]
        rfl
      next => exact present other
    · intro other sub source target member found updated
      rcases List.mem_append.mp member with earlier | last
      · have different : other ≠ key := ne_of_mem_of_not_mem (List.mem_map_of_mem earlier) fresh
        rw [Function.update_of_ne different] at updated
        exact openedBefore other sub source target earlier found updated
      · cases List.mem_singleton.mp last
        rw [Function.update_self] at updated
        cases updated
        exact opened source found
  next missing =>
    refine .opened distinctLater ?_ present ?_
    · intro other unlisted
      simp only [List.map_append, List.map_singleton, List.mem_append,
        List.mem_singleton, not_or] at unlisted
      exact kept other unlisted.1
    · intro other sub source target member found updated
      rcases List.mem_append.mp member with earlier | last
      · exact openedBefore other sub source target earlier found updated
      · cases List.mem_singleton.mp last
        rw [updated] at missing
        exact (missing rfl).elim

section

/-- Two managers differ in their proposals only. -/
structure SamePolicies (first later : Manager MSP) : Prop where
  policies : later.policies = first.policies
  managers : later.managers = first.managers

variable {first later : Manager MSP}

theorem SamePolicies.rollbackProposals (same : SamePolicies first later)
    (settled : first.pending = .none) :
    later.rollbackProposals = first := by
  rcases first with ⟨_, _, pending⟩
  rcases later with ⟨_, _, _⟩
  rcases same with ⟨rfl, rfl⟩
  cases settled
  rfl

theorem samePolicies_setPending (key : GoString) (inner manager : Manager MSP) :
    SamePolicies manager (setPendingManager key inner manager) := by
  rcases manager with ⟨_, _, _ | _⟩
  · exact ⟨rfl, rfl⟩
  · exact ⟨rfl, rfl⟩

theorem SamePolicies.trans {first middle later : Manager MSP} (left : SamePolicies first middle)
    (right : SamePolicies middle later) : SamePolicies first later :=
  ⟨right.policies.trans left.policies, right.managers.trans left.managers⟩

theorem samePolicies_rollbackSubPolicies :
    ∀ (subResults : SubResults) (manager : Manager MSP),
      SamePolicies manager (rollbackSubPolicies subResults manager)
  | [], _ => ⟨rfl, rfl⟩
  | (key, result) :: rest, manager => by
    rw [rollbackSubPolicies]
    split
    next _ _ =>
      exact (samePolicies_setPending key _ manager).trans (samePolicies_rollbackSubPolicies rest _)
    next => exact samePolicies_rollbackSubPolicies rest manager

theorem rollbackPolicies_of_samePolicies (same : SamePolicies first later)
    (settled : first.pending = .none) (result : ConfigResult) :
    rollbackPolicies result later = first := by
  rcases result with ⟨subResults⟩
  rw [rollbackPolicies]
  exact (same.trans (samePolicies_rollbackSubPolicies subResults later)).rollbackProposals settled

theorem samePolicies_beginPolicyProposals (begun : first.beginPolicyProposals names = .ok later) :
    SamePolicies first later ∧ first.pending = .none := by
  rcases first with ⟨_, _, _ | _⟩
  · cases begun
    exact ⟨⟨rfl, rfl⟩, rfl⟩
  · cases begun

variable {services : Services MSP} {providers : Providers MSP}

theorem proposePolicy_ok {configPolicy : Option ConfigPolicy}
    (proposed : first.proposePolicy providers key configPolicy = .ok later) :
    SamePolicies first later ∧ ∀ key, pendingManager key later = pendingManager key first := by
  rcases first with ⟨_, _, _ | _⟩
  · cases proposed
  · simp only [Manager.proposePolicy, bind_ok_iff] at proposed
    rcases proposed with ⟨_, _, same⟩
    cases same
    exact ⟨⟨rfl, rfl⟩, fun _ => rfl⟩

theorem loadPolicies_ok {entries : Entries ConfigPolicy}
    (loaded : loadPolicies services entries first = .ok later) :
    SamePolicies first later ∧ ∀ key, pendingManager key later = pendingManager key first := by
  apply @foldlM_invariant _ _ _ _ (fun manager => SamePolicies first manager ∧
      ∀ key, pendingManager key manager = pendingManager key first) ?_ entries first
      later ⟨⟨rfl, rfl⟩, fun _ => rfl⟩ loaded
  rintro _ _ _ ⟨same, managers⟩ proposed
  rcases proposePolicy_ok proposed with ⟨sameHere, managersHere⟩
  exact ⟨same.trans sameHere, fun key => (managersHere key).trans (managers key)⟩

end

/-! ## Handlers of the groups of a proposal -/

variable {first later : Handler MSP} {policies : Entries ConfigPolicy}
  {values : Entries ConfigValue}

section

theorem Proposer.group_setGroup_self {proposer group : Proposer}
    (found : proposer.group key = some group) (later : Proposer) :
    (proposer.setGroup key later).group key = some later := by
  rcases proposer with ⟨_, _, _, _ | ⟨_, _, _⟩⟩
  · simp [Proposer.setGroup, Proposer.group]
  · rw [Proposer.setGroup]
    split
    · simp [Proposer.group]
    next missing =>
      rw [Bool.not_eq_true, Option.isSome_eq_false_iff, Option.isNone_iff_eq_none] at missing
      simp [Proposer.group, missing]

variable {other : GoString}

theorem Proposer.group_setGroup_of_ne (different : other ≠ key) (proposer later : Proposer) :
    (proposer.setGroup key later).group other = proposer.group other := by
  rcases proposer with ⟨_, _, _, _ | ⟨_, _, _⟩⟩
  · simp [Proposer.setGroup, Proposer.group, different]
  · rw [Proposer.setGroup]
    split
    · simp [Proposer.group, different]
    · simp [Proposer.group, different]

theorem Proposer.pending_setGroup_iff {later : Proposer} :
    (proposer.setGroup key later).pending = .none ↔ proposer.pending = .none := by
  rcases proposer with ⟨_, _, _, _ | ⟨_, _, _⟩⟩
  · exact Iff.rfl
  · rw [Proposer.setGroup]
    split
    · exact Iff.rfl
    · simp [Proposer.pending]

variable {Item : Type}

theorem setPendingManager_self {manager inner : Manager MSP}
    (found : pendingManager key manager = some inner) (later : Manager MSP) :
    pendingManager key (setPendingManager key later manager) = some later := by
  rcases manager with ⟨_, _, _ | ⟨_, pending⟩⟩
  · cases found
  · rw [setPendingManager, pendingManager]
    rw [pendingManager] at found
    induction pending with
    | nil => cases found
    | cons entry _ ih =>
      rcases entry with ⟨first, _⟩
      rw [List.map_cons]
      split
      next => simp
      next different =>
        have unequal : (key == first) = false := by
          simpa using fun same => different same.symm
        rw [List.lookup_cons, unequal] at found ⊢
        exact ih found

theorem setPendingManager_of_ne (different : other ≠ key) (manager later : Manager MSP) :
    pendingManager other (setPendingManager key later manager) = pendingManager other manager := by
  rcases manager with ⟨_, _, _ | ⟨_, pending⟩⟩
  · rfl
  · rw [setPendingManager, pendingManager, pendingManager]
    induction pending with
    | nil => rfl
    | cons entry _ ih =>
      rcases entry with ⟨first, _⟩
      rw [List.map_cons]
      split
      next same =>
        have unequal : (other == key) = false := by simpa using different
        have unequalFirst : (other == first) = false := by
          rw [show first = key from same]
          exact unequal
        rw [List.lookup_cons, List.lookup_cons, unequal, unequalFirst]
        exact ih
      next => rw [List.lookup_cons, List.lookup_cons, ih]

theorem Handler.of_begin (opens : first.begin names = .ok later) :
    first.values.beginValueProposals names = .ok later.values ∧
      first.policies.beginPolicyProposals names = .ok later.policies := by
  simp only [Handler.begin, bind_ok_iff, mapError_ok_iff] at opens
  rcases opens with ⟨_, values, _, policies, same⟩
  cases same
  exact ⟨values, policies⟩

theorem Handler.of_load {services : Services MSP}
    (loads : first.load services values policies = .ok later) :
    first.values.loadValues services.codec values = .ok later.values ∧
      loadPolicies services policies first.policies = .ok later.policies := by
  simp only [Handler.load, bind_ok_iff, mapError_ok_iff] at loads
  rcases loads with ⟨_, proposes, _, defines, same⟩
  cases same
  exact ⟨proposes, defines⟩

variable {handler inner : Handler MSP}

theorem Handler.sub_eq_some_iff :
    handler.sub key = some inner ↔ handler.values.group key = some inner.values ∧
        pendingManager key handler.policies = some inner.policies := by
  rcases inner with ⟨values, policies⟩
  simp only [Handler.sub, Option.bind_eq_bind, Option.bind_eq_some_iff,
    Option.some.injEq, Handler.mk.injEq]
  constructor
  · rintro ⟨_, found, _, there, rfl, rfl⟩
    exact ⟨found, there⟩
  · rintro ⟨found, there⟩
    exact ⟨values, found, policies, there, rfl, rfl⟩

theorem Handler.sub_setSub_self (found : handler.sub key = some inner) (later : Handler MSP) :
    (handler.setSub key later).sub key = some later := by
  rw [Handler.sub_eq_some_iff] at found ⊢
  exact ⟨Proposer.group_setGroup_self found.1 _, setPendingManager_self found.2 _⟩

theorem Handler.sub_setSub_of_ne (different : other ≠ key) (handler later : Handler MSP) :
    (handler.setSub key later).sub other = handler.sub other := by
  simp only [Handler.sub, Handler.setSub, Proposer.group_setGroup_of_ne different,
    setPendingManager_of_ne different]

end

/-! ## Proposals that return -/

variable {services : Services MSP}

section

variable {providers : Providers MSP}

/-- The handlers of a group have no open proposal. -/
structure Handler.Settled (handler : Handler MSP) : Prop where
  values : Proposals.Settled handler.values
  policies : handler.policies.pending = .none

/-- The handlers of a group, and where their proposals are open. -/
structure Opened (result : ConfigResult) (first later : Handler MSP) : Prop where
  values : Begun result first.values later.values
  policies : SamePolicies first.policies later.policies
  settled : first.policies.pending = .none

theorem Opened.rollback (opened : Opened result first later) :
    result.rollback later = first := by
  rw [ConfigResult.rollback, rollbackValues_begun opened.values,
    rollbackPolicies_of_samePolicies opened.policies opened.settled]

/-- The proposal is open after it has been accepted, and nowhere after an error. -/
def Proposed.Returns (first : Handler MSP) (proposed : Proposed MSP) : Prop :=
  match proposed.outcome with
  | .ok _ => Opened proposed.result first proposed.handler ∧ proposed.handler.values.pending ≠ .none
  | .error _ => proposed.handler = first
  | .panic => True

/-- The state between the groups below a group. -/
structure Progress (first : Handler MSP)
    (done : SubResults) (handler : Handler MSP) :
    Prop where
  opened : Opened (.mk done) first handler
  pending : handler.values.pending ≠ .none
  settled : ∀ key inner, key ∉ done.map Prod.fst → handler.sub key = some inner → inner.Settled
  begun : ∀ key inner, key ∈ done.map Prod.fst → handler.sub key = some inner →
      inner.values.pending ≠ .none

theorem proposeGroup_of_pending (group : ConfigGroup) {handler : Handler MSP}
    (pending : handler.values.pending ≠ .none) :
    (proposeGroup services group handler).outcome = .panic := by
  rcases group with ⟨_, _, values, _, _⟩
  rcases handler with ⟨⟨_, _, _, _ | _⟩, _⟩
  · exact (pending rfl).elim
  · rfl

theorem settled_beginValueProposals {first later : Proposer} (settled : Settled first)
    (opened : first.beginValueProposals names = .ok later)
    {group : Proposer} (found : later.group key = some group) :
    first.kind.newGroup key = .ok group.kind ∧ Settled group := by
  rcases beginValueProposals_ok opened with ⟨_, _, _, _, rfl, made, rfl⟩
  cases settled with
  | mk kinds inner =>
    rw [Proposer.group, Option.or_eq_some_iff] at found
    rcases found with current | ⟨_, new⟩
    · exact ⟨kinds key group current, inner key group current⟩
    · exact settled_createGroups made key group new

theorem loadValues_ok
    {first later : Proposer} (loaded : first.loadValues codec entries = .ok later) :
    later.pending ≠ .none ∧ ∀ key, later.group key = first.group key := by
  rcases revalues_loadValues loaded with ⟨_, _, revalues, _⟩
  refine ⟨revalues.pending.2, ?_⟩
  cases revalues
  exact fun _ => rfl

variable {first later : Manager MSP}

theorem pendingManager_beginPolicyProposals (begun : first.beginPolicyProposals names = .ok later)
    {inner : Manager MSP} (found : pendingManager key later = some inner) :
    inner = newManager := by
  rcases first with ⟨_, _, _ | _⟩
  · cases begun
    have member := mem_of_lookup found
    rw [List.mem_map] at member
    rcases member with ⟨_, _, same⟩
    cases same
    rfl
  · cases begun

theorem progress_load {first begun loaded : Handler MSP} (settled : first.Settled)
    (opens : first.begin names = .ok begun)
    (loads : begun.load services values policies = .ok loaded) :
    Progress first [] loaded := by
  rcases Handler.of_begin opens with ⟨beginsValues, beginsPolicies⟩
  rcases Handler.of_load loads with ⟨loadsValues, loadsPolicies⟩
  rcases loadValues_ok loadsValues with ⟨pending, sameGroups⟩
  refine ⟨⟨?_, ?_, settled.policies⟩, pending, ?_, ?_⟩
  · rcases revalues_loadValues loadsValues with ⟨_, _, revalues, _⟩
    exact (begun_of_beginValueProposals beginsValues).revalue revalues
  · exact (samePolicies_beginPolicyProposals beginsPolicies).1.trans
        (loadPolicies_ok loadsPolicies).1
  · intro key inner _ found
    rcases Handler.sub_eq_some_iff.mp found with ⟨group, innerManager⟩
    rw [sameGroups] at group
    rw [(loadPolicies_ok loadsPolicies).2] at innerManager
    refine ⟨(settled_beginValueProposals settled.values beginsValues group).2, ?_⟩
    rw [pendingManager_beginPolicyProposals beginsPolicies innerManager]
    rfl
  · intro key inner member
    cases member

theorem Begun.group {first later : Proposer}
    (begun : Begun (.mk done) first later) (fresh : key ∉ done.map Prod.fst) {group : Proposer}
    (found : first.groups key = some group) :
    later.group key = some group := by
  cases begun with
  | closed settled =>
    cases settled
    exact found
  | opened _ kept _ _ =>
    rw [Proposer.groups] at found
    rw [Proposer.group, kept key fresh, found]
    rfl

section

variable {first handler inner : Handler MSP} (progress : Progress first done handler)
  (fresh : key ∉ done.map Prod.fst) (found : handler.sub key = some inner)

include progress fresh found

variable {later : Handler MSP}

theorem Progress.opened_setSub (begun : Begun result inner.values later.values) :
    Opened (.mk (done ++ [(key, result)])) first
      (handler.setSub key later) := by
  refine ⟨?_, progress.opened.policies.trans (samePolicies_setPending _ _ _),
      progress.opened.settled⟩
  apply progress.opened.values.append progress.pending fresh
  intro group before
  have same := progress.opened.values.group fresh before
  rw [(Handler.sub_eq_some_iff.mp found).1] at same
  cases same
  exact begun

theorem Progress.next (begun : Begun result inner.values later.values)
    (pending : later.values.pending ≠ .none) :
    Progress first (done ++ [(key, result)]) (handler.setSub key later) := by
  refine ⟨progress.opened_setSub fresh found begun,
      mt Proposer.pending_setGroup_iff.mp progress.pending, ?_, ?_⟩
  · intro other there unlisted located
    simp only [List.map_append, List.map_singleton, List.mem_append,
      List.mem_singleton, not_or] at unlisted
    rw [Handler.sub_setSub_of_ne unlisted.2] at located
    exact progress.settled other there unlisted.1 located
  · intro other there listed located
    by_cases same : other = key
    · rw [same, Handler.sub_setSub_self found] at located
      cases located
      exact pending
    · rw [Handler.sub_setSub_of_ne same] at located
      simp only [List.map_append, List.map_singleton, List.mem_append,
        List.mem_singleton, same, or_false] at listed
      exact progress.begun other there listed located

end

/-- What the groups below a group leave behind. -/
def Proposed.ReturnsSub (first : Handler MSP) (proposed : Proposed MSP) : Prop :=
  match proposed.outcome with
  | .ok _ => Opened proposed.result first proposed.handler ∧ proposed.handler.values.pending ≠ .none
  | .error _ => proposed.result.rollback proposed.handler = first
  | .panic => True

mutual

/-- A group is proposed at every depth, or at none. -/
theorem returns_proposeGroup :
    ∀ (group : ConfigGroup) {handler : Handler MSP}, handler.Settled →
      (proposeGroup services group handler).Returns handler
  | .mk _ groups _ _ _, handler, settled => by
    rw [proposeGroup]
    split
    next => rfl
    next => trivial
    next _ opens =>
      split
      next =>
        rcases Handler.of_begin opens with ⟨beginsValues, beginsPolicies⟩
        apply Opened.rollback
        exact ⟨begun_of_beginValueProposals beginsValues,
            (samePolicies_beginPolicyProposals beginsPolicies).1, settled.policies⟩
      next => trivial
      next _ loads =>
        have sub := returns_proposeGroups groups (progress_load settled opens loads)
        dsimp only
        split
        next reason failed =>
          rw [Proposed.ReturnsSub, failed] at sub
          exact sub
        next accepted =>
          rw [Proposed.ReturnsSub] at sub
          rw [Proposed.Returns]
          split at sub
          next => exact sub
          next reason failed => exact (accepted reason failed).elim
          next => trivial

theorem returns_proposeGroups :
    ∀ (groups : ConfigGroups) {first handler : Handler MSP} {done : SubResults},
      Progress first done handler →
        (proposeGroups services groups handler done).ReturnsSub
          first
  | .nil, _, _, _, progress => by
    rw [proposeGroups]
    exact ⟨progress.opened, progress.pending⟩
  | .absent _ _, _, _, _, _ => by
    rw [proposeGroups]
    trivial
  | .present key group rest, first, handler, done, progress => by
    rw [proposeGroups]
    split
    next => trivial
    next inner found =>
      by_cases listed : key ∈ done.map Prod.fst
      · have panics : (proposeGroup services group inner).outcome = .panic :=
          proposeGroup_of_pending group (progress.begun key inner listed found)
        simp only [panics]
        trivial
      · have settled := progress.settled key inner listed found
        have returns := returns_proposeGroup group settled
        rw [Proposed.Returns] at returns
        dsimp only
        split at returns
        next =>
          exact returns_proposeGroups rest (progress.next listed found returns.1.values returns.2)
        next =>
          rw [returns]
          exact (progress.opened_setSub listed found (.closed settled.values)).rollback
        next => trivial

end

end

/-! ## Checking a proposal -/

section

theorem Begun.setGroup {first middle inner : Proposer} (begun : Begun (.mk subResults) first middle)
    (pending : middle.pending ≠ .none) (member : (key, result) ∈ subResults)
    (opened : ∀ group, first.groups key = some group → Begun result group inner) :
    Begun (.mk subResults) first (middle.setGroup key inner) := by
  rcases begun with settled | @⟨_, _, _, _, groups, _, _, _, distinct, kept, present, listed⟩
  · cases settled
    exact (pending rfl).elim
  have sameResult : ∀ other, (key, other) ∈ subResults → other = result := by
    intro other there
    exact congrArg Prod.snd (List.inj_on_of_nodup_map distinct there member rfl)
  simp only [Proposer.setGroup]
  split
  next here =>
    refine .opened distinct ?_ ?_ ?_
    · intro other unlisted
      have different : key ≠ other := ne_of_mem_of_not_mem (List.mem_map_of_mem member) unlisted
      rw [Function.update_of_ne different.symm]
      exact kept other unlisted
    · intro other
      rw [Function.update_apply]
      split
      next same =>
        rw [same, ← present key, here]
        rfl
      next => exact present other
    · intro other sub source target there found updated
      by_cases same : other = key
      · subst same
        rw [Function.update_self] at updated
        cases updated
        rw [sameResult sub there]
        exact opened source found
      · rw [Function.update_of_ne same] at updated
        exact listed other sub source target there found updated
  next => exact .opened distinct kept present listed

theorem Begun.sub {first later group inner : Proposer} (begun : Begun (.mk subResults) first later)
    (pending : later.pending ≠ .none) (member : (key, result) ∈ subResults)
    (before : first.groups key = some group) (found : later.group key = some inner) :
    Begun result group inner := by
  rcases begun with settled | @⟨_, _, _, _, groups, _, _, _, _, _, present, listed⟩
  · cases settled
    exact (pending rfl).elim
  rw [Proposer.groups] at before
  rcases Option.isSome_iff_exists.mp ((present key).trans (by rw [before]; rfl)) with ⟨_, here⟩
  rw [Proposer.group, here, Option.some_or] at found
  cases found
  exact listed key result group _ member before here

theorem pending_preCommitSub :
    ∀ {subResults : SubResults}
      {store later : MSPConfigStore MSP} {first proposer : Proposer},
      preCommitSub services subResults store first = .ok (later, proposer) →
        (proposer.pending = .none ↔ first.pending = .none)
  | [], _, _, _, _, checked => by
    cases checked
    rfl
  | (key, result) :: rest, store, later, first, proposer, checked => by
    simp only [preCommitSub, bind_ok_iff] at checked
    rcases checked with ⟨_, _, ⟨_, _⟩, _, others⟩
    rw [pending_preCommitSub others, Proposer.pending_setGroup_iff]

theorem pending_of_preCommit {store later : MSPConfigStore MSP} {first proposer : Proposer}
    (checked : preCommit services result store first = .ok (later, proposer)) :
    first.pending ≠ .none ∧ proposer.pending ≠ .none := by
  rcases result with ⟨_⟩
  simp only [preCommit, bind_ok_iff] at checked
  rcases checked with ⟨⟨_, between⟩, inner, last⟩
  rw [ne_eq, ← pending_preCommitSub inner]
  rcases revalues_preCommit last with ⟨_, _, _, revalues, _⟩
  exact revalues.pending

mutual

theorem Begun.preCommit :
    ∀ (result : ConfigResult) {store later : MSPConfigStore MSP} {first middle proposer : Proposer},
      Begun result first middle → Proposals.preCommit services result store middle =
          .ok (later, proposer) →
        Begun result first proposer
  | .mk subResults, store, later, first, middle, proposer, begun, checked => by
    have pending := (pending_of_preCommit checked).1
    simp only [Proposals.preCommit, bind_ok_iff] at checked
    rcases checked with ⟨⟨_, inner⟩, below, last⟩
    have kept := Begun.preCommitSub subResults (List.Subset.refl _) begun pending below
    rcases revalues_preCommit last with ⟨_, _, _, revalues, _⟩
    exact kept.revalue revalues

theorem Begun.preCommitSub :
    ∀ (rest : SubResults) {subResults : SubResults}
      {store later : MSPConfigStore MSP} {first middle proposer : Proposer},
      rest ⊆ subResults → Begun (.mk subResults) first middle → middle.pending ≠ .none →
        Proposals.preCommitSub services rest store middle = .ok (later, proposer) →
        Begun (.mk subResults) first proposer
  | [], _, _, _, _, _, _, _, begun, _, checked => by
    cases checked
    exact begun
  | (key, result) :: rest, subResults, store, later, first, middle, proposer,
    within, begun, pending, checked => by
      simp only [Proposals.preCommitSub, bind_ok_iff, deref_ok_iff] at checked
      rcases checked with ⟨_, found, ⟨_, inner⟩, below, others⟩
      have member := within List.mem_cons_self
      have replaced : Begun (.mk subResults) first (middle.setGroup key inner) := by
        apply begun.setGroup pending member
        intro _ there
        exact Begun.preCommit result (begun.sub pending member there found) below
      exact Begun.preCommitSub rest (fun _ there => within (List.mem_cons_of_mem _ there)) replaced
          (mt Proposer.pending_setGroup_iff.mp pending) others

end

end

/-! ## Proposals for a whole channel -/

section

/-- No handler of a channel has an open proposal. -/
structure Resources.Settled (resources : Resources MSP) : Prop where
  channel : Proposals.Settled resources.channel
  policyManager : resources.policyManager.pending = .none
  mspConfigHandler : resources.mspConfigHandler.pending = none

theorem settled_newResources : (newResources : Resources MSP).Settled := by
  refine ⟨?_, rfl, rfl⟩
  constructor
  · intro key group found
    cases found
  · intro key group found
    cases found

/-- The handlers of a channel, and where their proposals are open. -/
structure Resources.Opened (result : ConfigResult) (first later : Resources MSP) : Prop where
  handler : Proposals.Opened result first.handler later.handler
  manager : later.mspConfigHandler.manager = first.mspConfigHandler.manager
  settled : first.mspConfigHandler.pending = none

theorem Resources.Opened.rollback {first later : Resources MSP}
    (opened : Resources.Opened result first later) :
    later.rollback result = first := by
  rcases first with ⟨_, _, ⟨_, manager⟩⟩
  rcases later with ⟨_, _, ⟨_, _⟩⟩
  have handlers := opened.handler.rollback
  have manager := opened.manager
  have settled := opened.settled
  dsimp only at manager settled
  subst manager settled
  simp only [Resources.rollback, handlers]
  rfl

/-- What a call that proposes a configuration leaves behind. -/
def Resources.Returns (first : Resources MSP)
    (ended : Resources MSP × Outcome HandlerError ConfigResult) : Prop :=
  match ended.2 with
  | .ok result => Resources.Opened result first ended.1
  | .error _ => ended.1 = first
  | .panic => True

variable {resources : Resources MSP}

theorem beginConfig_of_settled (settled : resources.Settled) :
    resources.beginConfig = .ok
        { resources with
          mspConfigHandler := ⟨some ⟨[], none⟩, resources.mspConfigHandler.manager⟩ } := by
  rw [Resources.beginConfig, settled.mspConfigHandler]

theorem returns_propose (settled : resources.Settled) (channelGroup : ConfigGroup) :
    resources.Returns (resources.propose services channelGroup) := by
  have returns := @returns_proposeGroup MSP services channelGroup
      resources.handler ⟨settled.channel, settled.policyManager⟩
  rw [Resources.propose, beginConfig_of_settled settled]
  dsimp only
  rw [Proposed.Returns] at returns
  rw [show ({ resources with
        mspConfigHandler := ⟨some ⟨[], none⟩,
            resources.mspConfigHandler.manager⟩ } : Resources MSP).handler =
      resources.handler from rfl]
  split at returns
  next _ => exact ⟨returns.1, rfl, settled.mspConfigHandler⟩
  next _ _ =>
    have opened : Resources.Opened (proposeGroup services channelGroup
            resources.handler).result resources
          ({ resources with
            mspConfigHandler := ⟨some ⟨[], none⟩,
                resources.mspConfigHandler.manager⟩ } : Resources MSP) :=
      ⟨⟨.closed settled.channel, ⟨rfl, rfl⟩, settled.policyManager⟩, rfl, settled.mspConfigHandler⟩
    rw [returns]
    exact opened.rollback
  next => trivial

theorem Resources.Opened.preCommit {first middle later : Resources MSP}
    (opened : Resources.Opened result first middle)
    (checked : middle.preCommit services result = .ok later) :
    Resources.Opened result first later := by
  simp only [Resources.preCommit, bind_ok_iff, mapError_ok_iff] at checked
  rcases checked with ⟨_, _, ⟨_, _⟩, inner, same⟩
  cases same
  exact ⟨⟨Begun.preCommit result opened.handler.values inner,
        opened.handler.policies, opened.handler.settled⟩,
      opened.manager, opened.settled⟩

/-- A configuration is proposed to all handlers of a channel, or to none. -/
theorem returns_processConfig (settled : resources.Settled) (channelGroup : ConfigGroup) :
    resources.Returns (resources.processConfig services channelGroup) := by
  have returns := @returns_propose MSP services resources settled channelGroup
  rw [Resources.Returns] at returns
  rw [Resources.processConfig]
  split
  next later _ proposed =>
    rw [proposed] at returns
    split
    next _ accepted => exact returns.preCommit accepted
    next => exact returns.rollback
    next => trivial
  next later _ proposed =>
    rw [proposed] at returns
    exact returns
  next => trivial

end

end Fabric.Config.Proposals
