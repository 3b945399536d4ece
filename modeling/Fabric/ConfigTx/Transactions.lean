import Fabric.ConfigTx.RoundTrip
import Fabric.Config.Committed

/-!
# Transactional configuration proposals

The manager of a configuration over the handlers of a channel.  Proposing an
update and validating a configuration open proposals in the handlers and close
them again before they return, with or without an error; applying a
configuration commits them.  The manager is the one whose handlers are given as
functions on resources, instantiated at the handlers of a channel.
-/

namespace Fabric.ConfigTx.Transactions

open Library Outcome ByteString Protos Config.GroupValues Config.Policies Config.Proposals
  Config.Committed ConfigTx.Tree Manager Elements Authorization Compute RoundTrip

section

variable {MSP : Type} (services : Services MSP) (codec : Codec)

/-- The policy of a given name at the group of a path. -/
def policyAt (resources : Resources MSP) (path : List GoString) (modPolicy : GoString) :
    Option (Policy MSP) := do
  let manager ← resources.policyManager.manager path
  Manager.getPolicy resources.policyManager manager modPolicy

/-- The handlers of a channel as functions on its resources. -/
def handlers : Handlers (Resources MSP) where
  getPolicy resources path modPolicy :=
    (policyAt resources path modPolicy).map fun policy signedData =>
      policy.run resources.mspConfigHandler.manager signedData
  processConfig resources channelGroup :=
    match resources.processConfig services channelGroup with
    | (later, .ok result) => (later.commit result).mapError fun _ => ()
    | (_, .error _) => .error ()
    | (_, .panic) => .panic

abbrev ChannelManager (MSP : Type) :=
  ConfigManager (Resources MSP)

def withResources (cm : ChannelManager MSP) (resources : Resources MSP) : ChannelManager MSP :=
  { cm with resources := resources }

/-- Why a manager refuses a configuration. -/
inductive ManagerError where
  | nilEnvelope
  | config (reason : ConfigError)
deriving DecidableEq

section

variable (cm : ChannelManager MSP)

/-- Propose a configuration to the handlers; the proposal is left open. -/
def processConfig (channelGroup : ConfigGroup) :
    ChannelManager MSP × Outcome ConfigError ConfigResult :=
  match cm.resources.processConfig services channelGroup with
  | (later, .ok result) => (withResources cm later, .ok result)
  | (later, .error _) => (withResources cm later, .error .refusedByHandlers)
  | (later, .panic) => (withResources cm later, .panic)

/-- The configuration that an update leads to. -/
def updatedGroup (configUpdateEnv : ConfigUpdateEnvelope) : Outcome ConfigError ConfigGroup := do
  let configMap ← authorizeUpdate (handlers services) codec cm configUpdateEnv
  (configMapToConfig configMap).mapError .channelGroup

/-- Propose an update and abandon the proposal. -/
def proposeConfigUpdate (configtx : Option Envelope) :
    ChannelManager MSP × Outcome ConfigError ConfigEnvelope :=
  match envelopeToConfigUpdate codec configtx >>= updatedGroup services codec cm
  with
  | .error reason => (cm, .error reason)
  | .panic => (cm, .panic)
  | .ok channelGroup =>
    match processConfig services cm channelGroup with
    | (later, .ok result) =>
      (withResources later (later.resources.rollback result),
        .ok ⟨some ⟨cm.sequence + 1, some channelGroup⟩, configtx⟩)
    | (later, .error reason) => (later, .error reason)
    | (later, .panic) => (later, .panic)

/-- The configuration of an envelope, once its update has been authorized. -/
def authorizedGroup (configEnv : ConfigEnvelope) : Outcome ConfigError ConfigGroup := do
  let config ← ofOption .nilConfig configEnv.config
  require (config.sequence = cm.sequence + 1) (.sequence cm.sequence config.sequence)
  let configUpdateEnv ← envelopeToConfigUpdate codec configEnv.lastUpdate
  let channelGroup ← updatedGroup services codec cm configUpdateEnv
  require (SuppliesResult channelGroup config) .differentResult
  .ok channelGroup

/-- Propose the configuration of an envelope; the proposal is left open. -/
def prepareApply (configEnv : ConfigEnvelope) :
    ChannelManager MSP × Outcome ConfigError ConfigResult :=
  match authorizedGroup services codec cm configEnv with
  | .error reason => (cm, .error reason)
  | .panic => (cm, .panic)
  | .ok channelGroup => processConfig services cm channelGroup

def validate (configEnv : Option ConfigEnvelope) : ChannelManager MSP × Outcome ManagerError Unit :=
  match configEnv with
  | none => (cm, .error .nilEnvelope)
  | some configEnv =>
    match prepareApply services codec cm configEnv with
    | (later, .ok result) => (withResources later (later.resources.rollback result), .ok ())
    | (later, .error reason) => (later, .error (.config reason))
    | (later, .panic) => (later, .panic)

def apply (configEnv : Option ConfigEnvelope) : ChannelManager MSP × Outcome ManagerError Unit :=
  match configEnv with
  | none => (cm, .panic)
  | some configEnv =>
    match configEnv.config with
    | none => (cm, .panic)
    | some config =>
      match mapped : mapConfig config.channelGroup with
      | .error reason => (cm, .error (.config (.mapConfig reason)))
      | .panic => (cm, .panic)
      | .ok _ =>
        match prepareApply services codec cm configEnv with
        | (later, .ok result) =>
          match later.resources.commit result with
          | .ok resources => (cm.replace config resources mapped, .ok ())
          | _ => (later, .panic)
        | (later, .error reason) => (later, .error (.config reason))
        | (later, .panic) => (later, .panic)

end

/-! ## Nothing is left open -/

variable {services codec}

theorem withResources_self (cm : ChannelManager MSP) : withResources cm cm.resources = cm :=
  rfl

/-- What a call that proposes a configuration leaves behind. -/
def Returns (first : ChannelManager MSP)
    (ended : ChannelManager MSP × Outcome ConfigError ConfigResult) : Prop :=
  match ended.2 with
  | .ok result => withResources ended.1 (ended.1.resources.rollback result) = first
  | .error _ => ended.1 = first
  | .panic => True

variable {cm : ChannelManager MSP}

section

variable (settled : cm.resources.Settled)
include settled

theorem returns_process (channelGroup : ConfigGroup) :
    Returns cm (processConfig services cm channelGroup) := by
  have returns := @returns_processConfig MSP services cm.resources settled channelGroup
  rw [Resources.Returns] at returns
  rw [processConfig]
  split
  next later result processed =>
    rw [processed] at returns
    show withResources cm (later.rollback result) = cm
    rw [returns.rollback, withResources_self]
  next later _ processed =>
    rw [processed] at returns
    show withResources cm later = cm
    rw [show later = cm.resources from returns, withResources_self]
  next => trivial

theorem returns_prepareApply (configEnv : ConfigEnvelope) :
    Returns cm (prepareApply services codec cm configEnv) := by
  rw [prepareApply]
  split
  next => rfl
  next => trivial
  next => exact returns_process settled _

theorem proposeConfigUpdate_unchanged (configtx : Option Envelope)
    (returned : (proposeConfigUpdate services codec cm configtx).2 ≠ .panic) :
    (proposeConfigUpdate services codec cm configtx).1 = cm := by
  rw [proposeConfigUpdate] at returned ⊢
  split
  next => rfl
  next => rfl
  next channelGroup _ =>
    have returns := @returns_process MSP services cm settled channelGroup
    split
    next later _ processed =>
      rw [processed] at returns
      exact returns
    next later _ processed =>
      rw [processed] at returns
      exact returns
    next later processed => simp_all

theorem validate_unchanged (configEnv : Option ConfigEnvelope)
    (returned : (validate services codec cm configEnv).2 ≠ .panic) :
    (validate services codec cm configEnv).1 = cm := by
  cases configEnv with
  | none => rfl
  | some configEnv =>
    have returns := @returns_prepareApply MSP services codec cm settled configEnv
    rw [validate] at returned ⊢
    split
    next later _ prepared =>
      rw [prepared] at returns
      exact returns
    next later _ prepared =>
      rw [prepared] at returns
      exact returns
    next later prepared =>
      rw [prepared] at returned
      exact (returned rfl).elim

end

/-! ## What is validated is what is applied -/

variable {configEnv : ConfigEnvelope}

variable {later cm : ChannelManager MSP}

theorem exists_resources_of_prepareApply {result : ConfigResult} (settled : cm.resources.Settled)
    (prepared : prepareApply services codec cm configEnv = (later, .ok result)) :
    ∃ channelGroup committed,
      authorizedGroup services codec cm configEnv = .ok channelGroup ∧
        later.resources.commit result = .ok committed ∧
        Manager.prepareApply (handlers services) codec cm configEnv = .ok committed ∧
        committed.Settled ∧
        committed.channel.kind = cm.resources.channel.kind ∧
        Provided services cm.resources.channel.kind channelGroup
          committed.mspConfigHandler.manager ∧
        Holds services cm.resources.policyManager channelGroup committed.handler := by
  rw [prepareApply] at prepared
  split at prepared
  next => cases prepared
  next => cases prepared
  next channelGroup authorized =>
    rw [processConfig] at prepared
    split at prepared
    next _ _ processed =>
      cases prepared
      rcases exists_commit_of_processConfig settled processed with
        ⟨committed, commits, closed, kind, provided, holds⟩
      refine ⟨channelGroup, committed, authorized, commits, ?_, closed, kind, provided, holds⟩
      simp only [authorizedGroup, updatedGroup, bind_ok_iff] at authorized
      rcases authorized with ⟨_, given, _, follows, _, decoded, _, ⟨_, authorized, rebuilt⟩, _,
          supplies, same⟩
      cases same
      simp only [Manager.prepareApply, given, follows, decoded, authorized, rebuilt, supplies,
        ok_bind]
      simp [handlers, processed, commits, mapError]
    next => cases prepared
    next => cases prepared

variable {group : ConfigGroup} {config : Config}

theorem suppliesResult_of_authorizedGroup (present : configEnv.config = some config)
    (authorized : authorizedGroup services codec cm configEnv = .ok group) :
    SuppliesResult group config := by
  simp only [authorizedGroup, present, bind_ok_iff, ofOption_ok_iff, require_ok_iff,
    Option.some.injEq] at authorized
  rcases authorized with ⟨_, rfl, _, _, _, _, _, _, _, supplied, same⟩
  cases same
  exact supplied

/-- A manager whose configuration has been replaced. -/
structure Applied (services : Services MSP)
    (cm : ChannelManager MSP) (config : Config) (group : ConfigGroup)
    (later : ChannelManager MSP) : Prop where
  channelID : later.channelID = cm.channelID
  sequence : later.sequence = config.sequence
  configMap : mapConfig config.channelGroup = .ok later.configMap
  supplied : SuppliesResult group config
  settled : later.resources.Settled
  kind : later.resources.channel.kind = cm.resources.channel.kind
  provided : Provided services cm.resources.channel.kind group
      later.resources.mspConfigHandler.manager
  holds : Holds services cm.resources.policyManager group later.resources.handler

theorem apply_unchanged (settled : cm.resources.Settled)
    {configEnv : Option ConfigEnvelope} {reason : ManagerError}
    (failed : apply services codec cm configEnv = (later, .error reason)) :
    later = cm := by
  cases configEnv with
  | none => cases failed
  | some configEnv =>
    rw [apply] at failed
    split at failed
    next => cases failed
    next _ _ =>
      split at failed
      next =>
        cases failed
        rfl
      next => cases failed
      next =>
        have returns := @returns_prepareApply MSP services codec cm settled configEnv
        split at failed
        next =>
          split at failed
          next => cases failed
          next => cases failed
        next prepared =>
          cases failed
          rw [prepared] at returns
          exact returns
        next => cases failed

theorem applied_of_apply (settled : cm.resources.Settled) {configEnv : Option ConfigEnvelope}
    (applied : apply services codec cm configEnv = (later, .ok ())) :
    ∃ env config group, configEnv = some env ∧ env.config = some config ∧
      authorizedGroup services codec cm env = .ok group ∧
      Applied services cm config group later := by
  cases configEnv with
  | none => cases applied
  | some configEnv =>
    rw [apply] at applied
    split at applied
    next => cases applied
    next config present =>
      split at applied
      next => cases applied
      next => cases applied
      next _ mapped =>
        split at applied
        next _ _ prepared =>
          rcases exists_resources_of_prepareApply settled prepared with
            ⟨group, _, authorized, commits, _, closed, kind, provided, holds⟩
          rw [commits] at applied
          cases applied
          exact ⟨configEnv, config, group, rfl, present, authorized, ⟨rfl, rfl, mapped,
                suppliesResult_of_authorizedGroup present authorized,
                closed, kind, provided, holds⟩⟩
        next => cases applied
        next => cases applied

/--
The managers of a channel, from its first configuration on.  A call that panics
takes the process down.
-/
inductive Reachable (services : Services MSP)
    (codec : Codec) : ChannelManager MSP → Prop where
  | new {envConfig : Option Envelope} {cm : ChannelManager MSP}
      (made : newManagerImpl (handlers services) codec newResources envConfig = .ok cm) :
      Reachable services codec cm
  | propose {cm : ChannelManager MSP} (configtx : Option Envelope)
      (before : Reachable services codec cm)
      (returned : (proposeConfigUpdate services codec cm configtx).2 ≠ .panic) :
      Reachable services codec
        (proposeConfigUpdate services codec cm configtx).1
  | validate {cm : ChannelManager MSP} (configEnv : Option ConfigEnvelope)
      (before : Reachable services codec cm)
      (returned : (Transactions.validate services codec cm configEnv).2 ≠ .panic) :
      Reachable services codec
        (Transactions.validate services codec cm configEnv).1
  | apply {cm : ChannelManager MSP} (configEnv : Option ConfigEnvelope)
      (before : Reachable services codec cm)
      (returned : (Transactions.apply services codec cm configEnv).2 ≠ .panic) :
      Reachable services codec
        (Transactions.apply services codec cm configEnv).1

theorem exists_holds_of_newManagerImpl {envConfig : Option Envelope}
    (made : newManagerImpl (handlers services) codec newResources envConfig = .ok cm) :
    ∃ header configEnv config channelGroup, unmarshalEnvelopeOfType codec envConfig .config
          codec.unmarshalConfigEnvelope = .ok (header, configEnv) ∧
        configEnv.config = some config ∧
        config.channelGroup = some channelGroup ∧
        mapConfig (some channelGroup) = .ok cm.configMap ∧
        cm.resources.Settled ∧ cm.resources.channel.kind = .channel ∧
        Holds services newManager channelGroup cm.resources.handler := by
  simp only [newManagerImpl, bind_ok_iff, mapError_ok_iff, ofOption_ok_iff] at made
  rcases made with ⟨_, _, ⟨header, configEnv⟩, decoded, config, present, channelGroup, held,
      _, _, made⟩
  refine ⟨header, configEnv, config, channelGroup, decoded, present, held, ?_⟩
  split at made
  next configMap mapped =>
    simp only [bind_ok_iff, mapError_ok_iff, handlers] at made
    rcases made with ⟨resources, processed, same⟩
    cases same
    refine ⟨mapped, ?_⟩
    split at processed
    next _ _ accepted =>
      rcases exists_commit_of_processConfig settled_newResources accepted with
        ⟨_, commits, closed, kind, _, holds⟩
      rw [commits] at processed
      cases processed
      exact ⟨closed, kind, holds⟩
    next => cases processed
    next => cases processed
  next => cases made
  next => cases made

theorem Reachable.settled_and_kind (reachable : Reachable services codec cm) :
    cm.resources.Settled ∧ cm.resources.channel.kind = .channel := by
  induction reachable with
  | new made =>
    rcases exists_holds_of_newManagerImpl made with ⟨_, _, _, _, _, _, _, _, settled, kind, _⟩
    exact ⟨settled, kind⟩
  | propose configtx before returned ih =>
    rw [proposeConfigUpdate_unchanged ih.1 configtx returned]
    exact ih
  | validate configEnv before returned ih =>
    rw [validate_unchanged ih.1 configEnv returned]
    exact ih
  | @apply cm configEnv before returned ih =>
    cases ended : Transactions.apply services codec cm configEnv with
    | mk _ outcome =>
      cases outcome with
      | ok _ =>
        rcases applied_of_apply ih.1 ended with ⟨_, _, _, _, _, _, applied⟩
        exact ⟨applied.settled, applied.kind.trans ih.2⟩
      | error _ =>
        rw [apply_unchanged ih.1 ended]
        exact ih
      | panic =>
        rw [ended] at returned
        exact (returned rfl).elim

/-- No handler of a channel has an open proposal between two calls. -/
theorem Reachable.settled (reachable : Reachable services codec cm) :
    cm.resources.Settled :=
  reachable.settled_and_kind.1

/-! ## Configurations in force -/

/-- The trees that the codec decodes list the entries of their maps in order. -/
structure OrderedTrees (codec : Codec) : Prop extends OrderedUpdates codec where
  configs : ∀ content configEnv config group,
      codec.unmarshalConfigEnvelope content = some configEnv →
        configEnv.config = some config → config.channelGroup = some group →
        Ordered group

/-- The tree of the configuration of a manager. -/
structure Current (cm : ChannelManager MSP) (current : ConfigGroup) : Prop where
  mapped : mapConfig (some current) = .ok cm.configMap
  ordered : Ordered current
  present : NilFree current

variable {header : ChannelHeader}

theorem exists_content_of_unmarshalEnvelopeOfType {envelope : Option Envelope}
    (decoded : unmarshalEnvelopeOfType codec envelope .config
        codec.unmarshalConfigEnvelope = .ok (header, configEnv)) :
    ∃ content, codec.unmarshalConfigEnvelope content = some configEnv := by
  simp only [unmarshalEnvelopeOfType, bind_ok_iff, ofOption_ok_iff] at decoded
  rcases decoded with ⟨_, _, _, _, _, _, _, _, _, _, _, found, same⟩
  cases same
  exact ⟨_, found⟩

variable {configUpdateEnv : ConfigUpdateEnvelope}

theorem wellFormed_of_updatedGroup (decodes : OrderedTrees codec)
    {current group : ConfigGroup} (holds : Current cm current)
    (updated : updatedGroup services codec cm configUpdateEnv = .ok group) :
    Ordered group ∧ NilFree group ∧ Mappable group := by
  simp only [updatedGroup, bind_ok_iff, mapError_ok_iff] at updated
  rcases updated with ⟨_, authorized, rebuilt⟩
  exact wellFormed_of_authorizeUpdate decodes.toOrderedUpdates holds.mapped
      holds.ordered authorized rebuilt

/-- The configuration of a channel has no nil entries. -/
theorem Reachable.exists_current (decodes : OrderedTrees codec)
    (reachable : Reachable services codec cm) :
    ∃ current, Current cm current := by
  induction reachable with
  | new made =>
    rcases exists_holds_of_newManagerImpl made with
      ⟨_, configEnv, config, group, decoded, present, held, mapped, _, _, holds⟩
    rcases exists_content_of_unmarshalEnvelopeOfType decoded with ⟨content, decoded⟩
    have ordered := decodes.configs content configEnv config group decoded present held
    exact ⟨group, mapped, ordered, holds.nilFree ordered⟩
  | propose configtx before returned current =>
    rw [proposeConfigUpdate_unchanged before.settled configtx returned]
    exact current
  | validate configEnv before returned current =>
    rw [validate_unchanged before.settled configEnv returned]
    exact current
  | @apply cm configEnv before returned current =>
    cases ended : Transactions.apply services codec cm configEnv with
    | mk _ outcome =>
      cases outcome with
      | ok _ =>
        rcases applied_of_apply before.settled ended with ⟨_, _, _, _, _, authorized, applied⟩
        rcases current with ⟨_, holds⟩
        simp only [authorizedGroup, bind_ok_iff] at authorized
        rcases authorized with ⟨_, _, _, _, _, _, _, updated, _, _, same⟩
        cases same
        rcases wellFormed_of_updatedGroup decodes holds updated with ⟨ordered, present, _⟩
        rcases applied.supplied with ⟨supplied, held, equal⟩
        have transfers := transfers_of_configGroupEqual _ supplied equal
        refine ⟨supplied, ?_, transfers.2.2 ordered, transfers.2.1 present⟩
        rw [← held]
        exact applied.configMap
      | error _ =>
        rw [apply_unchanged before.settled ended]
        exact current
      | panic =>
        rw [ended] at returned
        exact (returned rfl).elim

/-! ## Main results -/

variable {cm : ChannelManager MSP}

/--
Accepted updates change only what their signatures authorize.  An element of the
new configuration is the current one, or replaces the current one at its next
version under the policy of the current one, or is new at version zero below a
group that is replaced in this way; an element is removed only below such a
group.  Versions are counted in 64 bits.
-/
theorem authorizeUpdate_sound (decodes : OrderedTrees codec) {cm : ChannelManager MSP}
    (reachable : Reachable services codec cm)
    {configUpdateEnv : ConfigUpdateEnvelope} {configMap : ConfigMap} {updated : ConfigGroup}
    (authorized : authorizeUpdate (handlers services) codec cm
        configUpdateEnv = .ok configMap)
    (rebuilt : configMapToConfig configMap = .ok updated) :
    ∃ current signedData, Current cm current ∧ asSignedData codec configUpdateEnv = .ok signedData ∧
        (∀ address element, elementAt updated address = some element →
          (∃ existing, elementAt current address = some existing ∧ SameElement existing element) ∨
            Modified (handlers services) cm signedData current updated address ∨
            (elementAt current address = none ∧ (address.comparable element).version = 0 ∧
              ModifiedAbove (handlers services) cm signedData
                current current updated address)) ∧
        (∀ address existing, elementAt current address = some existing →
          elementAt updated address = none →
          ModifiedAbove (handlers services) cm signedData updated
            current updated address) := by
  rcases reachable.exists_current decodes with ⟨current, holds⟩
  rcases authorized_of_authorizeUpdate decodes.toOrderedUpdates holds.mapped
      holds.ordered holds.present authorized rebuilt with
    ⟨signedData, signed, changes⟩
  exact ⟨current, signedData, holds, signed, changes⟩

end

namespace Sample

def policyName : GoString := .letter 'P'

/-- An application group with an organization that defines a provider. -/
def members : ConfigGroups :=
  .present applicationGroupKey
    (.mk 0 (.present (.letter 'O')
        (.mk 0 .nil [(mspKey, some ⟨0, none, policyName⟩)] [] policyName) .nil)
      [] [] policyName)
    .nil

/-- A channel with the given addresses of orderers. -/
def tree (groups : ConfigGroups) (version : UInt64) (addresses : Bytes) : ConfigGroup :=
  .mk 0 groups [(blockDataHashingStructureKey, some ⟨0, none, policyName⟩),
      (hashingAlgorithmKey, some ⟨0, none, policyName⟩),
      (ordererAddressesKey, some ⟨version, some addresses, policyName⟩)]
    [(policyName, some ⟨0, some ⟨policyTypeSignature, none⟩, policyName⟩)]
    policyName

def valueCodec : ValueCodec where
  unmarshalHashingAlgorithm _ := some sha256Name
  unmarshalBlockDataHashingStructure _ := some 4294967295
  unmarshalOrdererAddresses bytes := some [⟨bytes⟩]
  unmarshalConsortium _ := none
  unmarshalConsensusType _ := none
  unmarshalBatchSize _ := none
  unmarshalBatchTimeout _ := none
  unmarshalKafkaBrokers _ := none
  unmarshalChannelRestrictions _ := none
  unmarshalAnchorPeers _ := none
  unmarshalMSPConfig _ := some ⟨0, none⟩
  unmarshalPolicy _ := none

/-- Every signature policy is satisfied. -/
def services : Services Unit where
  newPolicy _ := some ⟨true, fun _ _ => true⟩
  unmarshalImplicitMetaPolicy _ := none
  codec := valueCodec
  parseDuration _ := none
  setup _ := .ok ()
  getIdentifier _ := .letter 'M'

/-- The codec of a configuration and of an update, told apart by a header. -/
def codec (groups : ConfigGroups) (update : ConfigUpdate) : Codec :=
  { Codec.rejecting with
    unmarshalPayload := fun bytes => some ⟨some ⟨some bytes, none⟩, none⟩
    unmarshalChannelHeader := fun bytes =>
      some ⟨if bytes = [] then .config else .configUpdate, .letter 'c', .empty, 0, none⟩
    unmarshalConfigEnvelope := fun _ => some ⟨some ⟨0, some (tree groups 0 [])⟩, none⟩
    unmarshalConfigUpdateEnvelope := fun _ => some ⟨none, []⟩
    unmarshalConfigUpdate := fun _ => some update
    unmarshalSignatureHeader := fun _ => some ⟨none, none⟩ }

/-- New addresses of orderers. -/
def update : ConfigUpdate :=
  ⟨.letter 'c', some (.mk 0 .nil [] [] .empty),
    some (.mk 0 .nil [(ordererAddressesKey, some ⟨1, some [1], policyName⟩)] [] .empty)⟩

/-- The envelope of the update. -/
def configtx : Envelope := ⟨some [1], none⟩

/-- The configuration that the update leads to. -/
def configEnv : ConfigEnvelope :=
  ⟨some ⟨1, some (tree members 1 [1])⟩, some configtx⟩

theorem orderedTrees_codec {groups : ConfigGroups} {update : ConfigUpdate}
    (orderedGroups : OrderedGroups groups)
    (keys : (entryKeys (groupEntries groups)).Pairwise (· < ·))
    (ordered : ∀ group, update.writeSet = some group → Ordered group) :
    OrderedTrees (codec groups update) := by
  constructor
  · constructor
    intro content decoded same group held
    cases same
    exact ordered group held
  · intro content _ _ group decoded present held
    cases decoded
    cases present
    cases held
    refine ⟨orderedGroups, keys, ?_, ?_⟩ <;>
      simp only [entryKeys, List.map_cons, List.map_nil] <;> decide

theorem ordered_update : ∀ group, update.writeSet = some group → Ordered group := by
  rintro group ⟨⟩
  simp [Ordered, OrderedGroups, groupEntries, entryKeys]

theorem orderedTrees_nil : OrderedTrees (codec .nil update) :=
  orderedTrees_codec trivial .nil ordered_update

theorem exists_authorizeUpdate :
    ∃ (cm : ChannelManager Unit) (configMap : ConfigMap) (updated : ConfigGroup),
      newManagerImpl (handlers services) (codec .nil update) newResources
          (some ⟨none, none⟩) = .ok cm ∧
        authorizeUpdate (handlers services) (codec .nil update) cm ⟨none, []⟩ =
          .ok configMap ∧
        configMapToConfig configMap = .ok updated := by
  have evaluated : ∃ cm, newManagerImpl (handlers services) (codec .nil update)
        newResources (some ⟨none, none⟩) = .ok cm ∧ ∃ configMap,
          authorizeUpdate (handlers services) (codec .nil update) cm ⟨none, []⟩ =
            .ok configMap ∧
          ∃ updated, configMapToConfig configMap = .ok updated ∧ True := by
    decide +kernel
  rcases evaluated with ⟨cm, made, configMap, authorized, updated, rebuilt, _⟩
  exact ⟨cm, configMap, updated, made, authorized, rebuilt⟩

end Sample

/-- An update of the sample channel that is authorized. -/
theorem authorizeUpdate_sound_sample :
    ∃ (update : ConfigUpdate) (cm : ChannelManager Unit)
      (configMap : ConfigMap) (updated current : ConfigGroup),
      authorizeUpdate (handlers Sample.services)
          (Sample.codec .nil update) cm ⟨none, []⟩ = .ok configMap ∧
        configMapToConfig configMap = .ok updated ∧ Current cm current := by
  rcases Sample.exists_authorizeUpdate with ⟨cm, configMap, updated, made, authorized, rebuilt⟩
  rcases authorizeUpdate_sound Sample.orderedTrees_nil (.new made) authorized rebuilt with
    ⟨current, _, holds, _⟩
  exact ⟨_, cm, configMap, updated, current, authorized, rebuilt, holds⟩

end Fabric.ConfigTx.Transactions
