import Fabric.ConfigTx.Elements

/-!
# The configuration manager of a channel

A configuration transaction carries a whole new configuration together with
the signed update that led to it.  The manager computes the configuration that
the update leads to from its own, compares it with the one in the transaction,
and proposes it to the handlers of values and policies.  `validate` then rolls
the proposal back; `apply` commits it and replaces the current configuration.

The handlers are a parameter.  They say which policy guards an element, and
what becomes of the resources of the channel when a configuration is proposed
and committed; a proposal that is rolled back leaves the resources unchanged.
-/

namespace Fabric.ConfigTx.Manager

open Std (ExtTreeMap)
open Library Outcome ByteString Protos ConfigTx.Tree ConfigTx.Elements

/-! ## Managers -/

/-- Why an update is refused. -/
inductive ConfigError where
  | nilConfig
  | sequence (current proposed : UInt64)
  | lastUpdate (reason : DecodeError)
  | configUpdate
  | wrongChannel (update current : GoString)
  | readSet (reason : ConfigMapError)
  | notInConfig (name : GoString)
  | readVersion (name : GoString) (expected existing : UInt64)
  | writeSet (reason : ConfigMapError)
  | signatureHeader
  | emptyDeltaSet
  | modPolicy (name : GoString)
  | versionOfNew (name : GoString) (version : UInt64)
  | version (name : GoString) (version existing : UInt64)
  | missingPolicy (modPolicy name : GoString)
  | policyNotSatisfied (name : GoString)
  | notInProposedConfig (name : GoString)
  | channelGroup (reason : ConfigMapError)
  | differentResult
  | refusedByHandlers
  | mapConfig (reason : ConfigMapError)
deriving DecidableEq

/-- The handlers of values and policies of a channel. -/
structure Handlers (Resources : Type) where
  /-- The policy of a given name of the policy manager at a path. -/
  getPolicy : Resources → List GoString → GoString → Option (List SignedData → Outcome Unit Unit)
  /-- The resources after a configuration has been proposed and committed. -/
  processConfig : Resources → ConfigGroup → Outcome Unit Resources

/-- The current configuration, which was flattened from a tree. -/
structure ConfigManager (Resources : Type) where
  channelID : GoString
  sequence : UInt64
  configMap : ConfigMap
  resources : Resources
  mapped : ∃ group, mapConfig group = .ok configMap

theorem mapConfig_none : ∃ group, mapConfig group = .ok ∅ :=
  ⟨none, rfl⟩

/-! ## Authorizing an update -/

/-- The parts of a path name between separators. -/
def splitPath (text : Bytes) : List GoString := (text.splitOn 47).map GoString.mk

def trimPath : Bytes → Bytes
  | 47 :: rest => rest
  | text => text

/-- Checks the names on a policy's path. -/
def validateModPolicy (modPolicy : GoString) : Outcome ConfigIDError Unit := do
  require (modPolicy ≠ .empty) .empty
  (splitPath (trimPath modPolicy.bytes)).forM validateConfigID

/-- What each signature of an update covers. -/
def asSignedData (codec : Codec) (env : ConfigUpdateEnvelope) :
    Outcome ConfigError (List SignedData) :=
  env.signatures.mapM fun configSig => do
    let sigHeader ← ofOption .signatureHeader
        (codec.unmarshalSignatureHeader configSig.signatureHeader.bytes)
    pure
      { data := configSig.signatureHeader.bytes ++ env.configUpdate.bytes
        identity := sigHeader.creator
        signature := configSig.signature }

/-- Compares the versions read with those in force. -/
def verifyReadSet (configMap readSet : ConfigMap) : Outcome ConfigError Unit :=
  readSet.toList.forM fun entry => do
    let existing ← ofOption (.notInConfig entry.1) configMap[entry.1]?
    require (existing.version = entry.2.version)
      (.readVersion entry.1 entry.2.version existing.version)

/-- The elements of the write set that are not in the read set as they are. -/
def computeDeltaSet (readSet writeSet : ConfigMap) : ConfigMap :=
  writeSet.filter fun name value =>
    match readSet[name]? with
    | some readVal => readVal.version != value.version
    | none => true

/-- The map after an update. -/
def computeUpdateResult (configMap updatedConfig : ConfigMap) : ConfigMap :=
  configMap ∪ updatedConfig

/-- Looks for each written name in the result. -/
def verifyFullProposedConfig (writeSet fullProposedConfig : ConfigMap) : Outcome ConfigError Unit :=
  writeSet.keys.forM fun name => require (name ∈ fullProposedConfig) (.notInProposedConfig name)

section

variable {Resources : Type} (handlers : Handlers Resources) (codec : Codec)
  (cm : ConfigManager Resources)

/-- The policy manager of an element, below the root; that of a group is its own. -/
def policyPath (item : Comparable) (managers : List GoString) : List GoString :=
  match item.element with
  | .group _ => managers ++ [item.key]
  | _ => managers

/--
The policy that guards an element.  The path of the element is sliced from its
second part on, which panics for the root group, whose path is empty.
-/
def policyForItem (item : Comparable) :
    Outcome ConfigError (Option (List SignedData → Outcome Unit Unit)) :=
  match item.path with
  | [] => .panic
  | _ :: managers =>
    .ok (handlers.getPolicy cm.resources (policyPath item managers) item.modPolicy)

/-- Checks one changed element and who signed for it. -/
def verifyDelta (signedData : List SignedData) (entry : GoString × Comparable) :
    Outcome ConfigError Unit := do
  (validateModPolicy entry.2.modPolicy).mapError fun _ => .modPolicy entry.1
  match cm.configMap[entry.1]? with
  | none => require (entry.2.version = 0) (.versionOfNew entry.1 entry.2.version)
  | some existing => do
      require (entry.2.version = existing.version + 1)
        (.version entry.1 entry.2.version existing.version)
      let found ← policyForItem handlers cm existing
      let policy ← ofOption (.missingPolicy existing.modPolicy entry.1) found
      (policy signedData).mapError fun _ => .policyNotSatisfied entry.1

/-- Check the changed elements; the order of the checks is not specified. -/
def verifyDeltaSet (deltaSet : ConfigMap) (signedData : List SignedData) :
    Outcome ConfigError Unit := do
  require (deltaSet.isEmpty = false) .emptyDeltaSet
  deltaSet.toList.forM (verifyDelta handlers cm signedData)

/-- The configuration map that a sufficiently signed update leads to. -/
def authorizeUpdate (configUpdateEnv : ConfigUpdateEnvelope) : Outcome ConfigError ConfigMap := do
  let configUpdate ← ofOption .configUpdate
      (codec.unmarshalConfigUpdate configUpdateEnv.configUpdate.bytes)
  require (configUpdate.channelId = cm.channelID)
    (.wrongChannel configUpdate.channelId cm.channelID)
  let readSet ← (mapConfig configUpdate.readSet).mapError .readSet
  verifyReadSet cm.configMap readSet
  let writeSet ← (mapConfig configUpdate.writeSet).mapError .writeSet
  let deltaSet := computeDeltaSet readSet writeSet
  let signedData ← asSignedData codec configUpdateEnv
  verifyDeltaSet handlers cm deltaSet signedData
  let fullProposedConfig := computeUpdateResult cm.configMap deltaSet
  verifyFullProposedConfig writeSet fullProposedConfig
  .ok fullProposedConfig

/-- Decodes a configuration update. -/
def envelopeToConfigUpdate (configtx : Option Envelope) :
    Outcome ConfigError ConfigUpdateEnvelope := do
  let (_, configUpdateEnv) ← (unmarshalEnvelopeOfType codec configtx .configUpdate
      codec.unmarshalConfigUpdateEnvelope).mapError .lastUpdate
  .ok configUpdateEnv

/-! ## Validating and applying a configuration -/

/-- The configuration in the envelope is the one its update leads to. -/
def SuppliesResult (channelGroup : ConfigGroup) (config : Config) : Prop :=
  ∃ group, config.channelGroup = some group ∧ configGroupEqual channelGroup group = true

instance (channelGroup : ConfigGroup) (config : Config) :
    Decidable (SuppliesResult channelGroup config) :=
  match supplied : config.channelGroup with
  | none => isFalse (by simp [SuppliesResult, supplied])
  | some group =>
    decidable_of_iff (configGroupEqual channelGroup group = true)
      (by simp [SuppliesResult, supplied])

/-- The resources that the configuration leads to once it is committed. -/
def prepareApply (configEnv : ConfigEnvelope) : Outcome ConfigError Resources := do
  let config ← ofOption .nilConfig configEnv.config
  require (config.sequence = cm.sequence + 1) (.sequence cm.sequence config.sequence)
  let configUpdateEnv ← envelopeToConfigUpdate codec configEnv.lastUpdate
  let configMap ← authorizeUpdate handlers codec cm configUpdateEnv
  let channelGroup ← (configMapToConfig configMap).mapError .channelGroup
  require (SuppliesResult channelGroup config) .differentResult
  (handlers.processConfig cm.resources channelGroup).mapError fun _ => .refusedByHandlers

/-- Checks a configuration without applying it. -/
def validate (configEnv : ConfigEnvelope) : Outcome ConfigError Unit := do
  let _ ← prepareApply handlers codec cm configEnv
  .ok ()

def ConfigManager.replace (config : Config) (resources : Resources) {configMap : ConfigMap}
    (mapped : mapConfig config.channelGroup = .ok configMap) :
    ConfigManager Resources where
  channelID := cm.channelID
  sequence := config.sequence
  configMap := configMap
  resources := resources
  mapped := ⟨config.channelGroup, mapped⟩

/-- Puts a configuration in force. -/
def apply (configEnv : ConfigEnvelope) : Outcome ConfigError (ConfigManager Resources) :=
  match configEnv.config with
  | none => .panic
  | some config =>
    match mapped : mapConfig config.channelGroup with
    | .ok _ => do
        let resources ← prepareApply handlers codec cm configEnv
        .ok (cm.replace config resources mapped)
    | .error reason => .error (.mapConfig reason)
    | .panic => .panic

/-! ## What is validated can be applied -/

theorem validMap_computeDeltaSet {readSet writeSet : ConfigMap} (valid : ValidMap writeSet) :
    ValidMap (computeDeltaSet readSet writeSet) := by
  intro name cg found
  rw [computeDeltaSet, ExtTreeMap.getElem?_filter', Option.filter_eq_some_iff] at found
  exact valid name cg found.1

theorem forall_computeUpdateResult {Property : GoString → Comparable → Prop}
    {configMap updatedConfig : ConfigMap}
    (holds : ∀ (name : GoString) cg, configMap[name]? = some cg → Property name cg)
    (updated : ∀ (name : GoString) cg, updatedConfig[name]? = some cg → Property name cg) :
    ∀ (name : GoString) cg, (computeUpdateResult configMap updatedConfig)[name]? = some cg →
      Property name cg := by
  intro name cg found
  rw [computeUpdateResult, ExtTreeMap.getElem?_union, Option.or_eq_some_iff] at found
  rcases found with changed | ⟨_, kept⟩
  · exact updated name cg changed
  · exact holds name cg kept

variable {handlers codec cm}

theorem validMap_authorizeUpdate {configUpdateEnv : ConfigUpdateEnvelope} {configMap : ConfigMap}
    (authorized : authorizeUpdate handlers codec cm configUpdateEnv = .ok configMap) :
    ValidMap configMap := by
  simp only [authorizeUpdate, bind_ok_iff, mapError_ok_iff, Outcome.ok.injEq] at authorized
  rcases authorized with ⟨_, _, _, _, _, _, _, _, _, written, _, _, _, _, _, _, rfl⟩
  rcases cm.mapped with ⟨_, mapped⟩
  apply forall_computeUpdateResult (validMap_mapConfig mapped)
  exact validMap_computeDeltaSet (validMap_mapConfig written)

variable {configEnv : ConfigEnvelope}

theorem exists_mapConfig_of_prepareApply {resources : Resources}
    (prepared : prepareApply handlers codec cm configEnv = .ok resources) :
    ∃ config configMap, configEnv.config = some config ∧
        mapConfig config.channelGroup = .ok configMap := by
  simp only [prepareApply, bind_ok_iff, mapError_ok_iff, ofOption_ok_iff,
    require_ok_iff] at prepared
  rcases prepared with ⟨config, present, _, _, _, _, configMap, authorized, channelGroup,
      rebuilt, _, supplies, _⟩
  rcases supplies with ⟨_, supplied, same⟩
  have mappable := mappable_recurseConfigMap (validMap_authorizeUpdate authorized) _ rebuilt
  rcases exists_mapConfig ((transfers_of_configGroupEqual _ _ same).1 mappable) with ⟨later, mapped⟩
  rw [← supplied] at mapped
  exact ⟨config, later, present, mapped⟩

theorem exists_apply_of_validate (validated : validate handlers codec cm configEnv = .ok ()) :
    ∃ later, apply handlers codec cm configEnv = .ok later := by
  simp only [validate, bind_ok_iff] at validated
  rcases validated with ⟨resources, prepared, _⟩
  rcases exists_mapConfig_of_prepareApply prepared with ⟨config, _, present, mapped⟩
  refine ⟨cm.replace config resources mapped, ?_⟩
  rw [apply, present]
  dsimp only
  split
  next _ same =>
    rw [prepared]
    rw [mapped] at same
    cases same
    rfl
  next _ failed =>
    rw [mapped] at failed
    cases failed
  next failed =>
    rw [mapped] at failed
    cases failed

theorem sequence_of_apply {later : ConfigManager Resources}
    (applied : apply handlers codec cm configEnv = .ok later) :
    later.sequence = cm.sequence + 1 := by
  rw [apply] at applied
  split at applied
  · cases applied
  next config present =>
    split at applied
    next _ _ =>
      rw [bind_ok_iff] at applied
      rcases applied with ⟨_, prepared, same⟩
      cases same
      simp only [prepareApply, present, bind_ok_iff, ofOption_ok_iff, require_ok_iff,
        Option.some.injEq] at prepared
      rcases prepared with ⟨_, rfl, _, numbered, _⟩
      exact numbered
    next => cases applied
    next => cases applied

end

/-! ## New managers -/

/-- Why no manager is made of a configuration. -/
inductive NewManagerError where
  | nilEnvelope
  | badEnvelope (reason : DecodeError)
  | nilConfig
  | nilChannelGroup
  | badChannelID (reason : ConfigIDError)
  | mapConfig (reason : ConfigMapError)
  | refusedByHandlers
deriving DecidableEq

/-- The characters that the name of a channel may start with. -/
def channelInitialChars (character : UInt8) : Bool :=
  97 ≤ character && character ≤ 122

def channelAllowedChars (character : UInt8) : Bool :=
  channelInitialChars character || (48 ≤ character && character ≤ 57) ||
    character == 46 || character == 45

/-- The leftmost part of a text that could name a channel. -/
def findChannelString (text : Bytes) : Bytes :=
  match text.dropWhile fun character => !channelInitialChars character with
  | [] => []
  | initial :: rest => initial :: rest.takeWhile channelAllowedChars

/-- Checks the name of a channel. -/
def validateChannelID (channelID : GoString) : Outcome ConfigIDError Unit := do
  require (channelID.bytes ≠ []) .empty
  require (channelID.bytes.length ≤ maxLength) .tooLong
  require ((findChannelString channelID.bytes).length = channelID.bytes.length) .illegalCharacters

section

variable {Resources : Type} (handlers : Handlers Resources) (codec : Codec)

/-- The manager of a configuration, over resources without a configuration. -/
def newManagerImpl (initializer : Resources) (envConfig : Option Envelope) :
    Outcome NewManagerError (ConfigManager Resources) := do
  require envConfig.isSome .nilEnvelope
  let (header, configEnv) ← (unmarshalEnvelopeOfType codec envConfig .config
      codec.unmarshalConfigEnvelope).mapError .badEnvelope
  let config ← ofOption .nilConfig configEnv.config
  let channelGroup ← ofOption .nilChannelGroup config.channelGroup
  (validateChannelID header.channelId).mapError .badChannelID
  match mapped : mapConfig (some channelGroup) with
  | .ok configMap => do
      let resources ← (handlers.processConfig initializer channelGroup).mapError
          fun _ => .refusedByHandlers
      .ok
        { channelID := header.channelId
          sequence := config.sequence
          configMap := configMap
          resources := resources
          mapped := ⟨some channelGroup, mapped⟩ }
  | .error reason => .error (.mapConfig reason)
  | .panic => .panic

variable {handlers codec}

end

end Fabric.ConfigTx.Manager
