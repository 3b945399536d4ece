import Fabric.Config.Policies

/-!
# Values of the groups of a channel configuration

Each kind of group of a configuration accepts its own keys, decodes their
values into its own messages and checks them before they are committed.  The
organizations define membership service providers, which are collected over the
whole configuration.

The codec of the messages, the parser of durations and the setup of a provider
are parameters.
-/

namespace Fabric.Config.GroupValues

open Library Outcome ByteString Protos

/-! ## Messages -/

/-- An endpoint that other organizations reach a peer at. -/
structure AnchorPeer where
  host : GoString
  port : Int32
deriving DecidableEq

/-- The limits of a batch of messages. -/
structure BatchSize where
  maxMessageCount : UInt32
  absoluteMaxBytes : UInt32
  preferredMaxBytes : UInt32
deriving DecidableEq

/-- The definition of a provider, which its type decodes. -/
structure MSPConfig where
  type : Int32
  config : Slice
deriving DecidableEq

/-- The codec of the values of all groups. -/
structure ValueCodec where
  unmarshalHashingAlgorithm : Bytes → Option GoString
  unmarshalBlockDataHashingStructure : Bytes → Option UInt32
  unmarshalOrdererAddresses : Bytes → Option (List GoString)
  unmarshalConsortium : Bytes → Option GoString
  unmarshalConsensusType : Bytes → Option GoString
  unmarshalBatchSize : Bytes → Option BatchSize
  unmarshalBatchTimeout : Bytes → Option GoString
  unmarshalKafkaBrokers : Bytes → Option (List GoString)
  unmarshalChannelRestrictions : Bytes → Option UInt64
  unmarshalAnchorPeers : Bytes → Option (List AnchorPeer)
  unmarshalMSPConfig : Bytes → Option MSPConfig
  unmarshalPolicy : Bytes → Option CommonPolicy

/-- What the handlers of a configuration are made with. -/
structure Services (MSP : Type) extends Policies.Providers MSP where
  codec : ValueCodec
  parseDuration : GoString → Option Int
  /-- Create a provider and set it up. -/
  setup : MSPConfig → Outcome Unit MSP
  getIdentifier : MSP → GoString

/-- Why the values of a group are refused. -/
inductive ValueError where
  | unexpectedKey (key : GoString)
  | undecodable (key : GoString)
  | disallowedGroup (group : GoString)
  | noSubgroups
  | groupKind (group : GoString)
  | hashingAlgorithm (name : GoString)
  | hashingStructureWidth
  | noOrdererAddresses
  | consensusType (current proposed : GoString)
  | maxMessageCount
  | absoluteMaxBytes
  | preferredMaxBytes
  | preferredAboveAbsolute (preferred absolute : UInt32)
  | batchTimeout
  | nonPositiveBatchTimeout (timeout : Int)
  | brokerEntry (broker : GoString)
  | mspType (type : Int32)
  | mspSetup
  | differentMSPs (id : GoString)
  | emptyMSPID (org : GoString)
  | changedMSPID (org current proposed : GoString)
deriving DecidableEq

/-! ## Groups and their values -/

/-- The kinds of groups; organizations know the name they are referred to by. -/
inductive Kind where
  | channel
  | application
  | applicationOrg (name : GoString)
  | orderer
  | organization (name : GoString)
  | consortiums
  | consortium
deriving DecidableEq

/-- The name of an organization. -/
def Kind.name : Kind → GoString
  | .applicationOrg name
  | .organization name => name
  | _ => .empty

/-- The functions that blocks can be hashed with. -/
inductive HashFunction where
  | sha256
  | sha3256
deriving DecidableEq

/-- The messages of the channel group. -/
structure ChannelProtos where
  hashingAlgorithm : GoString
  blockDataHashingStructure : UInt32
  ordererAddresses : List GoString
  consortium : GoString
deriving DecidableEq

/-- The messages of the orderer group. -/
structure OrdererProtos where
  consensusType : GoString
  batchSize : BatchSize
  batchTimeout : GoString
  kafkaBrokers : List GoString
  channelRestrictions : UInt64
deriving DecidableEq

/-- The values of an organization; the identifier is set by the validation. -/
structure OrganizationConfig where
  msp : MSPConfig
  mspID : GoString
deriving DecidableEq

/--
The values of a group.  The handlers of the groups below it, to which the source
keeps references beside the values, are kept in the tree of handlers.
-/
inductive Values where
  | channel (protos : ChannelProtos) (hashing : Option HashFunction)
  | application
  | applicationOrg (anchorPeers : List AnchorPeer) (org : OrganizationConfig)
  | orderer (protos : OrdererProtos) (batchTimeout : Int)
  | organization (org : OrganizationConfig)
  | consortiums
  | consortium (channelCreationPolicy : CommonPolicy)
deriving DecidableEq

/-- An organization whose messages are empty. -/
def emptyOrganization : OrganizationConfig :=
  ⟨⟨0, none⟩, .empty⟩

/-- Values whose messages are all empty. -/
def Kind.allocate : Kind → Values
  | .channel => .channel ⟨.empty, 0, [], .empty⟩ none
  | .application => .application
  | .applicationOrg _ => .applicationOrg [] emptyOrganization
  | .orderer => .orderer ⟨.empty, ⟨0, 0, 0⟩, .empty, [], 0⟩ 0
  | .organization _ => .organization emptyOrganization
  | .consortiums => .consortiums
  | .consortium => .consortium ⟨0, none⟩

/-- The name of the application group. -/
def applicationGroupKey : GoString := .ascii "Application"

/-- The name of the orderer group. -/
def ordererGroupKey : GoString := .ascii "Orderer"

/-- The name of the group of consortiums. -/
def consortiumsGroupKey : GoString := .ascii "Consortiums"

/-- The kind of the group of a given name below a group. -/
def Kind.newGroup (name : GoString) : Kind → Outcome ValueError Kind
  | .channel =>
    if name = applicationGroupKey then .ok .application
    else if name = ordererGroupKey then .ok .orderer
    else if name = consortiumsGroupKey then .ok .consortiums
    else .error (.disallowedGroup name)
  | .application => .ok (.applicationOrg name)
  | .applicationOrg _ => .error .noSubgroups
  | .orderer => .ok (.organization name)
  | .organization _ => .error .noSubgroups
  | .consortiums => .ok .consortium
  | .consortium => .ok (.organization name)

/-! ## Decoding values -/

/-- The key of the hash function. -/
def hashingAlgorithmKey : GoString := .ascii "HashingAlgorithm"

/-- The key of the width of the hash tree. -/
def blockDataHashingStructureKey : GoString := .ascii "BlockDataHashingStructure"

/-- The key of the addresses of the orderers. -/
def ordererAddressesKey : GoString := .ascii "OrdererAddresses"

/-- The key of the consortium of a channel. -/
def consortiumKey : GoString := .ascii "Consortium"

/-- The key of the kind of consensus. -/
def consensusTypeKey : GoString := .ascii "ConsensusType"

/-- The key of the limits of a batch. -/
def batchSizeKey : GoString := .ascii "BatchSize"

/-- The key of the time that a batch may wait. -/
def batchTimeoutKey : GoString := .ascii "BatchTimeout"

/-- The key of the addresses of the brokers. -/
def kafkaBrokersKey : GoString := .ascii "KafkaBrokers"

/-- The key of the limit on the number of channels. -/
def channelRestrictionsKey : GoString := .ascii "ChannelRestrictions"

/-- The key of the anchor peers of an organization. -/
def anchorPeersKey : GoString := .ascii "AnchorPeers"

/-- The key of the provider of an organization. -/
def mspKey : GoString := .ascii "MSP"

/-- The key of the policy for new channels. -/
def channelCreationPolicyKey : GoString := .ascii "ChannelCreationPolicy"

section

variable (codec : ValueCodec)

/-- Decode a value and store its message. -/
def decodeInto {Message : Type} (key : GoString)
    (unmarshal : Bytes → Option Message) (store : Message → Values)
    (value : Slice) : Outcome ValueError Values := do
  let message ← ofOption (.undecodable key) (unmarshal value.bytes)
  .ok (store message)

/-- Decode a value of the channel group. -/
def deserializeChannel (protos : ChannelProtos)
    (hashing : Option HashFunction) (key : GoString) (value : Slice) :
    Outcome ValueError Values :=
  if key = hashingAlgorithmKey then
    decodeInto key codec.unmarshalHashingAlgorithm
      (fun name => .channel { protos with hashingAlgorithm := name } hashing)
      value
  else if key = blockDataHashingStructureKey then
    decodeInto key codec.unmarshalBlockDataHashingStructure (fun width =>
        .channel { protos with blockDataHashingStructure := width } hashing)
      value
  else if key = ordererAddressesKey then
    decodeInto key codec.unmarshalOrdererAddresses (fun addresses =>
        .channel { protos with ordererAddresses := addresses } hashing)
      value
  else if key = consortiumKey then
    decodeInto key codec.unmarshalConsortium
      (fun name => .channel { protos with consortium := name } hashing)
      value
  else
    .error (.unexpectedKey key)

/-- Decode a value of the orderer group. -/
def deserializeOrderer (protos : OrdererProtos) (timeout : Int)
    (key : GoString) (value : Slice) : Outcome ValueError Values :=
  if key = consensusTypeKey then
    decodeInto key codec.unmarshalConsensusType
      (fun type => .orderer { protos with consensusType := type } timeout)
      value
  else if key = batchSizeKey then
    decodeInto key codec.unmarshalBatchSize
      (fun size => .orderer { protos with batchSize := size } timeout)
      value
  else if key = batchTimeoutKey then
    decodeInto key codec.unmarshalBatchTimeout
      (fun text => .orderer { protos with batchTimeout := text } timeout)
      value
  else if key = kafkaBrokersKey then
    decodeInto key codec.unmarshalKafkaBrokers
      (fun brokers => .orderer { protos with kafkaBrokers := brokers } timeout)
      value
  else if key = channelRestrictionsKey then
    decodeInto key codec.unmarshalChannelRestrictions (fun count =>
        .orderer { protos with channelRestrictions := count } timeout)
      value
  else
    .error (.unexpectedKey key)

/-- Decode the value of a key into the message that has been allocated for it. -/
def Values.deserialize (key : GoString) (value : Slice) : Values → Outcome ValueError Values
  | .channel protos hashing => deserializeChannel codec protos hashing key value
  | .application => .error (.unexpectedKey key)
  | .applicationOrg anchorPeers org =>
    if key = anchorPeersKey then
      decodeInto key codec.unmarshalAnchorPeers (fun peers => .applicationOrg peers org) value
    else if key = mspKey then
      decodeInto key codec.unmarshalMSPConfig
        (fun config => .applicationOrg anchorPeers { org with msp := config })
        value
    else
      .error (.unexpectedKey key)
  | .orderer protos timeout => deserializeOrderer codec protos timeout key value
  | .organization org =>
    if key = mspKey then
      decodeInto key codec.unmarshalMSPConfig
        (fun config => .organization { org with msp := config }) value
    else
      .error (.unexpectedKey key)
  | .consortiums => .error (.unexpectedKey key)
  | .consortium _ =>
    if key = channelCreationPolicyKey then decodeInto key codec.unmarshalPolicy .consortium value
    else .error (.unexpectedKey key)

end

/-! ## Checking values -/

/-- The name of SHA-256. -/
def sha256Name : GoString := .ascii "SHA256"

/-- The name of SHA3-256. -/
def sha3256Name : GoString := .ascii "SHA3_256"

/-- The hash function is one that is known. -/
def validateHashingAlgorithm (protos : ChannelProtos) : Outcome ValueError HashFunction :=
  if protos.hashingAlgorithm = sha256Name then .ok .sha256
  else if protos.hashingAlgorithm = sha3256Name then .ok .sha3256
  else .error (.hashingAlgorithm protos.hashingAlgorithm)

/-- The hash tree has one level only. -/
def validateBlockDataHashingStructure (protos : ChannelProtos) : Outcome ValueError Unit :=
  require (protos.blockDataHashingStructure = 4294967295) .hashingStructureWidth

/-- There are addresses of orderers. -/
def validateOrdererAddresses (protos : ChannelProtos) : Outcome ValueError Unit :=
  require (protos.ordererAddresses ≠ []) .noOrdererAddresses

/-- The groups below the channel are those that it asked for. -/
def validateChannelGroup (group : GoString × Kind) : Outcome ValueError Unit :=
  if group.1 = applicationGroupKey then
    require (group.2 = .application) (.groupKind group.1)
  else if group.1 = ordererGroupKey then
    require (group.2 = .orderer) (.groupKind group.1)
  else if group.1 = consortiumsGroupKey then require (group.2 = .consortiums) (.groupKind group.1)
  else .error (.disallowedGroup group.1)

/-- The consensus type is fixed by the first configuration. -/
def validateConsensusType (committed : Option Values)
    (protos : OrdererProtos) : Outcome ValueError Unit :=
  match committed with
  | some (.orderer current _) =>
    require (current.consensusType = protos.consensusType)
      (.consensusType current.consensusType protos.consensusType)
  | _ => .ok ()

/-- The limits of a batch are positive and in order. -/
def validateBatchSize (batchSize : BatchSize) : Outcome ValueError Unit := do
  require (batchSize.maxMessageCount ≠ 0) .maxMessageCount
  require (batchSize.absoluteMaxBytes ≠ 0) .absoluteMaxBytes
  require (batchSize.preferredMaxBytes ≠ 0) .preferredMaxBytes
  require (batchSize.preferredMaxBytes ≤ batchSize.absoluteMaxBytes)
    (.preferredAboveAbsolute batchSize.preferredMaxBytes batchSize.absoluteMaxBytes)

/-- An ASCII digit. -/
def isDigit (character : UInt8) : Bool :=
  48 ≤ character && character ≤ 57

/-- An ASCII letter or digit. -/
def isAlphanumeric (character : UInt8) : Bool :=
  isDigit character || (65 ≤ character && character ≤ 90) || (97 ≤ character && character ≤ 122)

/-- A decimal number that fits into 16 bits. -/
def isPort (text : Bytes) : Bool :=
  !text.isEmpty && text.all isDigit &&
    text.foldl (fun number digit => number * 10 + (digit.toNat - 48)) 0 < 2 ^ 16

/-- Letters, digits, dots and hyphens, with neither of the latter at an end. -/
def isHost (text : Bytes) : Bool :=
  text.all (fun character =>
      isAlphanumeric character || character == 46 || character == 45) &&
    text.head?.all isAlphanumeric && text.getLast?.all isAlphanumeric

/--
A broker is a host and a port.  The host is searched for a match of full length,
and a failed search reports the empty match, so that an empty host is accepted.
-/
def brokerEntrySeemsValid (broker : GoString) : Bool :=
  match broker.bytes.splitOn 58 with
  | [host, port] => isPort port && isHost host
  | _ => false

/-- The addresses of the brokers are well-formed. -/
def validateKafkaBrokers (protos : OrdererProtos) : Outcome ValueError Unit :=
  protos.kafkaBrokers.forM fun broker =>
    require (brokerEntrySeemsValid broker = true) (.brokerEntry broker)

/-- The groups below a group are organizations. -/
def validateOrganizations (groups : List (GoString × Kind)) : Outcome ValueError Unit :=
  groups.forM fun group => require (group.2 = .organization group.1) (.groupKind group.1)

section

variable {MSP : Type} (services : Services MSP)

/-- The time that a batch may wait, which is positive. -/
def validateBatchTimeout (protos : OrdererProtos) : Outcome ValueError Int := do
  let timeout ← ofOption .batchTimeout (services.parseDuration protos.batchTimeout)
  require (0 < timeout) (.nonPositiveBatchTimeout timeout)
  .ok timeout

/-- The providers that the organizations of a proposed configuration define. -/
structure MSPConfigStore (MSP : Type) where
  idMap : List (GoString × (MSPConfig × MSP))
  proposedMgr : Option (List (GoString × MSP))

/-- Set up a provider and add it under its identifier. -/
def MSPConfigStore.proposeMSP (store : MSPConfigStore MSP) (mspConfig : MSPConfig) :
    Outcome ValueError (MSPConfigStore MSP × MSP) := do
  require (mspConfig.type = 0) (.mspType mspConfig.type)
  let msp ← (services.setup mspConfig).mapError fun _ => .mspSetup
  let mspID := services.getIdentifier msp
  require (∀ existing, store.idMap.lookup mspID = some existing → existing.1 = mspConfig)
    (.differentMSPs mspID)
  .ok
    ({ store with
        idMap := (mspID, mspConfig, msp) :: store.idMap.eraseP (·.1 == mspID) },
      msp)

/-- Set up a manager of the providers, if there are any. -/
def MSPConfigStore.preCommit (store : MSPConfigStore MSP) : MSPConfigStore MSP :=
  if store.idMap.isEmpty then store
  else
    { store with proposedMgr := some (store.idMap.map fun entry => (entry.1, entry.2.2)) }

/-- Define the provider of an organization, under the identifier that it had. -/
def validateMSP (name : GoString) (committed : Option OrganizationConfig)
    (store : MSPConfigStore MSP) (org : OrganizationConfig) :
    Outcome ValueError (MSPConfigStore MSP × OrganizationConfig) := do
  let (later, msp) ← store.proposeMSP services org.msp
  let mspID := services.getIdentifier msp
  require (mspID ≠ .empty) (.emptyMSPID name)
  require (∀ current, committed = some current → current.mspID = mspID) (.changedMSPID name
      ((committed.map OrganizationConfig.mspID).getD .empty) mspID)
  .ok (later, { org with mspID := mspID })

/-- The organization among the values of a group. -/
def Values.organization? : Values → Option OrganizationConfig
  | .applicationOrg _ org
  | .organization org => some org
  | _ => none

/-- The organization with the identifier of its provider. -/
def OrganizationConfig.derive (org : OrganizationConfig) :
    Outcome ValueError OrganizationConfig := do
  let msp ← (services.setup org.msp).mapError fun _ => .mspSetup
  .ok { org with mspID := services.getIdentifier msp }

/-- The values with what follows from their messages alone. -/
def Values.derive : Values → Outcome ValueError Values
  | .channel protos _ => do
      let hashing ← validateHashingAlgorithm protos
      .ok (.channel protos (some hashing))
  | .applicationOrg anchorPeers org => do
      let org ← org.derive services
      .ok (.applicationOrg anchorPeers org)
  | .orderer protos _ => do
      let timeout ← validateBatchTimeout services protos
      .ok (.orderer protos timeout)
  | .organization org => do
      let org ← org.derive services
      .ok (.organization org)
  | values => .ok values

/--
Check the values of a group and the groups below it, against what is committed
for the group.
-/
def Values.validate (kind : Kind) (committed : Option Values)
    (groups : List (GoString × Kind)) (store : MSPConfigStore MSP) :
    Values → Outcome ValueError (MSPConfigStore MSP × Values)
  | .channel protos _ => do
      let hashing ← validateHashingAlgorithm protos
      validateBlockDataHashingStructure protos
      validateOrdererAddresses protos
      groups.forM validateChannelGroup
      .ok (store, .channel protos (some hashing))
  | .application => do
      groups.forM fun group => require (group.2 = .applicationOrg group.1) (.groupKind group.1)
      .ok (store, .application)
  | .applicationOrg anchorPeers org => do
      let (later, org) ← validateMSP services kind.name
          (committed.bind Values.organization?) store org
      .ok (later, .applicationOrg anchorPeers org)
  | .orderer protos _ => do
      validateConsensusType committed protos
      validateBatchSize protos.batchSize
      let timeout ← validateBatchTimeout services protos
      validateKafkaBrokers protos
      validateOrganizations groups
      .ok (store, .orderer protos timeout)
  | .organization org => do
      let (later, org) ← validateMSP services kind.name
          (committed.bind Values.organization?) store org
      .ok (later, .organization org)
  | .consortiums => do
      groups.forM fun group => require (group.2 = .consortium) (.groupKind group.1)
      .ok (store, .consortiums)
  | .consortium policy => do
      validateOrganizations groups
      .ok (store, .consortium policy)

variable {services}

/-! ## What values define -/

/--
A store holds the providers of the configurations that have been proposed, all of
which can be set up, under the identifiers of the providers.
-/
structure MSPConfigStore.Provides (services : Services MSP) (proposed : MSPConfig → Prop)
    (store : MSPConfigStore MSP) : Prop where
  pending : store.proposedMgr = none
  setup : ∀ config, proposed config → ∃ msp, services.setup config = .ok msp
  lookup : ∀ id config msp, store.idMap.lookup id = some (config, msp) ↔
      proposed config ∧ services.setup config = .ok msp ∧ services.getIdentifier msp = id

theorem lookup_eraseP_of_ne {Item : Type} {id other : GoString} (different : id ≠ other)
    (entries : List (GoString × Item)) :
    (entries.eraseP (·.1 == other)).lookup id = entries.lookup id := by
  induction entries with
  | nil => rfl
  | cons entry entries ih =>
    rw [List.eraseP_cons]
    cases same : entry.1 == other with
    | true =>
      have unequal : (id == entry.1) = false := by
        rw [beq_iff_eq.mp same]
        exact beq_false_of_ne different
      rw [cond_true, List.lookup_cons, unequal]
    | false => rw [cond_false, List.lookup_cons, List.lookup_cons, ih]

section

variable {store later : MSPConfigStore MSP} {proposed : MSPConfig → Prop}

theorem MSPConfigStore.Provides.congr {other : MSPConfig → Prop}
    (provides : store.Provides services proposed) (same : ∀ config, other config ↔ proposed config) :
    store.Provides services other := by
  rw [funext fun config => propext (same config)]
  exact provides

theorem MSPConfigStore.Provides.proposeMSP {config : MSPConfig} {msp : MSP}
    (provides : store.Provides services proposed)
    (accepted : store.proposeMSP services config = .ok (later, msp)) :
    services.setup config = .ok msp ∧
      later.Provides services fun other => proposed other ∨ other = config := by
  simp only [MSPConfigStore.proposeMSP, bind_ok_iff, mapError_ok_iff, require_ok_iff] at accepted
  rcases accepted with ⟨_, _, _, setup, _, same, accepted⟩
  cases accepted
  refine ⟨setup, provides.pending, ?_, ?_⟩
  · rintro other (earlier | rfl)
    · exact provides.setup other earlier
    · exact ⟨msp, setup⟩
  · intro id other provider
    by_cases own : id = services.getIdentifier msp
    · rw [own, List.lookup_cons_self, Option.some.injEq, Prod.mk.injEq]
      constructor
      · rintro ⟨rfl, rfl⟩
        exact ⟨.inr rfl, setup, rfl⟩
      · rintro ⟨earlier | rfl, here, named⟩
        · have found := (provides.lookup _ other provider).mpr ⟨earlier, here, named⟩
          cases same _ found
          rw [setup] at here
          exact ⟨rfl, Outcome.ok.inj here⟩
        · rw [setup] at here
          exact ⟨rfl, Outcome.ok.inj here⟩
    · rw [List.lookup_cons, beq_false_of_ne own, lookup_eraseP_of_ne own, provides.lookup]
      constructor
      · rintro ⟨earlier, found⟩
        exact ⟨.inl earlier, found⟩
      · rintro ⟨earlier | rfl, here, named⟩
        · exact ⟨earlier, here, named⟩
        · rw [setup] at here
          cases here
          exact absurd named.symm own

/-- A provider of a configuration is defined, and its identifier is recorded. -/
theorem MSPConfigStore.Provides.validateMSP {name : GoString}
    {committed : Option OrganizationConfig} {org checked : OrganizationConfig}
    (provides : store.Provides services proposed)
    (validated : GroupValues.validateMSP services name committed store org =
      .ok (later, checked)) :
    org.derive services = .ok checked ∧
      later.Provides services fun other => proposed other ∨ other = org.msp := by
  simp only [GroupValues.validateMSP, bind_ok_iff] at validated
  rcases validated with ⟨⟨_, _⟩, accepted, _, _, _, _, same⟩
  cases same
  rcases provides.proposeMSP accepted with ⟨setup, provides⟩
  refine ⟨?_, provides⟩
  rw [OrganizationConfig.derive, setup]
  rfl

/-- The values that pass the check are those that follow from the messages. -/
theorem MSPConfigStore.Provides.validate {kind : Kind} {committed : Option Values}
    {groups : List (GoString × Kind)} {values checked : Values}
    (provides : store.Provides services proposed)
    (validated : values.validate services kind committed groups store = .ok (later, checked)) :
    values.derive services = .ok checked ∧
      later.Provides services fun config =>
        proposed config ∨ ∃ org, values.organization? = some org ∧ config = org.msp := by
  cases values with
  | channel protos _ =>
    simp only [Values.validate, bind_ok_iff] at validated
    rcases validated with ⟨_, hashing, _, _, _, _, _, _, same⟩
    cases same
    refine ⟨?_, provides.congr fun _ => by simp [Values.organization?]⟩
    rw [Values.derive, hashing]
    rfl
  | orderer protos _ =>
    simp only [Values.validate, bind_ok_iff] at validated
    rcases validated with ⟨_, _, _, _, _, timeout, _, _, _, _, same⟩
    cases same
    refine ⟨?_, provides.congr fun _ => by simp [Values.organization?]⟩
    rw [Values.derive, timeout]
    rfl
  | applicationOrg _ org | organization org =>
    simp only [Values.validate, bind_ok_iff] at validated
    rcases validated with ⟨⟨_, _⟩, defined, same⟩
    cases same
    rcases provides.validateMSP defined with ⟨derived, provides⟩
    refine ⟨?_, provides.congr fun _ => by simp [Values.organization?]⟩
    rw [Values.derive, derived]
    rfl
  | application | consortiums | consortium _ =>
    simp only [Values.validate, bind_ok_iff] at validated
    rcases validated with ⟨_, _, same⟩
    cases same
    exact ⟨rfl, provides.congr fun _ => by simp [Values.organization?]⟩

end

end

end Fabric.Config.GroupValues
