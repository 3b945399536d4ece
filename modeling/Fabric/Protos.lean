import Fabric.Library.Outcome
import Fabric.Library.ByteString

/-!
# Protocol messages

The messages that peers and orderers exchange, with the fields that the
modelled code reads.  A `bytes` field is a slice that may be nil, a message
field may be absent, and a repeated field is a list.

Decoding is the work of the vendored protobuf runtime.  `Codec` gathers one
decoder for each message type; the model is written over an arbitrary codec,
so nothing is assumed about which byte strings decode or to what.
-/

namespace Fabric.Protos

open Library Outcome ByteString

/-! ## Envelopes -/

/-- A signed message. -/
structure Envelope where
  payload : Slice
  signature : Slice
deriving DecidableEq

/-- The headers of a channel and of a creator. -/
structure Header where
  channelHeader : Slice
  signatureHeader : Slice
deriving DecidableEq

/-- The content of an envelope. -/
structure Payload where
  header : Option Header
  data : Slice
deriving DecidableEq

/-- The `HeaderType` numbers that the modelled code distinguishes. -/
structure HeaderType where
  number : Int32
deriving DecidableEq

namespace HeaderType

def config : HeaderType := ⟨1⟩
def configUpdate : HeaderType := ⟨2⟩
def endorserTransaction : HeaderType := ⟨3⟩

end HeaderType

/-- What a message is and the channel it is for. -/
structure ChannelHeader where
  type : HeaderType
  channelId : GoString
  txId : GoString
  epoch : UInt64
  extension : Slice
deriving DecidableEq

/-- Who made a message. -/
structure SignatureHeader where
  creator : Slice
  nonce : Slice
deriving DecidableEq

/-! ## Endorser transactions -/

/-- An action of a transaction. -/
structure TransactionAction where
  header : Slice
  payload : Slice
deriving DecidableEq

/-- The actions that are to take effect together. -/
structure Transaction where
  actions : List TransactionAction
deriving DecidableEq

/-- The signature of an endorser. -/
structure Endorsement where
  endorser : Slice
  signature : Slice
deriving DecidableEq

/-- A result of a proposal and its endorsements. -/
structure ChaincodeEndorsedAction where
  proposalResponsePayload : Slice
  endorsements : List Endorsement
deriving DecidableEq

/-- A proposal and its endorsed result. -/
structure ChaincodeActionPayload where
  chaincodeProposalPayload : Slice
  action : Option ChaincodeEndorsedAction
deriving DecidableEq

/-- What an endorser signs. -/
structure ProposalResponsePayload where
  proposalHash : Slice
  extension : Slice
deriving DecidableEq

/-- The name of a chaincode. -/
structure ChaincodeID where
  path : GoString
  name : GoString
  version : GoString
deriving DecidableEq

/-- What an invocation read and wrote. -/
structure ChaincodeAction where
  results : Slice
  events : Slice
  chaincodeId : Option ChaincodeID
deriving DecidableEq

/-- The chaincode that a proposal is for. -/
structure ChaincodeHeaderExtension where
  chaincodeId : Option ChaincodeID
deriving DecidableEq

/-! ## Chaincode invocation and deployment -/

/-- The input of a proposal. -/
structure ChaincodeProposalPayload where
  input : Slice
deriving DecidableEq

/-- The arguments of an invocation. -/
structure ChaincodeInput where
  args : List Bytes
deriving DecidableEq

/-- The `ChaincodeSpec_Type` numbers, of which three have a platform. -/
structure ChaincodeSpecType where
  number : Int32
deriving DecidableEq

namespace ChaincodeSpecType

def golang : ChaincodeSpecType := ⟨1⟩
def car : ChaincodeSpecType := ⟨3⟩
def java : ChaincodeSpecType := ⟨4⟩

end ChaincodeSpecType

/-- A chaincode with the input for it. -/
structure ChaincodeSpec where
  type : ChaincodeSpecType
  chaincodeId : Option ChaincodeID
  input : Option ChaincodeInput
deriving DecidableEq

/-- An invocation of a chaincode. -/
structure ChaincodeInvocationSpec where
  chaincodeSpec : Option ChaincodeSpec
deriving DecidableEq

/-- A chaincode to deploy. -/
structure ChaincodeDeploymentSpec where
  chaincodeSpec : Option ChaincodeSpec
  codePackage : Slice
deriving DecidableEq

/-- What the namespace `lscc` records about an instantiated chaincode. -/
structure ChaincodeData where
  name : GoString
  version : GoString
  vscc : GoString
  policy : Slice
  instantiationPolicy : Slice
deriving DecidableEq

/-- An identity and the provider that can read it. -/
structure SerializedIdentity where
  mspid : GoString
  idBytes : Slice
deriving DecidableEq

/-- A signature together with what it signs. -/
structure SignedData where
  data : Bytes
  identity : Slice
  signature : Slice
deriving DecidableEq

/-! ## Channel configuration -/

/-- A policy, which its type decodes. -/
structure CommonPolicy where
  type : Int32
  value : Slice
deriving DecidableEq

/-- A value of a group. -/
structure ConfigValue where
  version : UInt64
  value : Slice
  modPolicy : GoString
deriving DecidableEq

/-- A policy of a group. -/
structure ConfigPolicy where
  version : UInt64
  policy : Option CommonPolicy
  modPolicy : GoString
deriving DecidableEq

/-- The entries of a map of messages, some of which may be nil. -/
abbrev Entries (Message : Type) := List (GoString × Option Message)

mutual

/--
A group of the configuration tree.  Its maps are lists of their entries in the
order of the keys; the message of an entry may be nil.
-/
inductive ConfigGroup where
  | mk
      (version : UInt64) (groups : ConfigGroups)
      (values : Entries ConfigValue)
      (policies : Entries ConfigPolicy)
      (modPolicy : GoString)

/-- The groups of a group by their keys. -/
inductive ConfigGroups where
  | nil
  | absent (key : GoString) (rest : ConfigGroups)
  | present (key : GoString) (group : ConfigGroup) (rest : ConfigGroups)

end

namespace ConfigGroup

def version : ConfigGroup → UInt64
  | mk version _ _ _ _ => version

def groups : ConfigGroup → ConfigGroups
  | mk _ groups _ _ _ => groups

def values : ConfigGroup → Entries ConfigValue
  | mk _ _ values _ _ => values

def policies : ConfigGroup → Entries ConfigPolicy
  | mk _ _ _ policies _ => policies

def modPolicy : ConfigGroup → GoString
  | mk _ _ _ _ modPolicy => modPolicy

end ConfigGroup

/-- A configuration with its sequence number. -/
structure Config where
  sequence : UInt64
  channelGroup : Option ConfigGroup

/-- A configuration and the update it came from. -/
structure ConfigEnvelope where
  config : Option Config
  lastUpdate : Option Envelope

/-- A signature of an update. -/
structure ConfigSignature where
  signatureHeader : Slice
  signature : Slice
deriving DecidableEq

/-- An update and its signatures. -/
structure ConfigUpdateEnvelope where
  configUpdate : Slice
  signatures : List ConfigSignature
deriving DecidableEq

/-- What an update relies on and what it writes. -/
structure ConfigUpdate where
  channelId : GoString
  readSet : Option ConfigGroup
  writeSet : Option ConfigGroup

/-! ## Seeking blocks -/

/-- A position in a ledger; the type of the position may not be set. -/
inductive SeekPosition where
  | oldest
  | newest
  | specified (number : UInt64)
  | unset
deriving DecidableEq

/-- What to do at the end of the ledger. -/
inductive SeekBehavior where
  | blockUntilReady
  | failIfNotReady
deriving DecidableEq

/-- A request for a range of blocks. -/
structure SeekInfo where
  start : Option SeekPosition
  stop : Option SeekPosition
  behavior : SeekBehavior
deriving DecidableEq

/-! ## Validation codes -/

/-- The validation codes that the modelled code hands out. -/
inductive TxValidationCode where
  | valid
  | nilEnvelope
  | badPayload
  | badCommonHeader
  | badCreatorSignature
  | invalidEndorserTransaction
  | invalidConfigTransaction
  | unsupportedTxPayload
  | badProposalTxid
  | endorsementPolicyFailure
  | mvccReadConflict
  | phantomReadConflict
  | nilTxaction
  | expiredChaincode
  | badHeaderExtension
  | badChannelHeader
  | badResponsePayload
  | badRwset
  | illegalWriteset
  | invalidOtherReason
deriving DecidableEq

/-- The number of a code, as it is stored in the block metadata. -/
def TxValidationCode.number : TxValidationCode → UInt8
  | .valid => 0
  | .nilEnvelope => 1
  | .badPayload => 2
  | .badCommonHeader => 3
  | .badCreatorSignature => 4
  | .invalidEndorserTransaction => 5
  | .invalidConfigTransaction => 6
  | .unsupportedTxPayload => 7
  | .badProposalTxid => 8
  | .endorsementPolicyFailure => 10
  | .mvccReadConflict => 11
  | .phantomReadConflict => 12
  | .nilTxaction => 16
  | .expiredChaincode => 17
  | .badHeaderExtension => 19
  | .badChannelHeader => 20
  | .badResponsePayload => 21
  | .badRwset => 22
  | .illegalWriteset => 23
  | .invalidOtherReason => 255

theorem TxValidationCode.number_eq_zero_iff (code : TxValidationCode) :
    code.number = 0 ↔ code = .valid := by
  cases code <;> decide

/-! ## Read-write sets -/

/-- The place of a transaction in the ledger. -/
structure Version where
  blockNum : UInt64
  txNum : UInt64
deriving DecidableEq

/-- An absent version records that the key did not exist. -/
structure KVRead where
  key : GoString
  version : Option Version
deriving DecidableEq

/-- A write of a value, or a deletion. -/
structure KVWrite where
  key : GoString
  isDelete : Bool
  value : Slice
deriving DecidableEq

/-- The results of a query. -/
structure QueryReads where
  kvReads : List KVRead
deriving DecidableEq

/-- The hashes that stand for the results of a query. -/
structure QueryReadsMerkleSummary where
  maxDegree : UInt32
  maxLevel : UInt32
  maxLevelHashes : List Bytes
deriving DecidableEq

/-- The results of a range query, or a summary of them. -/
inductive ReadsInfo where
  | rawReads (reads : QueryReads)
  | readsMerkleHashes (summary : QueryReadsMerkleSummary)
deriving DecidableEq

/-- A range query and its results. -/
structure RangeQueryInfo where
  startKey : GoString
  endKey : GoString
  itrExhausted : Bool
  readsInfo : Option ReadsInfo
deriving DecidableEq

/-- The reads and writes in one namespace. -/
structure KVRWSet where
  reads : List KVRead
  rangeQueriesInfo : List RangeQueryInfo
  writes : List KVWrite
deriving DecidableEq

/-- A namespace with its encoded reads and writes. -/
structure NsReadWriteSet where
  nameSpace : GoString
  rwset : Slice
deriving DecidableEq

/-- The encoded reads and writes of a transaction. -/
structure TxReadWriteSet where
  nsRwset : List NsReadWriteSet
deriving DecidableEq

/-! ## Blocks -/

/-- The place of a block in the chain. -/
structure BlockHeader where
  number : UInt64
  previousHash : Slice
  dataHash : Slice
deriving DecidableEq

/-- The envelopes of a block. -/
structure BlockData where
  data : List Bytes
deriving DecidableEq

/-- What is recorded about a block, by its kind. -/
structure BlockMetadata where
  metadata : List Bytes
deriving DecidableEq

/-- A block of the ledger. -/
structure Block where
  header : Option BlockHeader
  data : Option BlockData
  metadata : Option BlockMetadata
deriving DecidableEq

/-- A signature of the metadata of a block. -/
structure MetadataSignature where
  signatureHeader : Slice
  signature : Slice
deriving DecidableEq

/-- Metadata and its signatures. -/
structure Metadata where
  value : Slice
  signatures : List MetadataSignature
deriving DecidableEq

/-- The number of the block that holds the latest configuration. -/
structure LastConfig where
  index : UInt64
deriving DecidableEq

/-! ## Decoding -/

/-- One decoder for each message type, and the encoders that are used. -/
structure Codec where
  unmarshalBlock : Bytes → Option Block
  unmarshalMetadata : Bytes → Option Metadata
  unmarshalEnvelope : Bytes → Option Envelope
  unmarshalPayload : Bytes → Option Payload
  unmarshalChannelHeader : Bytes → Option ChannelHeader
  unmarshalSignatureHeader : Bytes → Option SignatureHeader
  unmarshalTransaction : Bytes → Option Transaction
  unmarshalChaincodeActionPayload : Bytes → Option ChaincodeActionPayload
  unmarshalProposalResponsePayload : Bytes → Option ProposalResponsePayload
  unmarshalChaincodeAction : Bytes → Option ChaincodeAction
  unmarshalChaincodeHeaderExtension : Bytes → Option ChaincodeHeaderExtension
  unmarshalChaincodeProposalPayload : Bytes → Option ChaincodeProposalPayload
  unmarshalChaincodeInvocationSpec : Bytes → Option ChaincodeInvocationSpec
  unmarshalChaincodeDeploymentSpec : Bytes → Option ChaincodeDeploymentSpec
  unmarshalChaincodeData : Bytes → Option ChaincodeData
  unmarshalSerializedIdentity : Bytes → Option SerializedIdentity
  unmarshalTxReadWriteSet : Bytes → Option TxReadWriteSet
  unmarshalKVRWSet : Bytes → Option KVRWSet
  unmarshalConfigEnvelope : Bytes → Option ConfigEnvelope
  unmarshalConfigUpdateEnvelope : Bytes → Option ConfigUpdateEnvelope
  unmarshalConfigUpdate : Bytes → Option ConfigUpdate
  unmarshalSeekInfo : Bytes → Option SeekInfo
  unmarshalLastConfig : Bytes → Option LastConfig
  marshalEnvelope : Envelope → Bytes
  marshalMetadata : Metadata → Bytes
  marshalLastConfig : LastConfig → Bytes

/-- The codec that decodes nothing, from which concrete ones are built. -/
def Codec.rejecting : Codec where
  unmarshalBlock _ := none
  unmarshalMetadata _ := none
  unmarshalEnvelope _ := none
  unmarshalPayload _ := none
  unmarshalChannelHeader _ := none
  unmarshalSignatureHeader _ := none
  unmarshalTransaction _ := none
  unmarshalChaincodeActionPayload _ := none
  unmarshalProposalResponsePayload _ := none
  unmarshalChaincodeAction _ := none
  unmarshalChaincodeHeaderExtension _ := none
  unmarshalChaincodeProposalPayload _ := none
  unmarshalChaincodeInvocationSpec _ := none
  unmarshalChaincodeDeploymentSpec _ := none
  unmarshalChaincodeData _ := none
  unmarshalSerializedIdentity _ := none
  unmarshalTxReadWriteSet _ := none
  unmarshalKVRWSet _ := none
  unmarshalConfigEnvelope _ := none
  unmarshalConfigUpdateEnvelope _ := none
  unmarshalConfigUpdate _ := none
  unmarshalSeekInfo _ := none
  unmarshalLastConfig _ := none
  marshalEnvelope _ := []
  marshalMetadata _ := []
  marshalLastConfig _ := []

/-- The encoded length of fewer than 16384 bytes. -/
def fieldLength (length : Nat) : Bytes :=
  if length < 128 then [UInt8.ofNat length]
  else [UInt8.ofNat (length % 128 + 128), UInt8.ofNat (length / 128)]

/-- A length-delimited field with fewer than 16384 bytes of content. -/
def field (number : UInt8) (content : Bytes) : Bytes :=
  (8 * number + 2) :: (fieldLength content.length ++ content)

/-! ## Decoding helpers of the `utils` package -/

/-- What could not be decoded. -/
inductive DecodeError where
  | envelope
  | payload
  | channelHeader
  | signatureHeader
  | transaction
  | noTransactionAction
  | chaincodeActionPayload
  | noPayloadInAction
  | proposalResponsePayload
  | missingExtension
  | chaincodeAction
  | chaincodeHeaderExtension
  | chaincodeProposalPayload
  | blockEmpty
  | payloadHeaderEmpty
  | metadata
  | noHeader
  | invalidChannelHeader
  | headerType (expected : HeaderType)
  | message (headerType : HeaderType)
  | noData
  | envelopeIndex
  | lastConfig
deriving DecidableEq

section

variable (codec : Codec)

/-- Decodes a block's entry. -/
def getEnvelopeFromBlock (data : Slice) : Outcome DecodeError Envelope :=
  ofOption .envelope (codec.unmarshalEnvelope data.bytes)

/-- Decodes the payload of an envelope. -/
def getPayload (envelope : Envelope) : Outcome DecodeError Payload :=
  ofOption .payload (codec.unmarshalPayload envelope.payload.bytes)

section

variable (bytes : Slice)

def unmarshalChannelHeader : Outcome DecodeError ChannelHeader :=
  ofOption .channelHeader (codec.unmarshalChannelHeader bytes.bytes)

def getSignatureHeader : Outcome DecodeError SignatureHeader :=
  ofOption .signatureHeader (codec.unmarshalSignatureHeader bytes.bytes)

def getTransaction : Outcome DecodeError Transaction :=
  ofOption .transaction (codec.unmarshalTransaction bytes.bytes)

def getChaincodeActionPayload : Outcome DecodeError ChaincodeActionPayload :=
  ofOption .chaincodeActionPayload (codec.unmarshalChaincodeActionPayload bytes.bytes)

def getProposalResponsePayload : Outcome DecodeError ProposalResponsePayload :=
  ofOption .proposalResponsePayload (codec.unmarshalProposalResponsePayload bytes.bytes)

def getChaincodeAction : Outcome DecodeError ChaincodeAction :=
  ofOption .chaincodeAction (codec.unmarshalChaincodeAction bytes.bytes)

def getChaincodeProposalPayload : Outcome DecodeError ChaincodeProposalPayload :=
  ofOption .chaincodeProposalPayload (codec.unmarshalChaincodeProposalPayload bytes.bytes)

end

/-- The extension of the channel header; the header must be present. -/
def getChaincodeHeaderExtension (hdr : Option Header) :
    Outcome DecodeError ChaincodeHeaderExtension := do
  let hdr ← deref hdr
  let chdr ← unmarshalChannelHeader codec hdr.channelHeader
  ofOption .chaincodeHeaderExtension (codec.unmarshalChaincodeHeaderExtension chdr.extension.bytes)

/-- The payload of a transaction action and the chaincode action inside it. -/
def getPayloads (txAction : TransactionAction) :
    Outcome DecodeError (ChaincodeActionPayload × ChaincodeAction) := do
  let ccPayload ← getChaincodeActionPayload codec txAction.payload
  match ccPayload.action with
  | none => .error .noPayloadInAction
  | some action =>
    require action.proposalResponsePayload.isSome .noPayloadInAction
    let pRespPayload ← getProposalResponsePayload codec action.proposalResponsePayload
    require pRespPayload.extension.isSome .missingExtension
    let respPayload ← getChaincodeAction codec pRespPayload.extension
    pure (ccPayload, respPayload)

/-- The chaincode action of the first action of an enveloped transaction. -/
def getActionFromEnvelope (envBytes : Slice) : Outcome DecodeError ChaincodeAction := do
  let env ← getEnvelopeFromBlock codec envBytes
  let payl ← getPayload codec env
  let tx ← getTransaction codec payl.data
  match tx.actions with
  | [] => .error .noTransactionAction
  | action :: _ =>
    let payloads ← getPayloads codec action
    pure payloads.2

/-- Decode the data of an envelope that must have a given type. -/
def unmarshalEnvelopeOfType {Message : Type} (envelope : Option Envelope) (headerType : HeaderType)
    (unmarshal : Bytes → Option Message) :
    Outcome DecodeError (ChannelHeader × Message) := do
  let envelope ← deref envelope
  let payload ← getPayload codec envelope
  let header ← ofOption .noHeader payload.header
  let chdr ← ofOption .invalidChannelHeader
      (codec.unmarshalChannelHeader header.channelHeader.bytes)
  require (chdr.type = headerType) (.headerType headerType)
  let message ← ofOption (.message headerType) (unmarshal payload.data.bytes)
  .ok (chdr, message)

/-- The channel named by the first transaction of a block. -/
def getChainIDFromBlock (block : Block) : Outcome DecodeError GoString :=
  match block.data with
  | none | some ⟨[]⟩ => .error .blockEmpty
  | some ⟨first :: _⟩ => do
      let envelope ← ofOption .envelope (codec.unmarshalEnvelope first)
      let payload ← getPayload codec envelope
      let header ← ofOption .payloadHeaderEmpty payload.header
      let chdr ← unmarshalChannelHeader codec header.channelHeader
      pure chdr.channelId

/-- The decoded metadata at a position; the position must exist. -/
def getMetadataFromBlock (block : Block) (index : Nat) : Outcome DecodeError Metadata := do
  let blockMetadata ← deref block.metadata
  let encoded ← deref blockMetadata.metadata[index]?
  ofOption .metadata (codec.unmarshalMetadata encoded)

/-- The position of the last configuration in the block metadata. -/
def lastConfigIndex : Nat := 1

/-- The number of the last configuration block, as the block itself says. -/
def getLastConfigIndexFromBlock (block : Block) : Outcome DecodeError UInt64 := do
  let md ← getMetadataFromBlock codec block lastConfigIndex
  let lc ← ofOption .lastConfig (codec.unmarshalLastConfig md.value.bytes)
  .ok lc.index

/-- Decodes the entry of a block at an index. -/
def extractEnvelope (block : Block) (index : Nat) : Outcome DecodeError Envelope := do
  let data ← ofOption .noData block.data
  let marshaledEnvelope ← ofOption .envelopeIndex data.data[index]?
  ofOption .envelope (codec.unmarshalEnvelope marshaledEnvelope)

/-- Does the block carry a configuration transaction? -/
def isConfigBlock (block : Block) : Bool :=
  let headerType : Outcome DecodeError HeaderType := do
    let envelope ← extractEnvelope codec block 0
    let payload ← getPayload codec envelope
    let header ← ofOption .noHeader payload.header
    let hdr ← unmarshalChannelHeader codec header.channelHeader
    .ok hdr.type
  headerType.returns (· == .config)

end

theorem getChainIDFromBlock_ne_panic (codec : Codec) (block : Block) :
    getChainIDFromBlock codec block ≠ .panic := by
  unfold getChainIDFromBlock
  split
  · simp
  · simp
  · simp [bind_panic_iff, getPayload, unmarshalChannelHeader]

end Fabric.Protos
