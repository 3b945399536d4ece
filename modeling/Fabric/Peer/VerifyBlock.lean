import Fabric.Blocks

/-!
# Verification of received blocks

A peer accepts a block from gossip or from the ordering service only after
checking the sequence number, the channel, the hash of the data and the
signatures over the header.  The bytes come from an untrusted party.

Two results describe the check.  It panics exactly when the header number is
out of the range of the header encoding and the first signature is looked at.
And an accepted block carries the transactions of the block that was signed
exactly when the boundaries between the transactions are the same: the data
hash covers the concatenation of the transactions only.
-/

namespace Fabric.Peer.VerifyBlock

open Library Outcome ByteString Protos Blocks

/--
The hash function, and for each channel with a policy manager the block
validation policy.  The policy is an interface here, and its evaluation returns:
the policy of a channel without providers, which asks a nil manager for an
identity and panics, is not one of these.
-/
structure MessageCryptoService where
  computeSHA256 : Bytes → Bytes
  blockValidation : GoString → Option (List SignedData → Bool)

/-- Why a block is refused. -/
inductive VerifyError where
  | unmarshalBlock
  | headerNil
  | seqNum (claimed actual : UInt64)
  | channelId (reason : DecodeError)
  | otherChannel (expected given : GoString)
  | noMetadata
  | signaturesMetadata (reason : DecodeError)
  | dataHash
  | noPolicyManager
  | signatureHeader (reason : DecodeError)
  | policy
deriving DecidableEq

section

variable (codec : Codec)

/-- The signed data for each signature of the metadata. -/
def prepareSignedData (header : BlockHeader) (metadata : Metadata) :
    List MetadataSignature → Outcome VerifyError (List SignedData)
  | [] => .ok []
  | metadataSignature :: rest => do
      let shdr ← (getSignatureHeader codec metadataSignature.signatureHeader).mapError
          .signatureHeader
      let bytes ← headerBytes header
      let signedData : SignedData :=
        { identity := shdr.creator
          data := concatenateBytes [metadata.value.bytes,
                metadataSignature.signatureHeader.bytes, bytes]
          signature := metadataSignature.signature }
      let others ← prepareSignedData header metadata rest
      pure (signedData :: others)

/-- The block has metadata. -/
def hasMetadata (block : Block) : Bool :=
  match block.metadata with
  | none => false
  | some blockMetadata => !blockMetadata.metadata.isEmpty

section

variable (mcs : MessageCryptoService) (chainID : GoString) (seqNum : UInt64) (signedBlock : Bytes)

/-- The checks before the signatures, and what the signatures need. -/
def checkBlock : Outcome VerifyError (BlockHeader × Metadata × (List SignedData → Bool)) := do
  let block ← ofOption .unmarshalBlock (codec.unmarshalBlock signedBlock)
  let header ← ofOption .headerNil block.header
  require (seqNum = header.number) (.seqNum seqNum header.number)
  let channelID ← (getChainIDFromBlock codec block).mapError .channelId
  require (channelID = chainID) (.otherChannel chainID channelID)
  require (hasMetadata block = true) .noMetadata
  let metadata ← (getMetadataFromBlock codec block signaturesIndex).mapError .signaturesMetadata
  let data ← deref block.data
  require (dataHash mcs.computeSHA256 data = header.dataHash.bytes) .dataHash
  let policy ← ofOption .noPolicyManager (mcs.blockValidation channelID)
  pure (header, metadata, policy)

/-- Checks a block that another peer sent. -/
def verifyBlock : Outcome VerifyError Unit := do
  let (header, metadata, policy) ← checkBlock codec mcs chainID seqNum signedBlock
  let signatureSet ← prepareSignedData codec header metadata metadata.signatures
  require (policy signatureSet = true) .policy

end

end

/-! ## What is checked before the signatures -/

/-- The checks on a decoded block that precede the signatures. -/
structure PassesChecks (codec : Codec) (mcs : MessageCryptoService) (chainID : GoString)
    (seqNum : UInt64) (block : Block) (header : BlockHeader)
    (metadata : Metadata) (policy : List SignedData → Bool) : Prop where
  hasHeader : block.header = some header
  sameNumber : seqNum = header.number
  channel : getChainIDFromBlock codec block = .ok chainID
  metadataPresent : hasMetadata block = true
  signatures : getMetadataFromBlock codec block signaturesIndex = .ok metadata
  hash : ∃ data, block.data = some data ∧ dataHash mcs.computeSHA256 data = header.dataHash.bytes
  manager : mcs.blockValidation chainID = some policy

section

variable {codec : Codec} {mcs : MessageCryptoService} {chainID : GoString} {seqNum : UInt64}
  {signedBlock : Bytes}

private theorem getMetadataFromBlock_ne_panic {block : Block} (present : hasMetadata block = true) :
    getMetadataFromBlock codec block signaturesIndex ≠ .panic := by
  cases found : block.metadata with
  | none => simp [hasMetadata, found] at present
  | some blockMetadata =>
    rcases blockMetadata with ⟨entries⟩
    cases entries with
    | nil => simp [hasMetadata, found] at present
    | cons _ _ => simp [getMetadataFromBlock, found, signaturesIndex]

theorem checkBlock_ok_iff (header : BlockHeader) (metadata : Metadata)
    (policy : List SignedData → Bool) :
    checkBlock codec mcs chainID seqNum signedBlock = .ok (header, metadata, policy) ↔
      ∃ block, codec.unmarshalBlock signedBlock = some block ∧
          PassesChecks codec mcs chainID seqNum block header metadata
            policy := by
  constructor
  · intro checked
    simp only [checkBlock, bind_ok_iff, ofOption_ok_iff, require_ok_iff,
      mapError_ok_iff, deref_ok_iff, pure_ok, Outcome.ok.injEq, Prod.mk.injEq] at checked
    rcases checked with ⟨block, decoded, _, hasHeader, _, sameNumber, _, channel, _, rfl, _,
        present, _, signatures, data, hasData, _, hash, _, manager, rfl,
        rfl, rfl⟩
    exact ⟨block, decoded, hasHeader, sameNumber, channel, present,
      signatures, ⟨data, hasData, hash⟩, manager⟩
  · rintro ⟨block, decoded, passes⟩
    rcases passes.hash with ⟨data, hasData, hash⟩
    simp [checkBlock, decoded, ofOption, passes.hasHeader, passes.sameNumber, passes.channel,
      mapError, require, passes.metadataPresent, passes.signatures, hasData, hash, passes.manager]

theorem checkBlock_ne_panic : checkBlock codec mcs chainID seqNum signedBlock ≠ .panic := by
  intro panics
  simp only [checkBlock, bind_panic_iff, ofOption_ne_panic, ofOption_ok_iff, require_ne_panic,
    require_ok_iff, mapError_panic_iff, mapError_ok_iff, getChainIDFromBlock_ne_panic,
    false_or, pure_ok] at panics
  rcases panics with ⟨_, _, _, _, _, _, _, channel, _, _, _, present,
      undecoded | ⟨_, _, noData | ⟨_, _, _, _, _, _, impossible⟩⟩⟩
  · exact getMetadataFromBlock_ne_panic present undecoded
  · rw [deref_panic_iff] at noData
    simp [getChainIDFromBlock, noData] at channel
  · cases impossible

private theorem prepareSignedData_ne_panic {header : BlockHeader} (metadata : Metadata)
    (encodable : ¬ maxInt64 < header.number) (signatures : List MetadataSignature) :
    prepareSignedData codec header metadata signatures ≠ .panic := by
  have encoded (bytes : Outcome VerifyError Bytes)
      (equal : bytes = headerBytes header) : bytes ≠ .panic := by
    rw [equal]
    exact fun panics => encodable ((headerBytes_panic_iff header).mp panics)
  induction signatures with
  | nil => simp [prepareSignedData]
  | cons _ _ ih =>
    intro panics
    rcases bind_panic_iff.mp panics with
      undecoded | ⟨_, _, panics⟩
    · simp [getSignatureHeader] at undecoded
    rcases bind_panic_iff.mp panics with
      unencoded | ⟨bytes, _, panics⟩
    · exact encoded _ rfl unencoded
    rcases bind_panic_iff.mp panics with
      later | ⟨_, _, panics⟩
    · exact ih later
    · cases panics

theorem prepareSignedData_panic_iff (header : BlockHeader) (metadata : Metadata)
    (signatures : List MetadataSignature) :
    prepareSignedData codec header metadata signatures = .panic ↔
      maxInt64 < header.number ∧ ∃ first rest shdr, signatures = first :: rest ∧
            codec.unmarshalSignatureHeader first.signatureHeader.bytes = some shdr := by
  constructor
  · intro panics
    by_cases encodable : maxInt64 < header.number
    · refine ⟨encodable, ?_⟩
      cases signatures with
      | nil => cases panics
      | cons first rest =>
        rcases bind_panic_iff.mp panics with
          undecoded | ⟨shdr, decoded, _⟩
        · simp [getSignatureHeader] at undecoded
        · exact ⟨first, rest, shdr, rfl, by simpa [getSignatureHeader] using decoded⟩
    · exact absurd panics (prepareSignedData_ne_panic metadata encodable signatures)
  · rintro ⟨unencodable, first, rest, shdr, rfl, decoded⟩
    have panics : headerBytes header = (.panic : Outcome VerifyError Bytes) :=
      (headerBytes_panic_iff header).mpr unencodable
    simp [prepareSignedData, getSignatureHeader, decoded, ofOption, mapError, panics]

/-! ## Panics -/

/--
Verification returns, with or without an error, unless the block passes the
checks before the signatures, the header of its first signature decodes, and
its number does not fit a signed 64-bit integer.
-/
theorem verifyBlock_returns_iff :
    verifyBlock codec mcs chainID seqNum signedBlock ≠ .panic ↔
      ∀ block header metadata policy first rest shdr,
        codec.unmarshalBlock signedBlock = some block →
        PassesChecks codec mcs chainID seqNum block header metadata policy →
        metadata.signatures = first :: rest →
        codec.unmarshalSignatureHeader first.signatureHeader.bytes = some shdr →
        header.number ≤ maxInt64 := by
  constructor
  · intro returns block header metadata policy first rest shdr decoded passes
      signatures signatureHeader
    by_contra unencodable
    apply returns
    apply bind_panic_iff.mpr
    right
    refine ⟨(header, metadata, policy), ?_, ?_⟩
    · exact (checkBlock_ok_iff header metadata policy).mpr ⟨block, decoded, passes⟩
    · apply bind_panic_iff.mpr
      left
      apply (prepareSignedData_panic_iff header metadata _).mpr
      exact ⟨UInt64.not_le.mp unencodable, first, rest, shdr, signatures, signatureHeader⟩
  · intro encodable panics
    rcases bind_panic_iff.mp panics with
      early | ⟨⟨header, metadata, policy⟩, checked, panics⟩
    · exact checkBlock_ne_panic early
    rcases (checkBlock_ok_iff header metadata policy).mp checked with ⟨block, decoded, passes⟩
    rcases bind_panic_iff.mp panics with
      unprepared | ⟨_, _, unevaluated⟩
    · rcases (prepareSignedData_panic_iff header metadata _).mp unprepared with
        ⟨unencodable, first, rest, shdr, signatures, signatureHeader⟩
      have bounded := encodable block header metadata policy first rest shdr decoded passes
          signatures signatureHeader
      exact absurd unencodable (UInt64.not_lt.mpr bounded)
    · exact require_ne_panic _ _ unevaluated

end

/-! A block with the number 2^63. -/

namespace OutOfRange

def channelHeader : Bytes := [8, 3] ++ field 4 [99]

def payload (content : UInt8) : Bytes :=
  field 1 (field 1 channelHeader) ++ field 2 [content]

def envelope (content : UInt8) : Bytes := field 1 (payload content)

def digest : Bytes :=
  [196, 159, 0, 180, 74, 220, 70, 230, 72, 0, 160, 17, 212, 111, 242, 220,
    23, 183, 74, 172, 181, 223, 144, 131, 51, 241, 194, 77, 164, 74, 224, 121]

def signatureHeader : Bytes := field 1 [111] ++ field 2 [110]

def signatures : Bytes := field 2 (field 1 signatureHeader ++ field 2 [115])

def number : UInt64 := 9223372036854775808

def encodedNumber : Bytes := [8, 128, 128, 128, 128, 128, 128, 128, 128, 128, 1]

def signedBlock : Bytes :=
  field 1 (encodedNumber ++ field 3 digest) ++ field 2 (field 1 (envelope 97)) ++
    field 3 (field 1 signatures)

def codec : Codec :=
  { Codec.rejecting with
    unmarshalBlock := fun bytes =>
      if bytes = signedBlock then
        some
          { header := some ⟨number, none, some digest⟩
            data := some ⟨[envelope 97]⟩
            metadata := some ⟨[signatures]⟩ }
      else
        none
    unmarshalEnvelope := fun bytes =>
      if bytes = envelope 97 then some ⟨some (payload 97), none⟩ else none
    unmarshalPayload := fun bytes =>
      if bytes = payload 97 then some ⟨some ⟨some channelHeader, none⟩, some [97]⟩ else none
    unmarshalChannelHeader := fun bytes =>
      if bytes = channelHeader then some ⟨.endorserTransaction, .letter 'c', .empty, 0, none⟩
      else none
    unmarshalMetadata := fun bytes =>
      if bytes = signatures then some ⟨none, [⟨some signatureHeader, some [115]⟩]⟩ else none
    unmarshalSignatureHeader := fun bytes =>
      if bytes = signatureHeader then some ⟨some [111], some [110]⟩
      else none }

/-- The digest of the data, and a policy manager for the channel. -/
def mcs : MessageCryptoService where
  computeSHA256 bytes := if bytes = envelope 97 then digest else []
  blockValidation channel :=
    if channel = .letter 'c' then some fun _ => false else none

end OutOfRange

/-- The peer that verifies this block does not get an error: it panics. -/
theorem verifyBlock_panics :
    verifyBlock OutOfRange.codec OutOfRange.mcs (.letter 'c')
      OutOfRange.number OutOfRange.signedBlock = .panic := by
  decide

/-! ## Integrity of the data -/

/-- The block has the header of another one, as far as it is encoded. -/
structure CarriesHeader (original received : BlockHeader) : Prop where
  number : received.number = original.number
  previousHash : received.previousHash.bytes = original.previousHash.bytes
  dataHash : received.dataHash.bytes = original.dataHash.bytes

/-- The lengths of the transactions of a block, in order. -/
def transactionLengths (block : Block) : Option (List Nat) :=
  block.data.map fun data => data.data.map List.length

section

variable {codec : Codec} {mcs : MessageCryptoService} {chainID : GoString} {seqNum : UInt64}

theorem dataHash_of_accepted {signedBlock : Bytes} {block : Block} {header : BlockHeader}
    (accepted : verifyBlock codec mcs chainID seqNum signedBlock = .ok ⟨⟩)
    (decoded : codec.unmarshalBlock signedBlock = some block)
    (hasHeader : block.header = some header) :
    ∃ data, block.data = some data ∧ dataHash mcs.computeSHA256 data = header.dataHash.bytes := by
  rcases bind_ok_iff.mp accepted with ⟨⟨checkedHeader, metadata, policy⟩, checked, _⟩
  rcases (checkBlock_ok_iff checkedHeader metadata policy).mp checked with
    ⟨_, checkedDecoded, passes⟩
  rw [decoded] at checkedDecoded
  have sameBlock := Option.some.inj checkedDecoded
  have checkedHasHeader := passes.hasHeader
  rw [← sameBlock, hasHeader] at checkedHasHeader
  have sameHeader := Option.some.inj checkedHasHeader
  rw [sameBlock, sameHeader]
  exact passes.hash

/-- Data with the same hash are equal if the boundaries are. -/
theorem data_eq_iff_of_dataHash_eq (injective : Function.Injective mcs.computeSHA256)
    {left right : Block} {leftData rightData : BlockData} (leftHas : left.data = some leftData)
    (rightHas : right.data = some rightData)
    (hashes : dataHash mcs.computeSHA256 leftData = dataHash mcs.computeSHA256 rightData) :
    left.data = right.data ↔ transactionLengths left = transactionLengths right := by
  unfold transactionLengths
  rw [leftHas, rightHas]
  constructor
  · intro equal
    rw [Option.some.inj equal]
  · intro lengths
    congr 1
    apply data_eq_of_dataBytes_eq (injective hashes)
    simpa using lengths

/--
An accepted block with the header of a produced block carries the produced
transactions exactly when its transactions have the same lengths; and the same
holds between any two accepted blocks with that header.
-/
theorem accepted_data_eq_iff (injective : Function.Injective mcs.computeSHA256)
    {source : BlockSource} (sameHash : source.computeSHA256 = mcs.computeSHA256)
    {messages : List Envelope} {produced : Block} {producedHeader : BlockHeader}
    (produce : produceBlock codec source messages = (.ok produced : Outcome VerifyError Block))
    (producedHas : produced.header = some producedHeader)
    {signedBlock : Bytes} {received : Block} {receivedHeader : BlockHeader}
    (accepted : verifyBlock codec mcs chainID seqNum signedBlock = .ok ⟨⟩)
    (decoded : codec.unmarshalBlock signedBlock = some received)
    (receivedHas : received.header = some receivedHeader)
    (carries : CarriesHeader producedHeader receivedHeader) :
    (received.data = produced.data ↔ transactionLengths received = transactionLengths produced) ∧
      ∀ otherBytes other otherHeader, verifyBlock codec mcs chainID seqNum otherBytes = .ok ⟨⟩ →
        codec.unmarshalBlock otherBytes = some other →
        other.header = some otherHeader →
        CarriesHeader producedHeader otherHeader →
        (other.data = received.data ↔ transactionLengths other = transactionLengths received) := by
  rcases dataHash_of_accepted accepted decoded receivedHas with ⟨_, receivedHasData, receivedHash⟩
  constructor
  · rcases produceBlock_dataHash produce with ⟨header, _, hasHeader, producedHasData, producedHash⟩
    rw [producedHas] at hasHeader
    have sameHeader := Option.some.inj hasHeader
    apply data_eq_iff_of_dataHash_eq injective receivedHasData producedHasData
    rw [receivedHash, carries.dataHash, sameHeader, producedHash, sameHash]
    rfl
  · intro otherBytes other otherHeader otherAccepted otherDecoded otherHas otherCarries
    rcases dataHash_of_accepted otherAccepted otherDecoded otherHas with
      ⟨_, otherHasData, otherHash⟩
    apply data_eq_iff_of_dataHash_eq injective otherHasData receivedHasData
    rw [otherHash, receivedHash, carries.dataHash, otherCarries.dataHash]

end

/-! A block of two transactions that a relay delivers as one. -/

namespace Resplit

open OutOfRange (channelHeader payload envelope signatureHeader)

/-- The two encoded transactions, one after the other. -/
def joined : Bytes := envelope 97 ++ envelope 98

def digest : Bytes :=
  [75, 42, 205, 4, 248, 114, 158, 55, 164, 124, 197, 148, 88, 170, 24, 123,
    78, 238, 200, 182, 150, 225, 104, 108, 9, 245, 1, 39, 199, 115, 197, 229]

/-- An injective function with the digest of the joined transactions. -/
def computeSHA256 (bytes : Bytes) : Bytes :=
  if bytes = joined then digest else 0 :: bytes

theorem computeSHA256_injective : Function.Injective computeSHA256 := by
  intro _ _ equal
  unfold computeSHA256 at equal
  split_ifs at equal with leftJoined rightJoined rightJoined
  · rw [leftJoined, rightJoined]
  · simp [digest] at equal
  · simp [digest] at equal
  · exact (List.cons.inj equal).2

/-- The orderer, whose signatures let the signed bytes be recovered. -/
def source : BlockSource where
  computeSHA256 := computeSHA256
  newest := none
  newSignatureHeader := signatureHeader
  sign bytes := 7 :: bytes

/-- The policy asks for valid signatures of the orderer. -/
def mcs : MessageCryptoService where
  computeSHA256 := computeSHA256
  blockValidation channel := if channel = .letter 'c' then
      some fun signatureSet =>
        !signatureSet.isEmpty && signatureSet.all fun signed =>
            signed.identity == some [111] && signed.signature == some (7 :: signed.data)
    else
      none

def header : BlockHeader := ⟨0, none, some digest⟩

def signed : Bytes :=
  signatureHeader ++ asn1Sequence [asn1Integer 0, asn1OctetString [], asn1OctetString digest]

def signatures : Bytes :=
  field 2 (field 1 signatureHeader ++ field 2 (7 :: signed))

/-- A block with the signed header and the given transactions. -/
def block (data : List Bytes) : Block where
  header := some header
  data := some ⟨data⟩
  metadata := some ⟨[signatures, [], [], []]⟩

def produced : Block := block [envelope 97, envelope 98]

def delivered : Block := block [joined]

def encodedBlock (data : List Bytes) : Bytes :=
  field 1 (field 3 digest) ++ field 2 (data.flatMap (field 1)) ++
    field 3 ([signatures, [], [], []].flatMap (field 1))

/--
The decoders, on the parts of the block.  Of two envelopes in a row the fields
of the second one win.
-/
def codec : Codec :=
  { OutOfRange.codec with
    unmarshalBlock := fun bytes =>
      if bytes = encodedBlock [envelope 97, envelope 98] then some produced
      else if bytes = encodedBlock [joined] then some delivered
      else none
    unmarshalEnvelope := fun bytes =>
      if bytes = joined then some ⟨some (payload 98), none⟩
      else OutOfRange.codec.unmarshalEnvelope bytes
    unmarshalPayload := fun bytes =>
      if bytes = payload 98 then some ⟨some ⟨some channelHeader, none⟩, some [98]⟩
      else OutOfRange.codec.unmarshalPayload bytes
    unmarshalMetadata := fun bytes =>
      if bytes = signatures then some ⟨none, [⟨some signatureHeader, some (7 :: signed)⟩]⟩ else none
    marshalEnvelope := fun message => field 1 message.payload.bytes
    marshalMetadata := fun metadata =>
      metadata.signatures.flatMap fun signature =>
        field 2 (field 1 signature.signatureHeader.bytes ++ field 2 signature.signature.bytes) }

def messages : List Envelope := [⟨some (payload 97), none⟩, ⟨some (payload 98), none⟩]

end Resplit

/--
The orderer signs a block of two transactions; a relay delivers the block with
the same header and the same metadata and with one transaction.  It is
accepted.
-/
theorem accepted_data_ne :
    Function.Injective Resplit.mcs.computeSHA256 ∧
      produceBlock Resplit.codec Resplit.source Resplit.messages =
        (.ok Resplit.produced : Outcome VerifyError Block) ∧
      verifyBlock Resplit.codec Resplit.mcs (.letter 'c') 0
        (Resplit.encodedBlock [Resplit.joined]) = .ok ⟨⟩ ∧
      Resplit.codec.unmarshalBlock (Resplit.encodedBlock [Resplit.joined]) =
        some Resplit.delivered ∧
      Resplit.delivered.header = Resplit.produced.header ∧
      Resplit.delivered.metadata = Resplit.produced.metadata ∧
      Resplit.delivered.data ≠ Resplit.produced.data := by
  refine ⟨Resplit.computeSHA256_injective, ?_, ?_, ?_, rfl, rfl, ?_⟩
  · decide +kernel
  · decide +kernel
  · decide +kernel
  · decide +kernel

/-- The same block delivered as it was produced. -/
theorem accepted_data_eq_iff_unchanged :
    Resplit.produced.data = some ⟨[OutOfRange.envelope 97, OutOfRange.envelope 98]⟩ ∧
    ∀ otherBytes other otherHeader,
      verifyBlock Resplit.codec Resplit.mcs (.letter 'c') 0 otherBytes = .ok ⟨⟩ →
      Resplit.codec.unmarshalBlock otherBytes = some other →
      other.header = some otherHeader →
      CarriesHeader Resplit.header otherHeader →
      (other.data = Resplit.produced.data ↔
        transactionLengths other = transactionLengths Resplit.produced) := by
  have produce : produceBlock Resplit.codec Resplit.source Resplit.messages =
        (.ok Resplit.produced : Outcome VerifyError Block) := by
    decide +kernel
  have accepted : verifyBlock Resplit.codec Resplit.mcs (.letter 'c') 0
        (Resplit.encodedBlock [OutOfRange.envelope 97, OutOfRange.envelope 98]) = .ok ⟨⟩ := by
    decide +kernel
  have decoded : Resplit.codec.unmarshalBlock
          (Resplit.encodedBlock [OutOfRange.envelope 97, OutOfRange.envelope 98]) =
        some Resplit.produced := by
    decide +kernel
  have integrity := accepted_data_eq_iff Resplit.computeSHA256_injective rfl produce rfl
      accepted decoded rfl ⟨rfl, rfl, rfl⟩
  exact ⟨integrity.1.mpr rfl, integrity.2⟩

end Fabric.Peer.VerifyBlock
