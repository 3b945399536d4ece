import Fabric.Protos

/-!
# Blocks and their hashes

A block is identified by its header, and the header commits to the
transactions through the hash of their concatenation.  The ordering service
builds the next block from the newest one and signs the encoded header; the
signature is carried in the metadata of the block.

The encoded header is the ASN.1 encoding of its three fields.  It is defined
only for numbers that fit a signed 64-bit integer.
-/

namespace Fabric.Blocks

open Library Outcome ByteString Protos

/-! ## ASN.1 -/

/-- The big-endian digits of a number of at most `width` bytes. -/
def bigEndian : Nat → Nat → Bytes
  | 0, _ => []
  | width + 1, number =>
    if number < 256 then [UInt8.ofNat number]
    else bigEndian width (number / 256) ++ [UInt8.ofNat (number % 256)]

def asn1Length (length : Nat) : Bytes :=
  if length < 128 then
    [UInt8.ofNat length]
  else
    let octets := bigEndian 8 length
    UInt8.ofNat (128 + octets.length) :: octets

def asn1Value (tag : UInt8) (content : Bytes) : Bytes :=
  tag :: asn1Length content.length ++ content

/-- A nonnegative integer; a set high bit calls for a leading zero octet. -/
def asn1Integer (number : Nat) : Bytes :=
  let octets := bigEndian 8 number
  asn1Value 2 (match octets with
    | first :: _ => if 128 ≤ first then 0 :: octets else octets
    | [] => octets)

def asn1OctetString (content : Bytes) : Bytes :=
  asn1Value 4 content

def asn1Sequence (contents : List Bytes) : Bytes :=
  asn1Value 48 contents.flatten

/-! ## Headers and data -/

def maxInt64 : UInt64 := 9223372036854775807

/-- The encoded header; a number beyond the signed range panics. -/
def headerBytes {Reason : Type} (header : BlockHeader) : Outcome Reason Bytes :=
  if maxInt64 < header.number then
    .panic
  else
    .ok (asn1Sequence [asn1Integer header.number.toNat, asn1OctetString header.previousHash.bytes,
          asn1OctetString header.dataHash.bytes])

variable {Reason : Type}

theorem headerBytes_panic_iff (header : BlockHeader) :
    headerBytes header = (.panic : Outcome Reason Bytes) ↔ maxInt64 < header.number := by
  unfold headerBytes
  split <;> simp_all

/-- The hash the next block names. -/
def headerHash {Reason : Type} (computeSHA256 : Bytes → Bytes) (header : BlockHeader) :
    Outcome Reason Bytes := do
  let bytes ← headerBytes header
  pure (computeSHA256 bytes)

def concatenateBytes (data : List Bytes) : Bytes :=
  data.flatten

/-- The entries of a block, joined. -/
def dataBytes (data : BlockData) : Bytes :=
  concatenateBytes data.data

/-- The hash of a block's entries. -/
def dataHash (computeSHA256 : Bytes → Bytes) (data : BlockData) : Bytes :=
  computeSHA256 (dataBytes data)

/--
Lists with equal concatenations are equal as soon as their entries have equal
lengths.
-/
theorem data_eq_of_dataBytes_eq {left right : BlockData}
    (concatenations : dataBytes left = dataBytes right)
    (lengths : left.data.map List.length = right.data.map List.length) :
    left = right := by
  rcases left with ⟨left⟩
  rcases right with ⟨right⟩
  congr 1
  change left.flatten = right.flatten at concatenations
  change left.map List.length = right.map List.length at lengths
  induction left generalizing right with
  | nil => simpa using lengths.symm
  | cons _ _ ih =>
    cases right with
    | nil => simp at lengths
    | cons _ rightTail =>
      rw [List.map_cons, List.map_cons, List.cons.injEq] at lengths
      rw [List.flatten_cons, List.flatten_cons] at concatenations
      have parts := List.append_inj concatenations lengths.1
      rw [parts.1, ih rightTail parts.2 lengths.2]

/-! ## Building blocks -/

/-- The positions of the block metadata. -/
def signaturesIndex : Nat := 0
def ordererIndex : Nat := 3

/-- An empty block with one empty entry for each kind of metadata. -/
def newBlock (seqNum : UInt64) (previousHash : Slice) : Block where
  header := some ⟨seqNum, previousHash, none⟩
  data := some ⟨[]⟩
  metadata := some ⟨[[], [], [], []]⟩

/-- The ordering service's view of its newest block and of its signer. -/
structure BlockSource where
  computeSHA256 : Bytes → Bytes
  newest : Option BlockHeader
  newSignatureHeader : Bytes
  sign : Bytes → Bytes

section

variable {Reason : Type} (codec : Codec) (source : BlockSource)

/-- The number of the next block and the hash it points back to. -/
def nextBlockPosition : Outcome Reason (UInt64 × Slice) :=
  match source.newest with
  | none => .ok (0, none)
  | some header => do
      let hash ← headerHash source.computeSHA256 header
      pure (header.number + 1, some hash)

/-- The next block of a chain, carrying the given messages. -/
def createNextBlock (messages : List Envelope) : Outcome Reason Block := do
  let (nextBlockNumber, previousBlockHash) ← nextBlockPosition source
  let data : BlockData := ⟨messages.map codec.marshalEnvelope⟩
  let dataHash := dataHash source.computeSHA256 data
  let block := newBlock nextBlockNumber previousBlockHash
  pure
    { block with
      header := some ⟨nextBlockNumber, previousBlockHash, some dataHash⟩
      data := some data }

/-- Signs a block. -/
def addBlockSignature (block : Block) : Outcome Reason Block := do
  let header ← deref block.header
  let bytes ← headerBytes header
  let metadata ← deref block.metadata
  let signature : MetadataSignature :=
    { signatureHeader := some source.newSignatureHeader
      signature := some (source.sign (concatenateBytes [[], source.newSignatureHeader, bytes])) }
  let encoded := codec.marshalMetadata ⟨none, [signature]⟩
  pure
    { block with metadata := some ⟨metadata.metadata.set signaturesIndex encoded⟩ }

/-- A block as the ordering service hands it out. -/
def produceBlock (messages : List Envelope) : Outcome Reason Block := do
  let block ← createNextBlock codec source messages
  addBlockSignature codec source block

end

variable {messages : List Envelope} {source : BlockSource} {codec : Codec} {block : Block}

theorem produceBlock_dataHash
    (produced : produceBlock codec source messages = (.ok block : Outcome Reason Block)) :
    ∃ header data, block.header = some header ∧ block.data = some data ∧
        header.dataHash = some (dataHash source.computeSHA256 data) := by
  rcases bind_ok_iff.mp produced with ⟨_, create, signed⟩
  rcases bind_ok_iff.mp create with ⟨⟨_, _⟩, _, create⟩
  rcases bind_ok_iff.mp signed with ⟨header, _, signed⟩
  rcases bind_ok_iff.mp signed with ⟨_, _, signed⟩
  rcases bind_ok_iff.mp signed with ⟨_, _, signed⟩
  have createdEq := Outcome.ok.inj create
  have blockEq := Outcome.ok.inj signed
  rw [← blockEq, ← createdEq]
  exact ⟨_, _, rfl, rfl, rfl⟩

end Fabric.Blocks
