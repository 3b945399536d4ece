import Fabric.Blocks
import Fabric.Library.Log
import Fabric.Orderer.Filters

/-!
# Writing and reloading the blocks of a channel

The orderer keeps the number of the last configuration block of a channel in
memory, together with the sequence number of the configuration it holds.  It
tells that a block carries a configuration from a change of the sequence number
of the manager, and records the number of the last configuration block in the
metadata of every block.  When the orderer starts it reads the number from the
newest block, loads the configuration from there, and takes the numbers up
again.

A ledger is the list of its blocks.  Storing a block and reading it back do not
change it.
-/

namespace Fabric.Orderer.ChainSupport

open Library Outcome ByteString Protos Blocks ConfigTx.Manager Filters

/-! ## Reading a ledger -/

def height (ledger : List Block) : UInt64 :=
  UInt64.ofNat ledger.length

/-- The block of a given number, if the ledger has it. -/
def getBlock (ledger : List Block) (index : UInt64) : Option Block :=
  ledger[index.toNat]?

/-- The newest block; an empty ledger has none. -/
def lastBlock (ledger : List Block) : Option Block :=
  getBlock ledger (height ledger - 1)

/-- The transaction that the newest block names as the last configuration. -/
def getConfigTx {Reason : Type} (codec : Codec) (reader : List Block) :
    Outcome Reason Envelope := do
  let last ← deref (lastBlock reader)
  let index ← (getLastConfigIndexFromBlock codec last).orPanic
  let configBlock ← deref (getBlock reader index)
  (extractEnvelope codec configBlock 0).orPanic

/-! ## Chains -/

/-- What an orderer is set up with. -/
structure Environment (Resources : Type) where
  handlers : ChannelHandlers Resources
  codec : Codec
  /-- The resources before a configuration is loaded. -/
  initializer : Resources
  /-- Is there a consenter for the configuration that takes the chain on? -/
  handleChain : Resources → Metadata → Bool
  computeSHA256 : Bytes → Bytes
  newSignatureHeader : Bytes
  sign : Bytes → Bytes

/-- A manager and what is remembered of the last configuration block. -/
structure Support (Resources : Type) where
  manager : ConfigManager Resources
  lastConfig : UInt64
  lastConfigSeq : UInt64

variable {Resources Reason : Type}

section

variable (env : Environment Resources)

def Environment.source (ledger : List Block) : BlockSource where
  computeSHA256 := env.computeSHA256
  newest := ledger.getLast?.bind Block.header
  newSignatureHeader := env.newSignatureHeader
  sign := env.sign

def newChainSupport (manager : ConfigManager Resources) (reader : List Block) :
    Outcome Reason (Support Resources) := do
  let last ← deref (lastBlock reader)
  let header ← deref last.header
  let lastConfig ←
    if header.number ≠ 0 then (getLastConfigIndexFromBlock env.codec last).orPanic else .ok 0
  let metadata ← (getMetadataFromBlock env.codec last ordererIndex).orPanic
  if env.handleChain manager.resources metadata then .ok ⟨manager, lastConfig, manager.sequence⟩
  else .panic

/-- Note a change of the configuration that a block carries. -/
def Support.noteConfig (support : Support Resources) (number : UInt64) : Support Resources :=
  if support.lastConfigSeq < support.manager.sequence then
    { support with
      lastConfig := number
      lastConfigSeq := support.manager.sequence }
  else
    support

/-- Record the number of the last configuration block in a block. -/
def addLastConfigSignature (support : Support Resources) (block : Block) :
    Outcome Reason (Support Resources × Block) := do
  let header ← deref block.header
  let support := support.noteConfig header.number
  let lastConfigValue := env.codec.marshalLastConfig ⟨support.lastConfig⟩
  let bytes ← headerBytes header
  let metadata ← deref block.metadata
  let signature : MetadataSignature :=
    { signatureHeader := some env.newSignatureHeader
      signature := some (env.sign (concatenateBytes
              [lastConfigValue, env.newSignatureHeader, bytes])) }
  let encoded := env.codec.marshalMetadata ⟨some lastConfigValue, [signature]⟩
  .ok (support, { block with metadata := some ⟨metadata.metadata.set lastConfigIndex encoded⟩ })

/-- Store what the consenter wants to be reminded of, if anything. -/
def setOrdererMetadata (block : Block) (encodedMetadataValue : Slice) : Outcome Reason Block :=
  match encodedMetadataValue with
  | none => .ok block
  | some value => do
      let metadata ← deref block.metadata
      let encoded := env.codec.marshalMetadata ⟨some value, []⟩
      .ok
        { block with metadata := some ⟨metadata.metadata.set ordererIndex encoded⟩ }

section

variable (ledger : List Block)

/-- Append a block, which must have the number of the next block. -/
def append (block : Block) : Outcome Reason (List Block) := do
  let header ← deref block.header
  if header.number = height ledger then .ok (ledger ++ [block]) else .panic

/-- Complete a block whose committers have run, and append it. -/
def finishBlock (support : Support Resources) (block : Block) (encodedMetadataValue : Slice) :
    Outcome Reason (Support Resources × List Block) := do
  let block ← setOrdererMetadata env block encodedMetadataValue
  let block ← addBlockSignature env.codec (env.source ledger) block
  let (support, block) ← addLastConfigSignature env support block
  let ledger ← append ledger block
  .ok (support, ledger)

/--
Start a chain from a configuration transaction, whatever its ledger holds.  The
first block of a new chain has no metadata.
-/
def newChain (configtx : Envelope) : Outcome Reason (Support Resources × List Block) := do
  let manager ← (newManagerImpl env.handlers.toHandlers env.codec env.initializer
      (some configtx)).orPanic
  let block ← createNextBlock env.codec (env.source ledger) [configtx]
  let ledger := ledger ++ [block]
  let support ← newChainSupport env manager ledger
  .ok (support, ledger)

/-- Rebuilds a chain from its ledger. -/
def restartChain : Outcome Reason (Support Resources) := do
  let configTx ← getConfigTx env.codec ledger
  let manager ← (newManagerImpl env.handlers.toHandlers env.codec env.initializer
      (some configTx)).orPanic
  newChainSupport env manager ledger

end

end

/-! ## Numbers of blocks -/

/-- The blocks of a ledger are numbered by their positions. -/
def Numbered (ledger : List Block) : Prop :=
  ∀ (position : Nat) (block : Block), ledger[position]? = some block →
      ∃ header, block.header = some header ∧ header.number.toNat = position

variable {env : Environment Resources} {header : BlockHeader} {block : Block}

section

variable {ledger : List Block}

section

variable (numbered : Numbered ledger)
include numbered

theorem Numbered.append (hasHeader : block.header = some header)
    (next : header.number.toNat = ledger.length) :
    Numbered (ledger ++ [block]) := by
  intro position found present
  rcases Log.getElem?_concat_eq_some_iff.mp present with old | ⟨rfl, rfl⟩
  · exact numbered position found old
  · exact ⟨header, hasHeader, next⟩

theorem Numbered.length_le : ledger.length ≤ UInt64.size := by
  rcases ledger.eq_nil_or_concat with rfl | ⟨earlier, last, rfl⟩
  · exact Nat.zero_le _
  · rcases numbered earlier.length last (by simp) with ⟨header, _, _⟩
    have bounded := header.number.toNat_lt_size
    simp only [List.concat_eq_append, List.length_append, List.length_singleton]
    omega

/-- The number of the newest block, also if the height wraps around. -/
theorem Numbered.toNat_height_sub_one (nonempty : ledger ≠ []) :
    (height ledger - 1).toNat = ledger.length - 1 := by
  have bounded := numbered.length_le
  have positive := List.length_pos_iff.mpr nonempty
  simp only [UInt64.size] at bounded
  rw [height, UInt64.toNat_sub, UInt64.toNat_ofNat', UInt64.toNat_one]
  omega

theorem Numbered.lastBlock_eq (nonempty : ledger ≠ []) :
    lastBlock ledger = ledger[ledger.length - 1]? := by
  rw [lastBlock, getBlock, numbered.toNat_height_sub_one nonempty]

end

/-- The next block is numbered by the length of the ledger. -/
theorem Numbered.toNat_nextBlockPosition
    (numbered : Numbered ledger) {number : UInt64} {previous : Slice}
    (position : nextBlockPosition (env.source ledger) =
        (.ok (number, previous) : Outcome Reason (UInt64 × Slice))) :
    number.toNat = ledger.length := by
  rcases ledger.eq_nil_or_concat with rfl | ⟨earlier, last, rfl⟩
  · cases position
    rfl
  · rcases numbered earlier.length last (by simp) with ⟨header, hasHeader, same⟩
    have newest : (env.source (earlier.concat last)).newest = some header := by
      simp [Environment.source, hasHeader]
    simp only [nextBlockPosition, newest, headerHash, headerBytes, bind_ok_iff, pure_ok,
      Outcome.ok.injEq, Prod.mk.injEq] at position
    rcases position with ⟨_, ⟨_, encoded, _⟩, rfl, _⟩
    have small : ¬ maxInt64 < header.number := by
      intro large
      simp [large] at encoded
    have bounded : header.number.toNat ≤ maxInt64.toNat :=
      UInt64.le_iff_toNat_le.mp (UInt64.not_lt.mp small)
    rw [UInt64.toNat_add, UInt64.toNat_one, same]
    have limit : maxInt64.toNat = 9223372036854775807 := rfl
    simp only [List.concat_eq_append, List.length_append, List.length_singleton]
    omega

end

/-! ## What is stored with a block -/

section

/-- What is assumed of the encodings of envelopes and metadata. -/
structure Restores (codec : Codec) : Prop where
  /--
  The payload of an envelope that was read from the wire survives another round.  An
  explicit empty field may come back as a nil one.
  -/
  envelope : ∀ {raw : Bytes} {message : Envelope}, codec.unmarshalEnvelope raw = some message →
      ∃ restored, codec.unmarshalEnvelope (codec.marshalEnvelope message) = some restored ∧
        restored.payload.bytes = message.payload.bytes
  lastConfig : ∀ (lc : LastConfig) (signatures : List MetadataSignature), ∃ md,
      codec.unmarshalMetadata (codec.marshalMetadata
            ⟨some (codec.marshalLastConfig lc), signatures⟩) = some md ∧
        codec.unmarshalLastConfig md.value.bytes = some lc

variable {codec : Codec}

/-- The metadata of a block has an entry of each kind. -/
def HasEntries (block : Block) (entries : List Bytes) : Prop :=
  block.metadata = some ⟨entries⟩ ∧ entries.length = 4

variable {entries : List Bytes}

variable {metadata : Slice}

theorem exists_of_setOrdererMetadata {block noted : Block} (fresh : HasEntries block entries)
    (notes : setOrdererMetadata env block metadata = (.ok noted : Outcome Reason Block)) :
    noted.header = block.header ∧ noted.data = block.data ∧ ∃ later, HasEntries noted later := by
  rcases fresh with ⟨fresh, count⟩
  cases metadata with
  | none =>
    cases notes
    exact ⟨rfl, rfl, entries, fresh, count⟩
  | some _ =>
    simp only [setOrdererMetadata, fresh, deref_some, ok_bind, Outcome.ok.injEq] at notes
    cases notes
    exact ⟨rfl, rfl, _, rfl, by simpa using count⟩

theorem exists_of_addBlockSignature {source : BlockSource} {block signed : Block}
    (fresh : HasEntries block entries)
    (signs : addBlockSignature codec source block = (.ok signed : Outcome Reason Block)) :
    signed.header = block.header ∧ signed.data = block.data ∧ ∃ later, HasEntries signed later := by
  rcases fresh with ⟨fresh, count⟩
  simp only [addBlockSignature, fresh, bind_ok_iff, deref_ok_iff, Option.some.injEq,
    pure_ok, Outcome.ok.injEq] at signs
  rcases signs with ⟨_, _, _, _, _, rfl, rfl⟩
  exact ⟨rfl, rfl, _, rfl, by simpa using count⟩

theorem exists_of_finishBlock (restores : Restores env.codec)
    {ledger later : List Block} {support next : Support Resources}
    {block : Block} {header : BlockHeader} {metadata : Slice}
    (hasHeader : block.header = some header) (fresh : HasEntries block entries)
    (finished : finishBlock env ledger support block metadata =
        (.ok (next, later) : Outcome Reason (Support Resources × List Block))) :
    next = support.noteConfig header.number ∧ ∃ written,
        later = ledger ++ [written] ∧ written.header = some header ∧ written.data = block.data ∧
          getLastConfigIndexFromBlock env.codec written = .ok next.lastConfig := by
  rcases bind_ok_iff.mp finished with ⟨_, notes, finished⟩
  rcases bind_ok_iff.mp finished with ⟨_, signs, finished⟩
  rcases bind_ok_iff.mp finished with ⟨⟨_, written⟩, records, finished⟩
  rcases bind_ok_iff.mp finished with ⟨_, appends, same⟩
  cases same
  rcases exists_of_setOrdererMetadata fresh notes with ⟨notedHeader, notedData, _, entries⟩
  rcases exists_of_addBlockSignature entries signs with
    ⟨signedHeader, signedData, later, entries, count⟩
  rw [← notedHeader, ← signedHeader] at hasHeader
  simp only [addLastConfigSignature, hasHeader, entries, bind_ok_iff, deref_ok_iff,
    Option.some.injEq, Outcome.ok.injEq, Prod.mk.injEq] at records
  rcases records with ⟨_, rfl, _, _, _, rfl, rfl, same⟩
  refine ⟨rfl, written, ?_, ?_, ?_, ?_⟩ <;> subst same
  · simp only [append, deref_some, ok_bind] at appends
    split at appends
    · exact (Outcome.ok.inj appends).symm
    · cases appends
  · rfl
  · exact signedData.trans notedData
  · have inside : lastConfigIndex < later.length := by simp [count, lastConfigIndex]
    simp only [getLastConfigIndexFromBlock, getMetadataFromBlock,
      deref_some, ok_bind, List.getElem?_set_self inside]
    rcases restores.lastConfig _ _ with ⟨_, decoded, read⟩
    rw [decoded]
    simp only [ofOption, ok_bind, read]

end

end Fabric.Orderer.ChainSupport
