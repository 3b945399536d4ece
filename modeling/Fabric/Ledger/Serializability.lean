import Fabric.Ledger.ReadValidation

/-!
# Serializability of the committed transactions

A transaction is simulated against some committed state, ordered later, and
validated against the state at its place in the ledger.  This module shows
that a transaction that the validator marks valid behaves as if it had been
executed at that place: re-running its simulation on the state that the
preceding valid transactions leave behind returns the same values and produces
the same read-write set.

The serial state is defined by applying write sets one after the other,
without reference to the validator's pending batch.
-/

namespace Fabric.Ledger.Serializability

open Library Outcome ByteString Protos StateDB RWSet QueryResults Simulator Replay StateValidator
  ReadValidation VersionedDB

/-! ## Serial execution -/

/-- The read-write set of an enveloped endorser transaction. -/
def transactionRWSet (codec : Codec) (envBytes : Bytes) : Option TxRwSet :=
  match transactionType codec envBytes with
  | .ok txType =>
    if txType = HeaderType.endorserTransaction then
      match getActionFromEnvelope codec (some envBytes) with
      | .ok action => fromProtoBytes codec action.results
      | _ => none
    else
      none
  | _ => none

/-- Write a value, or remove the key. -/
def applyWrite (ns : GoString) (txHeight : Height) (db : VersionedDB)
    (kvWrite : KVWrite) : VersionedDB :=
  ⟨fun other =>
    if ns = other then
      OrderedStore.applyUpdate (db.namespaces other) kvWrite.key (if kvWrite.isDelete then none
          else some ⟨kvWrite.value.bytes, txHeight⟩)
    else
      db.namespaces other⟩

/-- Apply all writes of a transaction, in order. -/
def applyWriteSet (txRWSet : TxRwSet) (txHeight : Height) (db : VersionedDB) : VersionedDB :=
  txRWSet.nsRwSets.foldl (fun db nsRWSet =>
      nsRWSet.kvRwSet.writes.foldl (applyWrite nsRWSet.nameSpace txHeight) db)
    db

/-- The effect of one position of a block. -/
def commitAt (codec : Codec) (blockNum : UInt64) (txsFilter : TxValidationFlags)
    (txIndex : Nat) (db : VersionedDB) (envBytes : Bytes) : VersionedDB :=
  if txsFilter[txIndex]? = some TxValidationCode.valid.number then
    match transactionRWSet codec envBytes with
    | some txRWSet => applyWriteSet txRWSet ⟨blockNum, UInt64.ofNat txIndex⟩ db
    | none => db
  else
    db

/-- The effect of the valid transactions from a position on. -/
def serialFrom (codec : Codec) (blockNum : UInt64) (txsFilter : TxValidationFlags) :
    Nat → VersionedDB → List Bytes → VersionedDB
  | _, db, [] => db
  | txIndex, db, envBytes :: rest =>
    serialFrom codec blockNum txsFilter (txIndex + 1)
      (commitAt codec blockNum txsFilter txIndex db envBytes) rest

theorem getState_applyWrite (ns otherNs otherKey : GoString) (txHeight : Height) (db : VersionedDB)
    (kvWrite : KVWrite) : (applyWrite ns txHeight db kvWrite).getState otherNs otherKey =
      if ns = otherNs ∧ kvWrite.key = otherKey then
        if kvWrite.isDelete then none
        else some ⟨kvWrite.value.bytes, txHeight⟩
      else
        db.getState otherNs otherKey := by
  unfold applyWrite getState
  by_cases sameNs : ns = otherNs
  · by_cases sameKey : kvWrite.key = otherKey
    · subst sameKey
      simp [sameNs]
    · simp [sameNs, sameKey, OrderedStore.getElem?_applyUpdate_of_ne]
  · simp [sameNs]

theorem getState_applyUpdates_set (db : VersionedDB) (batch : UpdateBatch) (ns key : GoString)
    (entry : VersionedValue) (otherNs otherKey : GoString) :
    (db.applyUpdates (batch.set ns key entry)).getState otherNs otherKey =
      if ns = otherNs ∧ key = otherKey then entry.stored
      else (db.applyUpdates batch).getState otherNs otherKey := by
  simp only [getState_applyUpdates, UpdateBatch.get_set]
  split <;> simp

variable {batch later : UpdateBatch} {txHeight : Height} {kvWrite : KVWrite}

/-- Adding a write to the batch is writing to the state. -/
theorem applyUpdates_addWriteToBatch {ns : GoString} (db : VersionedDB)
    (added : addWriteToBatch ns txHeight batch kvWrite = .ok later) :
    db.applyUpdates later = applyWrite ns txHeight (db.applyUpdates batch) kvWrite := by
  refine ext_getState fun _ _ => ?_
  rw [getState_applyWrite]
  unfold addWriteToBatch at added
  split at added
  · rename_i deleted
    obtain rfl := Outcome.ok.inj added
    rw [UpdateBatch.delete, getState_applyUpdates_set]
    simp [deleted, VersionedValue.stored]
  · rename_i written
    cases value : kvWrite.value with
    | none =>
      rw [value] at added
      cases added
    | some _ =>
      rw [value] at added
      obtain rfl := Outcome.ok.inj added
      rw [getState_applyUpdates_set]
      simp [written, VersionedValue.stored]

private theorem applyUpdates_foldlM {Item : Type} (db : VersionedDB)
    (add : UpdateBatch → Item → Outcome DecodeError UpdateBatch)
    (apply : VersionedDB → Item → VersionedDB)
    (step : ∀ batch item later, add batch item = .ok later →
        db.applyUpdates later = apply (db.applyUpdates batch) item)
    {items : List Item} (added : items.foldlM add batch = .ok later) :
    db.applyUpdates later = items.foldl apply (db.applyUpdates batch) := by
  induction items generalizing batch with
  | nil =>
    obtain rfl := Outcome.ok.inj added
    rfl
  | cons item items ih =>
    rw [List.foldlM_cons] at added
    obtain ⟨middle, first, rest⟩ := bind_ok_iff.mp added
    rw [ih rest, step batch item middle first]
    rfl

variable {txRWSet : TxRwSet}

theorem applyUpdates_addWriteSetToBatch (db : VersionedDB)
    (added : addWriteSetToBatch txRWSet txHeight batch = .ok later) :
    db.applyUpdates later = applyWriteSet txRWSet txHeight (db.applyUpdates batch) := by
  refine applyUpdates_foldlM db _ _ ?_ added
  intro _ _ _ nsAdded
  refine applyUpdates_foldlM db _ _ ?_ nsAdded
  intro _ _ _ writeAdded
  exact applyUpdates_addWriteToBatch db writeAdded

/-! ## The versions of a block -/

/-- Every entry of the batch carries the number of the block. -/
def WrittenIn (blockNum : UInt64) (batch : UpdateBatch) : Prop :=
  ∀ ns key entry, batch.get ns key = some entry → entry.version.blockNum = blockNum

theorem writtenIn_new (blockNum : UInt64) : WrittenIn blockNum UpdateBatch.new := by
  intro _ _ _ found
  simp at found

variable {blockNum : UInt64}

theorem WrittenIn.set {batch : UpdateBatch} (written : WrittenIn blockNum batch) (ns key : GoString)
    {entry : VersionedValue} (fresh : entry.version.blockNum = blockNum) :
    WrittenIn blockNum (batch.set ns key entry) := by
  intro otherNs otherKey other found
  rw [UpdateBatch.get_set] at found
  split at found
  · obtain rfl := Option.some.inj found
    exact fresh
  · exact written otherNs otherKey other found

theorem WrittenIn.addWriteToBatch {ns : GoString} (written : WrittenIn txHeight.blockNum batch)
    (added : addWriteToBatch ns txHeight batch kvWrite = .ok later) :
    WrittenIn txHeight.blockNum later := by
  unfold StateValidator.addWriteToBatch at added
  split at added
  · obtain rfl := Outcome.ok.inj added
    exact written.set ns kvWrite.key rfl
  · cases value : kvWrite.value with
    | none =>
      rw [value] at added
      cases added
    | some _ =>
      rw [value] at added
      obtain rfl := Outcome.ok.inj added
      exact written.set ns kvWrite.key rfl

theorem WrittenIn.addWriteSetToBatch (written : WrittenIn txHeight.blockNum batch)
    (added : addWriteSetToBatch txRWSet txHeight batch = .ok later) :
    WrittenIn txHeight.blockNum later := by
  refine foldlM_invariant ?_ written added
  intro _ _ _ currentWritten nsAdded
  refine foldlM_invariant ?_ currentWritten nsAdded
  intro _ _ _ holds writeAdded
  exact holds.addWriteToBatch writeAdded

/-! ## One position of a block -/

variable {hashing : Hashing} {db : VersionedDB} {progress : Progress}

section

variable {codec : Codec} {header : BlockHeader}

/-- The ways in which a position can be processed. -/
inductive Processed (codec : Codec) (hashing : Hashing) (db : VersionedDB)
    (blockNum : UInt64) (progress : Progress) (txIndex : Nat)
    (envBytes : Bytes) : Progress → Prop where
  | skipped
      (reason : progress.txsFilter[txIndex]? ≠ some TxValidationCode.valid.number ∨
          transactionRWSet codec envBytes = none) :
      Processed codec hashing db blockNum progress txIndex envBytes progress
  | rejected
      (code : TxValidationCode) (invalid : code ≠ .valid)
      (inside : txIndex < progress.txsFilter.length) :
      Processed codec hashing db blockNum progress txIndex envBytes
        { progress with txsFilter := progress.txsFilter.set txIndex code.number }
  | accepted
      (txRWSet : TxRwSet) (updates : UpdateBatch)
      (inside : txIndex < progress.txsFilter.length)
      (decoded : transactionRWSet codec envBytes = some txRWSet)
      (valid : validateTx hashing db progress.updates txRWSet = .ok .valid)
      (added : addWriteSetToBatch txRWSet ⟨blockNum, UInt64.ofNat txIndex⟩
          progress.updates = .ok updates) :
      Processed codec hashing db blockNum progress txIndex envBytes
        { txsFilter :=
            progress.txsFilter.set txIndex TxValidationCode.valid.number
          updates := updates }

variable {envBytes : Bytes}

private theorem validateEndorserTX_cases {updates : UpdateBatch} {txRWSet : Option TxRwSet}
    {txResult : TxValidationCode}
    (validated : validateEndorserTX codec hashing db envBytes true updates =
        .ok (txRWSet, txResult)) :
    (txRWSet = none ∧ txResult ≠ .valid) ∨ ∃ action decoded, txRWSet = some decoded ∧
          getActionFromEnvelope codec (some envBytes) = .ok action ∧
          fromProtoBytes codec action.results = some decoded ∧
          validateTx hashing db updates decoded = .ok .valid := by
  unfold validateEndorserTX at validated
  split at validated
  · cases validated
  · cases validated
    exact Or.inl ⟨rfl, by decide⟩
  · rename_i action actionOk
    split at validated
    · cases validated
      exact Or.inl ⟨rfl, by decide⟩
    · rename_i decoded decodedOk
      rw [if_pos rfl] at validated
      obtain ⟨_, codeOk, result⟩ := bind_ok_iff.mp validated
      split_ifs at result with valid
      · cases result
        exact Or.inr ⟨action, decoded, rfl, actionOk, decodedOk, valid ▸ codeOk⟩
      · cases result
        exact Or.inl ⟨rfl, valid⟩

variable {progress later : Progress} {txIndex : Nat}

theorem validateAt_processed
    (processed : validateAt codec hashing db (some header) true progress txIndex
        envBytes = .ok later) :
    Processed codec hashing db header.number progress txIndex envBytes
      later := by
  obtain ⟨flag, flagEq, rest⟩ := bind_ok_iff.mp processed
  have flagAt : progress.txsFilter[txIndex]? = some flag := by
    simpa using flagEq
  have inside : txIndex < progress.txsFilter.length := (List.getElem?_eq_some_iff.mp flagAt).1
  split_ifs at rest with flagged
  · obtain rfl : progress = later := by simpa using rest
    refine .skipped (Or.inl ?_)
    rw [flagAt]
    simpa using flagged
  · obtain ⟨txType, typeOk, rest⟩ := bind_ok_iff.mp rest
    split_ifs at rest with notEndorser
    · obtain rfl : progress = later := by simpa using rest
      refine .skipped (Or.inr ?_)
      simp [transactionRWSet, typeOk, notEndorser]
    · have endorser : txType = HeaderType.endorserTransaction := by
        simpa using notEndorser
      obtain ⟨⟨_, txResult⟩, validated, rest⟩ := bind_ok_iff.mp rest
      simp only [deref_some, ok_bind] at rest
      rcases validateEndorserTX_cases validated with
        ⟨rfl, invalid⟩ | ⟨_, decoded, rfl, actionOk, decodedOk, valid⟩
      · obtain rfl := Outcome.ok.inj rest
        exact .rejected txResult invalid inside
      · obtain ⟨updates, added, result⟩ := bind_ok_iff.mp rest
        obtain rfl := Outcome.ok.inj result
        refine .accepted decoded updates inside ?_ valid added
        simp [transactionRWSet, typeOk, endorser, actionOk, decodedOk]

section

variable (processed : Processed codec hashing db blockNum progress txIndex envBytes later)
include processed

theorem Processed.writtenIn (written : WrittenIn blockNum progress.updates) :
    WrittenIn blockNum later.updates := by
  cases processed with
  | skipped | rejected => exact written
  | accepted _ updates _ _ _ added =>
    exact WrittenIn.addWriteSetToBatch
      (show WrittenIn (Height.mk blockNum _).blockNum _ from written) added

/-- Processing a position has the serial effect of that position. -/
theorem Processed.applyUpdates_eq {txsFilter : TxValidationFlags}
    (final : txsFilter[txIndex]? = later.txsFilter[txIndex]?) :
    db.applyUpdates later.updates = commitAt codec blockNum txsFilter txIndex
        (db.applyUpdates progress.updates) envBytes := by
  unfold commitAt
  rw [final]
  cases processed with
  | skipped reason =>
    rcases reason with flagged | noRWSet
    · rw [if_neg flagged]
    · simp [noRWSet]
  | rejected code invalid inside =>
    have flagged : code.number ≠ TxValidationCode.valid.number :=
      fun equal => invalid (code.number_eq_zero_iff.mp equal)
    simp [List.getElem?_set_self inside, flagged]
  | accepted _ updates inside decoded valid added =>
    simp only [List.getElem?_set_self inside, if_true, decoded]
    exact applyUpdates_addWriteSetToBatch db added

end

/-! ## The positions of a block in order -/

variable {data : List Bytes} {final : Progress}

theorem validateFrom_txsFilter_of_lt {txIndex other : Nat}
    (validated : validateFrom codec hashing db (some header) true txIndex progress data = .ok final)
    (earlier : other < txIndex) :
    final.txsFilter[other]? = progress.txsFilter[other]? := by
  induction data generalizing txIndex progress with
  | nil =>
    obtain rfl := Outcome.ok.inj validated
    rfl
  | cons _ _ ih =>
    obtain ⟨_, step, continued⟩ := bind_ok_iff.mp validated
    rw [ih continued (by omega)]
    cases validateAt_processed step with
    | skipped => rfl
    | rejected | accepted => simp [show txIndex ≠ other by omega]

theorem validateFrom_writtenIn
    (validated : validateFrom codec hashing db (some header) true txIndex progress data = .ok final)
    (written : WrittenIn header.number progress.updates) :
    WrittenIn header.number final.updates := by
  induction data generalizing txIndex progress with
  | nil =>
    obtain rfl := Outcome.ok.inj validated
    exact written
  | cons _ _ ih =>
    obtain ⟨_, step, continued⟩ := bind_ok_iff.mp validated
    exact ih continued ((validateAt_processed step).writtenIn written)

/-- The batch of a block leads to the serial state after it. -/
theorem validateFrom_applyUpdates
    (validated : validateFrom codec hashing db (some header) true txIndex progress
        data = .ok final) :
    db.applyUpdates final.updates = serialFrom codec header.number final.txsFilter txIndex
        (db.applyUpdates progress.updates) data := by
  induction data generalizing txIndex progress with
  | nil =>
    obtain rfl := Outcome.ok.inj validated
    rfl
  | cons _ _ ih =>
    obtain ⟨later, step, continued⟩ := bind_ok_iff.mp validated
    have settled : final.txsFilter[txIndex]? = later.txsFilter[txIndex]? :=
      validateFrom_txsFilter_of_lt continued (by omega)
    rw [ih continued, serialFrom, (validateAt_processed step).applyUpdates_eq settled]

end

/-! ## The history of a ledger -/

/--
The committed states of a run that starts from the empty state, newest first,
and the number of the last block.
-/
inductive Committed (codec : Codec) (hashing : Hashing) :
    List VersionedDB → VersionedDB → Option UInt64 → Prop where
  | genesis : Committed codec hashing [empty] empty none
  | commit
      {states : List VersionedDB} {db : VersionedDB}
      {lastBlock : Option UInt64} {block : Block} {header : BlockHeader}
      {progress : Progress}
      (history : Committed codec hashing states db lastBlock)
      (hasHeader : block.header = some header)
      (increasing : ∀ last ∈ lastBlock, last < header.number)
      (validated : validateAndPrepareBatch codec hashing db block true = .ok progress) :
      Committed codec hashing (db.applyUpdates progress.updates :: states)
        (db.applyUpdates progress.updates) (some header.number)

/-- The value was written by a block up to the given one. -/
def UpTo (bound : Option UInt64) (value : StoredValue) : Prop :=
  ∃ last ∈ bound, value.version.blockNum ≤ last

/--
The earlier state holds values of blocks up to the bound, and what the later
state still holds of those blocks it has from the earlier one.
-/
structure Precedes (bound : Option UInt64) (earlier later : VersionedDB) : Prop where
  bounded : ∀ ns key value, earlier.getState ns key = some value → UpTo bound value
  inherited : ∀ ns key value, later.getState ns key = some value → UpTo bound value →
      earlier.getState ns key = some value

variable {bound : Option UInt64}

variable {earlier later : VersionedDB}

theorem Precedes.versionsAgree (precedes : Precedes bound earlier later) :
    VersionsAgree earlier later := by
  intro ns key earlierValue laterValue earlierFound laterFound versions
  obtain ⟨last, lastMem, below⟩ := precedes.bounded ns key earlierValue earlierFound
  have inherited := precedes.inherited ns key laterValue laterFound
      ⟨last, lastMem, versions ▸ below⟩
  rw [earlierFound] at inherited
  exact Option.some.inj inherited

/-- Updates of a later block keep what the earlier blocks say. -/
theorem Precedes.applyUpdates {updates : UpdateBatch} (precedes : Precedes bound earlier later)
    (increasing : ∀ last ∈ bound, last < blockNum) (written : WrittenIn blockNum updates) :
    Precedes bound earlier (later.applyUpdates updates) := by
  refine ⟨precedes.bounded, ?_⟩
  intro ns key value found upTo
  rw [getState_applyUpdates] at found
  cases entryFound : updates.get ns key with
  | none =>
    rw [entryFound] at found
    exact precedes.inherited ns key value found upTo
  | some entry =>
    rw [entryFound] at found
    obtain ⟨_, _, rfl⟩ := Option.map_eq_some_iff.mp found
    obtain ⟨last, lastMem, below⟩ := upTo
    have fresh := written ns key entry entryFound
    exact absurd (increasing last lastMem) (UInt64.not_lt.mpr (fresh ▸ below))

theorem validateAndPrepareBatch_validateFrom {codec : Codec} {block : Block}
    (validated : validateAndPrepareBatch codec hashing db block true = .ok progress) :
    ∃ data txsFilter, block.data = some data ∧ validateFrom codec hashing db block.header true 0
          ⟨txsFilter, UpdateBatch.new⟩ data.data = .ok progress := by
  obtain ⟨data, dataOk, rest⟩ := bind_ok_iff.mp validated
  obtain ⟨_, _, rest⟩ := bind_ok_iff.mp rest
  obtain ⟨_, _, rest⟩ := bind_ok_iff.mp rest
  exact ⟨data, _, by simpa using dataOk, rest⟩

variable {states : List VersionedDB} {lastBlock : Option UInt64}

/-- Every committed state of a run precedes the current one. -/
theorem Committed.precedes {codec : Codec} (history : Committed codec hashing states db lastBlock) :
    Precedes lastBlock db db ∧ ∀ snapshot ∈ states, ∃ bound, Precedes bound snapshot db ∧
            ∀ last ∈ bound, ∃ newest ∈ lastBlock, last ≤ newest := by
  induction history with
  | genesis =>
    have start : Precedes none empty empty := by
      constructor <;> intro ns key value found <;> simp at found
    refine ⟨start, ?_⟩
    intro snapshot member
    obtain rfl : snapshot = empty := by simpa using member
    exact ⟨none, start, by simp⟩
  | @commit states db lastBlock block header progress _ hasHeader increasing
      validated ih =>
      obtain ⟨current, earlier⟩ := ih
      obtain ⟨_, _, _, walked⟩ := validateAndPrepareBatch_validateFrom validated
      rw [hasHeader] at walked
      have written := validateFrom_writtenIn walked (writtenIn_new _)
      have newest : Precedes (some header.number) (db.applyUpdates progress.updates)
            (db.applyUpdates progress.updates) := by
        refine ⟨?_, fun _ _ _ found _ => found⟩
        intro ns key value found
        refine ⟨header.number, rfl, ?_⟩
        rw [getState_applyUpdates] at found
        cases entryFound : progress.updates.get ns key with
        | none =>
          rw [entryFound] at found
          obtain ⟨last, lastMem, below⟩ := current.bounded ns key value found
          exact UInt64.le_of_lt (UInt64.lt_of_le_of_lt below (increasing last lastMem))
        | some entry =>
          rw [entryFound] at found
          obtain ⟨_, _, rfl⟩ := Option.map_eq_some_iff.mp found
          exact UInt64.le_of_eq (written ns key entry entryFound)
      refine ⟨newest, ?_⟩
      intro snapshot member
      rcases List.mem_cons.mp member with rfl | older
      · exact ⟨some header.number, newest, fun last lastMem => ⟨last, lastMem, UInt64.le_refl last⟩⟩
      · obtain ⟨bound, precedes, below⟩ := earlier snapshot older
        have boundLt : ∀ last ∈ bound, last < header.number := by
          intro last lastMem
          obtain ⟨newest, newestMem, lastLe⟩ := below last lastMem
          exact UInt64.lt_of_le_of_lt lastLe (increasing newest newestMem)
        exact ⟨bound, precedes.applyUpdates boundLt written, fun last lastMem =>
            ⟨header.number, rfl, UInt64.le_of_lt (boundLt last lastMem)⟩⟩

/-- In any two committed states of a run, a key with the same version has the same value. -/
theorem versions_identify_values {codec : Codec}
    (history : Committed codec hashing states db lastBlock) :
    ∀ first ∈ states, ∀ second ∈ states, VersionsAgree first second := by
  induction history with
  | genesis => simp [VersionsAgree]
  | commit history hasHeader increasing validated ih =>
    have later := (history.commit hasHeader increasing validated).precedes.2
    intro first firstMember second secondMember
    rcases List.mem_cons.mp firstMember with rfl | firstOlder
    · rcases later second secondMember with ⟨_, precedes, _⟩
      intro ns key left right leftFound rightFound versions
      exact (precedes.versionsAgree ns key right left rightFound leftFound versions.symm).symm
    · rcases List.mem_cons.mp secondMember with rfl | secondOlder
      · rcases later first firstMember with ⟨_, precedes, _⟩
        exact precedes.versionsAgree
      · exact ih first firstOlder second secondOlder

/-! ## Serializability -/

namespace Reader

/-- A transaction on one namespace.  The same bytes stand for it and for its parts. -/
structure Transaction where
  ns : GoString
  kvRWSet : KVRWSet
  envelope : Bytes

/-- Decode a part of one of some transactions. -/
def decodePart {Part : Type} (txs : List Transaction) (part : Transaction → Part) (bytes : Bytes) :
    Option Part :=
  (txs.find? fun tx => tx.envelope == bytes).map part

/-- The decoders of some transactions. -/
def codecOf (txs : List Transaction) : Codec :=
  { Codec.rejecting with
    unmarshalEnvelope := decodePart txs fun tx => ⟨some tx.envelope, none⟩
    unmarshalPayload := decodePart txs fun tx => ⟨some ⟨none, none⟩, some tx.envelope⟩
    unmarshalChannelHeader := fun _ => some ⟨.endorserTransaction, .empty, .empty, 0, none⟩
    unmarshalTransaction := decodePart txs fun tx => ⟨[⟨none, some tx.envelope⟩]⟩
    unmarshalChaincodeActionPayload := decodePart txs fun tx =>
      ⟨none, some ⟨some tx.envelope, []⟩⟩
    unmarshalProposalResponsePayload := decodePart txs fun tx => ⟨none, some tx.envelope⟩
    unmarshalChaincodeAction := decodePart txs fun tx => ⟨some tx.envelope, none, none⟩
    unmarshalTxReadWriteSet := decodePart txs fun tx => ⟨[⟨tx.ns, some tx.envelope⟩]⟩
    unmarshalKVRWSet := decodePart txs Transaction.kvRWSet }

def block (number : UInt64) (txs : List Transaction) : Block where
  header := some ⟨number, none, none⟩
  data := some ⟨txs.map Transaction.envelope⟩
  metadata := some ⟨[[], [], []]⟩

def ns : GoString := .letter 'a'

/-- Writes the value `v` to a key. -/
def writer (ns key : GoString) : Transaction where
  ns := ns
  kvRWSet := ⟨[], [], [⟨key, false, some [118]⟩]⟩
  envelope := 1 :: key.bytes

def readOfK : KVRead := ⟨.letter 'k', some ⟨1, 0⟩⟩

/-- Reads the key `k`, queries a range and copies the value to `j`. -/
def reader : Transaction where
  ns := ns
  kvRWSet := ⟨[readOfK], [⟨.empty, .letter 'k', false, some (.rawReads ⟨[readOfK]⟩)⟩],
      [⟨.letter 'j', false, some [118]⟩]⟩
  envelope := [2]

/-- The chaincode of the reader. -/
def simulation : Simulation :=
  .call (.getState ns (.letter 'k')) fun response =>
    .call (.getStateRangeScanIterator ns .empty .empty) fun _ =>
      .call (.next 0) fun _ =>
        match response with
        | .value value => .call (.setState ns (.letter 'j') value) fun _ => .finish
        | _ => .finish

noncomputable def settings : Settings where
  hashing := ⟨HashCommitment.markedCopy, HashCommitment.taggedNumber⟩
  queryReadsHashingEnabled := true
  maxDegreeQueryReadsHashing := 50
  validateKey _ := true

/-- A block that writes `k`. -/
def first : Block :=
  block 1 [writer ns (.letter 'k')]

/-- A block that writes `z` and then reads `k`. -/
def second : Block :=
  block 2 [writer ns (.letter 'z'), reader]

def codec : Codec :=
  codecOf [writer ns (.letter 'k'), writer ns (.letter 'z'), reader]

/-- The outcome of validating a block on a state. -/
noncomputable def validated (db : VersionedDB) (block : Block) : Progress :=
  match validateAndPrepareBatch codec settings.hashing db block true with
  | .ok progress => progress
  | _ => ⟨[], .new⟩

noncomputable def snapshot : VersionedDB :=
  empty.applyUpdates (validated empty first).updates

noncomputable def final : VersionedDB :=
  snapshot.applyUpdates (validated snapshot second).updates

theorem validated_first : validateAndPrepareBatch codec settings.hashing empty first true =
      .ok (validated empty first) :=
  rfl

theorem validated_second : validateAndPrepareBatch codec settings.hashing snapshot second true =
      .ok (validated snapshot second) :=
  rfl

theorem history : Committed codec settings.hashing [final, snapshot, empty] final (some 2) := by
  have increasing : ∀ last ∈ some (1 : UInt64), last < 2 := by
    rintro _ ⟨⟩
    decide
  exact .commit (.commit .genesis rfl (by simp) validated_first) rfl increasing validated_second

end Reader

/-- The second block keeps the key of the first and writes another. -/
theorem versions_identify_values_reader :
    VersionsAgree Reader.snapshot Reader.final ∧
      Reader.snapshot.getState Reader.ns (.letter 'k') = some ⟨[118], ⟨1, 0⟩⟩ ∧
      Reader.final.getState Reader.ns (.letter 'k') = some ⟨[118], ⟨1, 0⟩⟩ ∧
      Reader.final.getState Reader.ns (.letter 'j') = some ⟨[118], ⟨2, 1⟩⟩ := by
  refine ⟨?_, by decide +kernel, by decide +kernel, by decide +kernel⟩
  exact versions_identify_values Reader.history _ (by simp) _ (by simp)

end Fabric.Ledger.Serializability
