import Fabric.Ledger.CombinedIterator
import Fabric.Ledger.QueryResults
import Fabric.Ledger.RWSet

/-!
# The state based validator

The validator walks through the transactions of a block in order.  For each
transaction that is still unflagged it checks that the versions read during
simulation are the current ones, taking the writes of the preceding valid
transactions of the block into account, and adds the writes of the transaction
to the pending batch if they are.
-/

namespace Fabric.Ledger.StateValidator

open Library Outcome ByteString Protos StateDB RWSet QueryResults CombinedIterator

/-! ## Validation flags -/

/-- One validation code for each transaction of a block. -/
abbrev TxValidationFlags := List UInt8

def newTxValidationFlags (size : Nat) : TxValidationFlags :=
  List.replicate size 0

/-- The position of the flags in the metadata of a block. -/
def transactionsFilter : Nat := 2

/-! ## Reads and range queries -/

/-- Compares the version read with the committed one. -/
def validateKVRead (db : StateReader) (updates : UpdateBatch) (ns : GoString)
    (kvRead : KVRead) : Bool :=
  if updates.contains ns kvRead.key then
    false
  else
    let committedVersion := (db.getState ns kvRead.key).map StoredValue.version
    Height.areSame committedVersion (newVersion kvRead.version)

/-- Compare the recorded results with the current ones, one by one. -/
def validateRawReads : List KVRead → List VersionedKV → Outcome DecodeError Bool
  | [], results => .ok results.isEmpty
  | _ :: _, [] => .ok false
  | kvRead :: rqResults, (key, value) :: results =>
    if key ≠ kvRead.key then
      .ok false
    else do
      let version ← deref (newVersion kvRead.version)
      if Height.areSame (some value.version) (some version) then validateRawReads rqResults results
      else .ok false

/--
Rebuild the tree of hashes from the current results and compare it with the
recorded summary, giving up on the first hash that differs.  `matched` counts
the hashes of the highest level that were compared so far.
-/
def validateMerkle (hashing : Hashing) (inMerkle : QueryReadsMerkleSummary) :
    List VersionedKV → RangeQueryResultsHelper → Nat →
    Outcome DecodeError Bool
  | [], helper, _ => .ok (summaryEqual inMerkle (helper.done hashing).2)
  | (key, value) :: results, helper, matched => do
      let helper := helper.addResult hashing (newKVRead key (some value.version))
      let merkle ← deref helper.getMerkleSummary
      if merkle.maxLevel < inMerkle.maxLevel then
        validateMerkle hashing inMerkle results helper matched
      else if matched = merkle.maxLevelHashes.length then
        validateMerkle hashing inMerkle results helper matched
      else if inMerkle.maxLevelHashes.length < merkle.maxLevelHashes.length then
        .ok false
      else do
        let built ← deref merkle.maxLevelHashes[matched]?
        let recorded ← deref inMerkle.maxLevelHashes[matched]?
        if built = recorded then validateMerkle hashing inMerkle results helper (matched + 1)
        else .ok false

/--
Re-run a range query.  If the iterator was not exhausted during simulation,
the recorded end key is the last key that was returned, so it belongs to the
range.
-/
def validateRangeQuery (hashing : Hashing) (db : StateReader) (updates : UpdateBatch)
    (ns : GoString) (rqi : RangeQueryInfo) : Outcome DecodeError Bool :=
  let includeEndKey := !rqi.itrExhausted
  let results := resultsOn db updates ns rqi.startKey rqi.endKey includeEndKey
  match rqi.readsInfo with
  | some (.readsMerkleHashes inMerkle) => do
      let helper ← deref (newRangeQueryResultsHelper true inMerkle.maxDegree)
      validateMerkle hashing inMerkle results helper 0
  | some (.rawReads raw) => validateRawReads raw.kvReads results
  | none => validateRawReads [] results

/-- Validate items in order, stopping at the first that is not valid. -/
def validateAll {Item : Type} (validate : Item → Outcome DecodeError Bool) :
    List Item → Outcome DecodeError Bool
  | [] => .ok true
  | item :: items => do
      let valid ← validate item
      if valid then validateAll validate items else .ok false

/-- Checks the reads of a namespace. -/
def validateReadSet (db : StateReader) (updates : UpdateBatch) (ns : GoString)
    (kvReads : List KVRead) : Outcome DecodeError Bool :=
  validateAll (fun kvRead => .ok (validateKVRead db updates ns kvRead)) kvReads

/-- Checks the range queries of a namespace. -/
def validateRangeQueries (hashing : Hashing) (db : StateReader) (updates : UpdateBatch)
    (ns : GoString) (rangeQueriesInfo : List RangeQueryInfo) :
    Outcome DecodeError Bool :=
  validateAll (validateRangeQuery hashing db updates ns) rangeQueriesInfo

/-! ## What a successful validation says -/

variable {Item : Type} {validate : Item → Outcome DecodeError Bool} {items : List Item}

theorem validateAll_eq_true (valid : validateAll validate items = .ok true) :
    ∀ item ∈ items, validate item = .ok true := by
  induction items with
  | nil => simp
  | cons item items ih =>
    obtain ⟨itemValid, itemOk, rest⟩ := bind_ok_iff.mp valid
    cases itemValid with
    | false => simp at rest
    | true =>
      intro other member
      rcases List.mem_cons.mp member with rfl | later
      · exact itemOk
      · exact ih (by simpa using rest) other later

theorem validateAll_eq_true_of_forall (valid : ∀ item ∈ items, validate item = .ok true) :
    validateAll validate items = .ok true := by
  induction items with
  | nil => rfl
  | cons item items ih =>
    rw [validateAll, valid item (by simp), ok_bind, if_pos rfl]
    exact ih fun other later => valid other (by simp [later])

variable {updates : UpdateBatch} {db : StateReader} {ns : GoString}

variable {results : List VersionedKV} {reads : List KVRead}

theorem validateRawReads_eq_true (valid : validateRawReads reads results = .ok true) :
    results.map kvReadOf = reads := by
  induction reads generalizing results with
  | nil =>
    have empty : results = [] := by simpa [validateRawReads] using valid
    simp [empty]
  | cons kvRead reads ih =>
    cases results with
    | nil => simp [validateRawReads] at valid
    | cons entry results =>
      obtain ⟨key, value⟩ := entry
      simp only [validateRawReads] at valid
      split_ifs at valid with sameKey
      · simp at valid
      obtain ⟨version, versionEq, rest⟩ := bind_ok_iff.mp valid
      split_ifs at rest with sameVersion
      case neg => simp at rest
      have headEq : kvReadOf (key, value) = kvRead := by
        have heights : value.version = version := by
          simpa using sameVersion
        obtain ⟨recordedKey, recorded⟩ := kvRead
        obtain rfl : key = recordedKey := by simpa using sameKey
        cases recorded with
        | none => simp [newVersion] at versionEq
        | some recorded =>
          obtain rfl : Height.mk _ _ = version := by
            simpa [newVersion] using versionEq
          simp [kvReadOf, newKVRead, newProtoVersion, heights]
      rw [List.map_cons, headEq, ih rest]

variable {hashing : Hashing}

/-- Stops at the first conflict. -/
def validateNsRwSets (hashing : Hashing) (db : StateReader) (updates : UpdateBatch) :
    List NsRwSet → Outcome DecodeError TxValidationCode
  | [] => .ok .valid
  | nsRWSet :: nsRWSets => do
      let ns := nsRWSet.nameSpace
      let readsValid ← validateReadSet db updates ns nsRWSet.kvRwSet.reads
      if readsValid then
        let queriesValid ← validateRangeQueries hashing db updates ns
            nsRWSet.kvRwSet.rangeQueriesInfo
        if queriesValid then validateNsRwSets hashing db updates nsRWSets
        else .ok .phantomReadConflict
      else
        .ok .mvccReadConflict

/-- The code of a transaction. -/
def validateTx (hashing : Hashing) (db : StateReader) (updates : UpdateBatch)
    (txRWSet : TxRwSet) : Outcome DecodeError TxValidationCode :=
  validateNsRwSets hashing db updates txRWSet.nsRwSets

theorem validateTx_wire (hashing : Hashing) (db : StateReader) (updates : UpdateBatch)
    (txRWSet : TxRwSet) :
    validateTx hashing db updates txRWSet.wire = validateTx hashing db updates txRWSet := by
  rcases txRWSet with ⟨nsRwSets⟩
  simp only [validateTx, TxRwSet.wire]
  induction nsRwSets with
  | nil => rfl
  | cons _ _ ih =>
    simp only [List.map_cons, validateNsRwSets, ih]
    rfl

variable {txRWSet : TxRwSet}

theorem validateTx_eq_valid (valid : validateTx hashing db updates txRWSet = .ok .valid) :
    ∀ nsRWSet ∈ txRWSet.nsRwSets, (∀ kvRead ∈ nsRWSet.kvRwSet.reads,
        validateKVRead db updates nsRWSet.nameSpace kvRead = true) ∧
      ∀ rqi ∈ nsRWSet.kvRwSet.rangeQueriesInfo,
        validateRangeQuery hashing db updates nsRWSet.nameSpace rqi = .ok true := by
  obtain ⟨nsRwSets⟩ := txRWSet
  simp only [validateTx] at valid ⊢
  induction nsRwSets with
  | nil => simp
  | cons nsRWSet _ ih =>
    obtain ⟨readsValid, readsOk, rest⟩ := bind_ok_iff.mp valid
    cases readsValid with
    | false => simp at rest
    | true =>
      obtain ⟨queriesValid, queriesOk, rest⟩ := bind_ok_iff.mp rest
      cases queriesValid with
      | false => simp at rest
      | true =>
        intro other member
        rcases List.mem_cons.mp member with rfl | later
        · refine ⟨?_, validateAll_eq_true queriesOk⟩
          intro kvRead read
          simpa using validateAll_eq_true readsOk kvRead read
        · exact ih (by simpa using rest) other later

theorem validateTx_eq_valid_of_forall
    (reads : ∀ nsRWSet ∈ txRWSet.nsRwSets, ∀ kvRead ∈ nsRWSet.kvRwSet.reads,
        validateKVRead db updates nsRWSet.nameSpace kvRead = true)
    (queries : ∀ nsRWSet ∈ txRWSet.nsRwSets, ∀ rqi ∈ nsRWSet.kvRwSet.rangeQueriesInfo,
          validateRangeQuery hashing db updates nsRWSet.nameSpace rqi = .ok true) :
    validateTx hashing db updates txRWSet = .ok .valid := by
  rcases txRWSet with ⟨nsRwSets⟩
  simp only [validateTx] at reads queries ⊢
  induction nsRwSets with
  | nil => rfl
  | cons nsRWSet _ ih =>
    have readsValid : validateReadSet db updates nsRWSet.nameSpace nsRWSet.kvRwSet.reads =
          .ok true := by
      apply validateAll_eq_true_of_forall
      intro kvRead read
      rw [reads nsRWSet (by simp) kvRead read]
    have queriesValid : validateRangeQueries hashing db updates nsRWSet.nameSpace
          nsRWSet.kvRwSet.rangeQueriesInfo = .ok true :=
      validateAll_eq_true_of_forall (queries nsRWSet (by simp))
    rw [validateNsRwSets, readsValid, ok_bind, if_pos rfl, queriesValid, ok_bind, if_pos rfl]
    apply ih
    · exact fun other later => reads other (by simp [later])
    · exact fun other later => queries other (by simp [later])

/-- Adds a write to the block's updates. -/
def addWriteToBatch (ns : GoString) (txHeight : Height) (batch : UpdateBatch)
    (kvWrite : KVWrite) : Outcome DecodeError UpdateBatch :=
  if kvWrite.isDelete then .ok (batch.delete ns kvWrite.key txHeight)
  else batch.put ns kvWrite.key kvWrite.value txHeight

/-- Adds the writes of a transaction. -/
def addWriteSetToBatch (txRWSet : TxRwSet) (txHeight : Height) (batch : UpdateBatch) :
    Outcome DecodeError UpdateBatch :=
  txRWSet.nsRwSets.foldlM (fun batch nsRWSet =>
      nsRWSet.kvRwSet.writes.foldlM (addWriteToBatch nsRWSet.nameSpace txHeight) batch)
    batch

/-- The read-write set of a transaction if it is valid, and its code. -/
def validateEndorserTX (codec : Codec) (hashing : Hashing) (db : StateReader)
    (envBytes : Bytes) (doMVCCValidation : Bool) (updates : UpdateBatch) :
    Outcome DecodeError (Option TxRwSet × TxValidationCode) :=
  match getActionFromEnvelope codec (some envBytes) with
  | .panic => .panic
  | .error _ => .ok (none, .nilTxaction)
  | .ok respPayload =>
    match fromProtoBytes codec respPayload.results with
    | none => .ok (none, .invalidOtherReason)
    | some txRWSet =>
      if doMVCCValidation then do
        let txResult ← validateTx hashing db updates txRWSet
        if txResult = .valid then .ok (some txRWSet, txResult) else .ok (none, txResult)
      else
        .ok (some txRWSet, .valid)

def transactionType (codec : Codec) (envBytes : Bytes) : Outcome DecodeError HeaderType := do
  let env ← getEnvelopeFromBlock codec (some envBytes)
  let payload ← getPayload codec env
  let header ← deref payload.header
  let chdr ← unmarshalChannelHeader codec header.channelHeader
  pure chdr.type

/-! ## Blocks -/

/-- The block so far, and the updates of its valid transactions. -/
structure Progress where
  txsFilter : TxValidationFlags
  updates : UpdateBatch

/-- Process the transaction at one position of the block. -/
def validateAt (codec : Codec) (hashing : Hashing) (db : StateReader)
    (header : Option BlockHeader) (doMVCCValidation : Bool)
    (progress : Progress) (txIndex : Nat) (envBytes : Bytes) :
    Outcome DecodeError Progress := do
  let flag ← deref progress.txsFilter[txIndex]?
  if flag ≠ TxValidationCode.valid.number then
    let _ ← deref header
    pure progress
  else
    let txType ← transactionType codec envBytes
    if txType ≠ HeaderType.endorserTransaction then
      let _ ← deref header
      pure progress
    else
      let (txRWSet, txResult) ← validateEndorserTX codec hashing db envBytes doMVCCValidation
          progress.updates
      let blockHeader ← deref header
      match txRWSet with
      | none => pure { progress with txsFilter := progress.txsFilter.set txIndex txResult.number }
      | some txRWSet =>
        let committingTxHeight : Height := ⟨blockHeader.number, UInt64.ofNat txIndex⟩
        let updates ← addWriteSetToBatch txRWSet committingTxHeight progress.updates
        pure
          { txsFilter :=
              progress.txsFilter.set txIndex TxValidationCode.valid.number
            updates := updates }

/-- Checks transactions from an index on. -/
def validateFrom (codec : Codec) (hashing : Hashing) (db : StateReader)
    (header : Option BlockHeader) (doMVCCValidation : Bool) :
    Nat → Progress → List Bytes → Outcome DecodeError Progress
  | _, progress, [] => .ok progress
  | txIndex, progress, envBytes :: rest => do
      let later ← validateAt codec hashing db header doMVCCValidation progress txIndex envBytes
      validateFrom codec hashing db header doMVCCValidation (txIndex + 1) later rest

/-- The pending batch of a block and the flags of its transactions. -/
def validateAndPrepareBatch (codec : Codec) (hashing : Hashing) (db : StateReader) (block : Block)
    (doMVCCValidation : Bool) : Outcome DecodeError Progress := do
  let data ← deref block.data
  let metadata ← deref block.metadata
  let filter ← deref metadata.metadata[transactionsFilter]?
  let txsFilter :=
    if filter.isEmpty then newTxValidationFlags data.data.length else filter
  validateFrom codec hashing db block.header doMVCCValidation 0
    ⟨txsFilter, UpdateBatch.new⟩ data.data

end Fabric.Ledger.StateValidator
