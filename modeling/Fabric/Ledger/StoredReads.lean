import Fabric.Ledger.Serializability
import Fabric.Ledger.StateLevelDB

/-!
# Reading the state of a channel from LevelDB

The simulator and the validator read the state through a database.  LevelDB joins
the name of a namespace and a key with a zero byte, so that entries of different
namespaces can be one entry there.  A transaction whose namespaces are not empty
and contain no zero byte cannot tell the database from the state that it holds:
it is simulated and validated alike on both.
-/

namespace Fabric.Ledger.StoredReads

open Library Outcome ByteString SeparatedKeys Protos StateDB RWSet QueryResults Simulator Replay
  SimulationRecord CombinedIterator StateValidator Serializability StateLevelDB

/-- What a read returns; a read that fails finds nothing. -/
def answer {Value : Type} [Inhabited Value] : Outcome Unit Value → Value
  | .ok value => value
  | _ => default

/-- The reads of the database of a channel. -/
def reader (db : LevelDB.DB) (dbName : GoString) : StateReader where
  getState ns key := answer (StateLevelDB.getState db dbName ns key)
  getStateRangeScanIterator ns startKey endKey :=
    answer (StateLevelDB.getStateRangeScanIterator db dbName ns startKey endKey)

/-- Two databases give the same answers in proper namespaces. -/
structure Agree (left right : StateReader) : Prop where
  getState : ∀ ns key, IsNamespace ns → left.getState ns key = right.getState ns key
  rangeScan : ∀ ns startKey endKey, IsNamespace ns →
      left.getStateRangeScanIterator ns startKey endKey =
        right.getStateRangeScanIterator ns startKey endKey

theorem Agree.symm {left right : StateReader} (agree : Agree left right) : Agree right left where
  getState ns key namespaced := (agree.getState ns key namespaced).symm
  rangeScan ns startKey endKey namespaced := (agree.rangeScan ns startKey endKey namespaced).symm

/-- In proper namespaces, a database answers as the state that it holds. -/
theorem agree_of_holds {db : LevelDB.DB} {dbName : GoString} {channel : Channel}
    (holds : Holds db dbName channel) (free : NulFree dbName.bytes) :
    Agree (reader db dbName) channel.state where
  getState _ key namespaced := congrArg answer (holds.getState_eq namespaced key)
  rangeScan _ startKey endKey namespaced :=
    congrArg answer (holds.rangeScan_eq free namespaced startKey endKey)

/-- The namespaces of a read-write set are not empty and contain no zero byte. -/
def Namespaced (txRWSet : TxRwSet) : Prop :=
  ∀ nsRWSet ∈ txRWSet.nsRwSets, IsNamespace nsRWSet.nameSpace

theorem namespaced_wire_iff {txRWSet : TxRwSet} : Namespaced txRWSet.wire ↔ Namespaced txRWSet := by
  simp [Namespaced, TxRwSet.wire]

variable {left right : StateReader}

/-! ## Simulations -/

section

variable {settings : Settings} {simulation : Simulation} (agree : Agree left right)
  (namespaced : Namespaced (simulation.simulate settings left).2)
include agree namespaced

/-- The read-write set names every namespace in which the simulation has read. -/
theorem agreement_of_agree :
    Agreement left right (simulation.run settings left TxSimulator.new).2 := by
  have faithful := (faithful_new settings left).run simulation
  refine ⟨?_, ?_⟩
  · intro ns key recorded
    rw [← reads_done] at recorded
    rcases RWSetBuilder.exists_nsRwSet_of_reads
        (Std.ExtTreeMap.getElem?_eq_some_getElem recorded) with
      ⟨nsRwSet, member, rfl, _⟩
    exact agree.getState _ key (namespaced nsRwSet member)
  · intro itr opened
    rcases faithful.exists_rangeQuery opened with ⟨_, _, _, _, recorded⟩
    rcases RWSetBuilder.exists_nsRwSet_of_rangeQueries recorded with ⟨nsRwSet, member, sameNs, _⟩
    have same : rangeOf left itr = rangeOf right itr :=
      agree.rangeScan _ _ _ (sameNs ▸ namespaced nsRwSet member)
    refine ⟨fun _ => same.symm, ?_⟩
    intro consumed split
    rw [← same, split]
    exact List.prefix_append _ _

theorem simulate_congr : simulation.simulate settings right = simulation.simulate settings left :=
  simulate_eq_of_agreement settings simulation (agreement_of_agree agree namespaced)

end

/-! ## Validation -/

section

variable (agree : Agree left right) (hashing : Hashing) (updates : UpdateBatch)
include agree

theorem validateNsRwSets_congr {nsRwSets : List NsRwSet}
    (namespaced : ∀ nsRWSet ∈ nsRwSets, IsNamespace nsRWSet.nameSpace) :
    validateNsRwSets hashing left updates nsRwSets =
      validateNsRwSets hashing right updates nsRwSets := by
  induction nsRwSets with
  | nil => rfl
  | cons nsRWSet nsRwSets ih =>
    rcases List.forall_mem_cons.mp namespaced with ⟨proper, namespaced⟩
    have reads : validateKVRead left updates nsRWSet.nameSpace =
          validateKVRead right updates nsRWSet.nameSpace := by
      funext kvRead
      simp only [validateKVRead, agree.getState _ _ proper]
    have queries : validateRangeQuery hashing left updates nsRWSet.nameSpace =
          validateRangeQuery hashing right updates nsRWSet.nameSpace := by
      funext rqi
      simp only [validateRangeQuery,
        resultsOn_congr (agree.getState _ _ proper) (agree.rangeScan _ _ _ proper)]
    simp only [validateNsRwSets, validateReadSet, validateRangeQueries, reads, queries,
      ih namespaced]

theorem validateTx_congr {txRWSet : TxRwSet} (namespaced : Namespaced txRWSet) :
    validateTx hashing left updates txRWSet = validateTx hashing right updates txRWSet :=
  validateNsRwSets_congr agree hashing updates namespaced

end

section

variable {codec : Codec}

/-- The read-write set of a transaction, if it has one, keeps to proper namespaces. -/
def NamespacedTx (codec : Codec) (envBytes : Bytes) : Prop :=
  ∀ txRWSet, transactionRWSet codec envBytes = some txRWSet → Namespaced txRWSet

/-- All transactions of a block keep to proper namespaces. -/
def NamespacedBlock (codec : Codec) (block : Block) : Prop :=
  ∀ data, block.data = some data → ∀ envBytes ∈ data.data, NamespacedTx codec envBytes

variable (agree : Agree left right) (hashing : Hashing) (header : Option BlockHeader)
  (doMVCCValidation : Bool)
include agree

theorem validateAt_congr {envBytes : Bytes} (namespaced : NamespacedTx codec envBytes)
    (progress : Progress) (txIndex : Nat) :
    validateAt codec hashing left header doMVCCValidation progress txIndex envBytes =
      validateAt codec hashing right header doMVCCValidation progress txIndex envBytes := by
  rcases type : transactionType codec envBytes with txType | _ | _
  · by_cases endorser : txType = HeaderType.endorserTransaction
    · have same : validateEndorserTX codec hashing left envBytes doMVCCValidation
              progress.updates =
            validateEndorserTX codec hashing right envBytes doMVCCValidation progress.updates := by
        rw [validateEndorserTX, validateEndorserTX]
        rcases action : getActionFromEnvelope codec (some envBytes) with respPayload | _ | _
        · cases decoded : fromProtoBytes codec respPayload.results with
          | none => simp only [decoded]
          | some txRWSet =>
            have proper : Namespaced txRWSet :=
              namespaced txRWSet (by simp [transactionRWSet, type, endorser, action, decoded])
            simp only [decoded, validateTx_congr agree hashing _ proper]
        · rfl
        · rfl
      simp only [validateAt, type, same]
    · simp only [validateAt, type, ok_bind, if_pos endorser]
  · simp only [validateAt, type, error_bind]
  · simp only [validateAt, type, panic_bind]

theorem validateFrom_congr {data : List Bytes}
    (namespaced : ∀ envBytes ∈ data, NamespacedTx codec envBytes) (txIndex : Nat)
    (progress : Progress) :
    validateFrom codec hashing left header doMVCCValidation txIndex progress data =
      validateFrom codec hashing right header doMVCCValidation txIndex progress data := by
  induction data generalizing txIndex progress with
  | nil => rfl
  | cons envBytes data ih =>
    rcases List.forall_mem_cons.mp namespaced with ⟨proper, namespaced⟩
    simp only [validateFrom, validateAt_congr agree hashing header doMVCCValidation proper,
      ih namespaced]

/-- A block of proper namespaces is validated alike on both databases. -/
theorem validateAndPrepareBatch_congr {block : Block} (namespaced : NamespacedBlock codec block) :
    validateAndPrepareBatch codec hashing left block doMVCCValidation =
      validateAndPrepareBatch codec hashing right block doMVCCValidation := by
  cases hasData : block.data with
  | none => simp only [validateAndPrepareBatch, hasData, deref_none, panic_bind]
  | some data =>
    simp only [validateAndPrepareBatch, hasData, deref_some, ok_bind,
      validateFrom_congr agree hashing _ doMVCCValidation (namespaced data hasData)]

end

end Fabric.Ledger.StoredReads
