import Fabric.Committer.TxValidator

/-!
# The effect of deployments and upgrades

The validation chaincode looks at the first entry for `lscc` of a write set
and at the namespaces that are written.  The committer applies every entry
and honours deletion marks.  This module compares the two: it describes
exactly the accepted write sets whose commit records the deployed chaincode
and leaves everything else outside its namespace alone.
-/

namespace Fabric.Committer.Deployment

open Library ByteString Protos Ledger.StateDB Ledger.RWSet Ledger.StateValidator
  Ledger.Serializability Ledger.WriteSet VSCC

section

variable (codec : Codec) (chaincodeId : ChaincodeID)

/-- A record of the given chaincode, in the given version. -/
def IsRecordOf (value : Bytes) : Prop :=
  ∃ cd, codec.unmarshalChaincodeData value = some cd ∧
      cd.name = chaincodeId.name ∧ cd.version = chaincodeId.version

/-- What a deployment or an upgrade of a chaincode does to the state. -/
structure RecordsDeployment (txHeight : Height) (before after : VersionedDB) : Prop where
  record : ∃ value, after.getState lscc chaincodeId.name = some ⟨value, txHeight⟩ ∧
        IsRecordOf codec chaincodeId value
  otherKeys : ∀ key, key ≠ chaincodeId.name → after.getState lscc key = before.getState lscc key
  otherNamespaces : ∀ ns key, ns ≠ lscc → ns ≠ chaincodeId.name →
      after.getState ns key = before.getState ns key

/-- Committing the write set deploys the chaincode, from any state. -/
def CommitsDeployment (txRWSet : TxRwSet) (txHeight : Height) : Prop :=
  ∀ (db : VersionedDB) (batch : UpdateBatch), ∃ later,
      addWriteSetToBatch txRWSet txHeight batch = .ok later ∧
        RecordsDeployment codec chaincodeId txHeight (db.applyUpdates batch) (db.applyUpdates later)

end

def lsccWrites (txRWSet : TxRwSet) : List KVWrite :=
  ((allWrites txRWSet).filter fun located => located.1 = lscc).map Prod.snd

/--
The part of the write set that the validator does not look at is harmless:
writes that are not deletions carry values, all entries for `lscc` write the
key of the chaincode only, and the last of these writes is its record.
-/
structure HarmlessWrites (codec : Codec) (chaincodeId : ChaincodeID) (txRWSet : TxRwSet) :
    Prop where
  values : PutsValues txRWSet
  keys : ∀ kvWrite ∈ lsccWrites txRWSet, kvWrite.key = chaincodeId.name
  last : ∃ kvWrite ∈ (lsccWrites txRWSet).getLast?, kvWrite.isDelete = false ∧
        IsRecordOf codec chaincodeId kvWrite.value.bytes

variable {txRWSet : TxRwSet} {kvWrite : KVWrite}

theorem mem_lsccWrites_iff :
    kvWrite ∈ lsccWrites txRWSet ↔ (lscc, kvWrite) ∈ allWrites txRWSet := by
  simp [lsccWrites]

theorem lastWrite_lscc_eq {key : GoString}
    (keys : ∀ kvWrite ∈ lsccWrites txRWSet, kvWrite.key = key) :
    lastWrite txRWSet lscc key = (lsccWrites txRWSet).getLast? := by
  have same : ((allWrites txRWSet).filter fun located =>
          located.1 = lscc ∧ located.2.key = key) =
        (allWrites txRWSet).filter fun located => located.1 = lscc := by
    apply List.filter_congr
    rintro ⟨ns, kvWrite⟩ member
    by_cases isLscc : ns = lscc
    · subst isLscc
      have sameKey := keys kvWrite (mem_lsccWrites_iff.mpr member)
      simp [sameKey]
    · simp [isLscc]
  rw [lastWrite, lsccWrites, same, List.getLast?_map]

section

variable {codec : Codec} {chaincodeId : ChaincodeID} {txRWSet : TxRwSet}

theorem HarmlessWrites.recordsDeployment {cdRWSet : ChaincodeData}
    (harmless : HarmlessWrites codec chaincodeId txRWSet)
    (checks : ChecksRWSet codec chaincodeId txRWSet cdRWSet)
    (txHeight : Height) (db : VersionedDB) :
    RecordsDeployment codec chaincodeId txHeight db (applyWriteSet txRWSet txHeight db) := by
  constructor
  · rcases harmless.last with ⟨kvWrite, isLast, put, isRecord⟩
    refine ⟨kvWrite.value.bytes, ?_, isRecord⟩
    rw [getState_applyWriteSet, lastWrite_lscc_eq harmless.keys, isLast]
    simp [written, put]
  · intro key other
    have untouched : lastWrite txRWSet lscc key = none := by
      apply lastWrite_eq_none_iff.mpr
      intro kvWrite member sameKey
      apply other
      rw [← sameKey, harmless.keys kvWrite (mem_lsccWrites_iff.mpr member)]
    rw [getState_applyWriteSet, untouched]
    rfl
  · intro ns key notLscc notName
    have untouched : lastWrite txRWSet ns key = none := by
      apply lastWrite_eq_none_iff.mpr
      intro kvWrite member _
      rcases mem_allWrites_iff.mp member with ⟨nsRWSet, entry, rfl, write⟩
      rcases checks.namespaces nsRWSet entry (List.ne_nil_of_mem write) with
        isLscc | isName
      · exact notLscc isLscc
      · exact notName isName
    rw [getState_applyWriteSet, untouched]
    rfl

/-- A state in which a key of `lscc` is or is not present. -/
private def stateWith (key : GoString) (present : Bool) : VersionedDB :=
  if present then VersionedDB.empty.applyUpdates (UpdateBatch.new.set lscc key ⟨some [], ⟨0, 0⟩⟩)
  else VersionedDB.empty

private theorem getState_stateWith (key : GoString) (present : Bool) :
    ((stateWith key present).getState lscc key).isSome = present := by
  cases present <;> simp [stateWith, VersionedDB.getState_applyUpdates,
      UpdateBatch.get_set, VersionedValue.stored]

variable {txHeight : Height}

/-- A write to another key of `lscc` changes some state. -/
theorem key_eq_of_commitsDeployment (commits : CommitsDeployment codec chaincodeId txRWSet txHeight)
    (member : kvWrite ∈ lsccWrites txRWSet) :
    kvWrite.key = chaincodeId.name := by
  by_contra other
  cases decides : lastWrite txRWSet lscc kvWrite.key with
  | none => exact lastWrite_eq_none_iff.mp decides kvWrite (mem_lsccWrites_iff.mp member) rfl
  | some last =>
    -- The key is present before if and only if it is absent after.
    let db := stateWith kvWrite.key last.isDelete
    rcases commits db UpdateBatch.new with ⟨_, added, records⟩
    have same := records.otherKeys kvWrite.key other
    rw [applyUpdates_addWriteSetToBatch db added, getState_applyWriteSet,
      decides, VersionedDB.getState_applyUpdates_new] at same
    have presence := congrArg Option.isSome same
    rw [getState_stateWith] at presence
    cases deleted : last.isDelete <;> simp [written, deleted] at presence

theorem harmlessWrites_of_commitsDeployment
    (commits : CommitsDeployment codec chaincodeId txRWSet txHeight) :
    HarmlessWrites codec chaincodeId txRWSet := by
  have keys : ∀ kvWrite ∈ lsccWrites txRWSet, kvWrite.key = chaincodeId.name :=
    fun _ member => key_eq_of_commitsDeployment commits member
  rcases commits VersionedDB.empty UpdateBatch.new with ⟨later, added, records⟩
  constructor
  · exact addWriteSetToBatch_ok_iff.mp ⟨later, added⟩
  · exact keys
  · rcases records.record with ⟨value, found, isRecord⟩
    rw [applyUpdates_addWriteSetToBatch _ added, getState_applyWriteSet,
      lastWrite_lscc_eq keys] at found
    cases isLast : (lsccWrites txRWSet).getLast? with
    | none => simp [isLast] at found
    | some kvWrite =>
      refine ⟨kvWrite, rfl, ?_⟩
      rw [isLast] at found
      cases deleted : kvWrite.isDelete with
      | true => simp [written, deleted] at found
      | false =>
        have sameValue : kvWrite.value.bytes = value := by
          simpa [written, deleted] using found
        rw [sameValue]
        exact ⟨rfl, isRecord⟩

/--
Committing an accepted deployment or upgrade has the effect it announces
exactly when the writes that the validator does not look at are harmless.
-/
theorem accepted_deployment_iff {services : Services} {chid : GoString} {env : Envelope}
    {cap : ChaincodeActionPayload} {payl : Payload} {invocation : LSCCInvocation}
    (accepted : validateLSCCInvocation codec services chid env cap payl = .ok ())
    (decoded : lsccInvocation codec services cap = .ok invocation) (txHeight : Height) :
    CommitsDeployment codec invocation.chaincodeId invocation.txRWSet txHeight ↔
      HarmlessWrites codec invocation.chaincodeId invocation.txRWSet := by
  constructor
  · exact harmlessWrites_of_commitsDeployment
  · intro harmless db _
    rcases exists_of_validateLSCCInvocation accepted with ⟨_, _, checkedDecoded, checks⟩
    rw [decoded] at checkedDecoded
    cases checkedDecoded
    rcases addWriteSetToBatch_ok_iff.mpr harmless.values with ⟨later, added⟩
    refine ⟨later, added, ?_⟩
    rw [applyUpdates_addWriteSetToBatch db added]
    exact harmless.recordsDeployment checks txHeight _

end

/-! A deployment of the chaincode `a`, and one that also records `b`. -/

namespace Sample

open TxValidator.Sample

/-- A peer that has joined one channel, with nothing instantiated yet. -/
def services : Services := (support .empty).services

/-- The transaction deploys the chaincode `a` and makes the writes. -/
def Announces (tx : Tx) : Prop :=
  validateLSCCInvocation codec services (.letter 'c') ⟨some tx.envelope, none⟩ tx.decodedCap
      tx.decodedPayload = .ok () ∧
    lsccInvocation codec services tx.decodedCap = .ok ⟨.deploy, Tx.chaincodeId [97], tx.rwset⟩

theorem announces_deploy : Announces (deploy [97]) :=
  ⟨by decide +kernel, by decide +kernel⟩

theorem announces_deployWith : Announces (deployWith [97] [[98]]) :=
  ⟨by decide +kernel, by decide +kernel⟩

end Sample

open TxValidator.Sample

/-- The second deployment is accepted, and records another chaincode too. -/
theorem accepted_deployment_records_other :
    Sample.Announces (deployWith [97] [[98]]) ∧
      ¬ CommitsDeployment codec (Tx.chaincodeId [97]) (deployWith [97] [[98]]).rwset ⟨1, 0⟩ := by
  refine ⟨Sample.announces_deployWith, ?_⟩
  intro commits
  have otherKey : (⟨⟨[98]⟩, false, some (record [98])⟩ : KVWrite) ∈
        lsccWrites (deployWith [97] [[98]]).rwset := by
    decide +kernel
  have sameKey := key_eq_of_commitsDeployment commits otherKey
  revert sameKey
  decide +kernel

/-- The first deployment has the effect it announces. -/
theorem accepted_deployment_iff_single :
    CommitsDeployment codec (Tx.chaincodeId [97]) (deploy [97]).rwset ⟨1, 0⟩ := by
  rcases Sample.announces_deploy with ⟨accepted, decoded⟩
  apply (accepted_deployment_iff accepted decoded ⟨1, 0⟩).mpr
  constructor
  · unfold PutsValues
    decide +kernel
  · decide +kernel
  · refine ⟨⟨⟨[97]⟩, false, some (record [97])⟩, by decide +kernel, rfl,
      ⟨⟨[97]⟩, ⟨[49]⟩, TxValidator.vscc, some anyone, some anyone⟩, by decide +kernel, rfl, rfl⟩

end Fabric.Committer.Deployment
