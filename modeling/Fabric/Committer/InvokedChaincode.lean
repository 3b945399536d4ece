import Fabric.Committer.TxValidator

/-!
# The chaincode that a transaction invokes

The committer looks up the record of a chaincode, compares its version and runs
its validation chaincode for each namespace that a transaction writes.  The
chaincode that was invoked is treated so only if it is one of them.  A
transaction that writes nothing, or writes to other namespaces only, is accepted
whatever the record of the invoked chaincode says.
-/

namespace Fabric.Committer.InvokedChaincode

open Library Outcome ByteString Protos Ledger.StateDB Ledger.RWSet VSCC TxValidator

section

variable (codec : Codec)

/-- What a transaction says about the chaincode that it invokes. -/
structure Invokes (payload : Payload) (envBytes : Bytes) (chdr : ChannelHeader)
    (ccID ccVer : GoString) (txRWSet : TxRwSet) : Prop where
  extension : ∃ hdrExt invoked, getChaincodeHeaderExtension codec payload.header = .ok hdrExt ∧
        hdrExt.chaincodeId = some invoked ∧ invoked.name = ccID
  channelHeader : ∃ header, payload.header = some header ∧
        unmarshalChannelHeader codec header.channelHeader = .ok chdr
  action : ∃ respPayload executed, actionOf codec (some envBytes) = .ok (respPayload, txRWSet) ∧
        respPayload.chaincodeId = some executed ∧
        executed.name = ccID ∧ executed.version = ccVer

/--
The invoked chaincode has a record with the version that was executed, and its
validation chaincode accepts the transaction under the recorded policy; for the
default chaincode this means that the policy accepts the endorsements.
-/
def InvocationChecked (support : Support) (db : VersionedDB) (envBytes : Bytes)
    (chdr : ChannelHeader) (ccID ccVer : GoString) : Prop :=
  ∃ cd, getCDataForCC codec db ccID = .ok cd ∧ cd.version = ccVer ∧
      vsccValidateTxForCC codec support (some envBytes) chdr.channelId cd.vscc cd.policy = .ok () ∧
      (cd.vscc = vscc → EndorsementsAccepted codec support.services envBytes cd.policy)

end

section

variable {codec : Codec} {support : Support} {db : VersionedDB} {payload : Payload}
  {envBytes : Bytes} {chdr : ChannelHeader} {ccID ccVer : GoString} {txRWSet : TxRwSet}

theorem vsccValidateTx_ok_iff (invokes : Invokes codec payload envBytes chdr ccID ccVer txRWSet)
    (application : isSysCC ccID = false) :
    vsccValidateTx codec support db payload (some envBytes) = .ok () ↔
      ccID ≠ .empty ∧ ccVer ≠ .empty ∧
        validateApplication codec support db chdr (some envBytes) txRWSet ccID ccVer = .ok () := by
  rcases invokes with ⟨⟨_, _, extension, hasInvoked, rfl⟩, ⟨_, hasHeader, decoded⟩,
      ⟨_, _, action, hasExecuted, same, rfl⟩⟩
  rw [hasHeader] at extension
  simp only [vsccValidateTx, hasHeader, extension, mapError, ok_bind, deref_some, decoded,
    action, hasInvoked, hasExecuted, ofOption, same, bind_ok_iff, require_ok_iff,
    application, if_true, true_and, exists_const]

theorem ne_lscc (application : isSysCC ccID = false) : ccID ≠ lscc := by
  rintro rfl
  revert application
  decide

def withoutRecord (db : VersionedDB) (ccID : GoString) : VersionedDB :=
  db.applyUpdates (UpdateBatch.new.delete lscc ccID ⟨0, 0⟩)

theorem getState_withoutRecord (db : VersionedDB) (ccID key : GoString) :
    (withoutRecord db ccID).getState lscc key =
      if ccID = key then none else db.getState lscc key := by
  rw [withoutRecord, VersionedDB.getState_applyUpdates, UpdateBatch.delete, UpdateBatch.get_set]
  by_cases same : ccID = key
  · simp [same, VersionedValue.stored]
  · simp [same]

theorem validateNamespace_withoutRecord {removed ns : GoString} (other : ns ≠ removed) :
    validateNamespace codec support (withoutRecord db removed) chdr (some envBytes) ccID ccVer ns =
      validateNamespace codec support db chdr (some envBytes) ccID ccVer
        ns := by
  have same : (withoutRecord db removed).getState lscc ns = db.getState lscc ns := by
    rw [getState_withoutRecord, if_neg other.symm]
  rw [validateNamespace, validateNamespace, getInfoForValidate,
    getInfoForValidate, getCDataForCC, getCDataForCC, same]

/--
Take a transaction that is accepted in some state and invokes an application
chaincode.  Whether the chaincode is recorded, in the executed version, and its
policy accepts the transaction is checked in every state in which the
transaction is accepted exactly if it writes to the namespace of the chaincode.
-/
theorem invocation_checked_iff (invokes : Invokes codec payload envBytes chdr ccID ccVer txRWSet)
    (application : isSysCC ccID = false)
    (accepted : ∃ db, vsccValidateTx codec support db payload (some envBytes) = .ok ()) :
    (∀ db, vsccValidateTx codec support db payload (some envBytes) = .ok () →
          InvocationChecked codec support db envBytes chdr ccID ccVer) ↔
      ccID ∈ wrNamespaces txRWSet := by
  have notLscc := ne_lscc application
  constructor
  · intro checked
    by_contra unwritten
    rcases accepted with ⟨db, accepted⟩
    rw [vsccValidateTx_ok_iff invokes application] at accepted
    simp only [validateApplication, bind_ok_iff, require_ok_iff, forM_ok_iff, exists_const]
      at accepted
    rcases accepted with ⟨named, versioned, noLscc, invokable, validated⟩
    have acceptedWithout : vsccValidateTx codec support (withoutRecord db ccID) payload
          (some envBytes) = .ok () := by
      rw [vsccValidateTx_ok_iff invokes application]
      simp only [validateApplication, bind_ok_iff, require_ok_iff, forM_ok_iff, exists_const]
      refine ⟨named, versioned, noLscc, invokable, ?_⟩
      intro ns write
      have other : ns ≠ ccID := by
        rintro rfl
        exact unwritten write
      rw [validateNamespace_withoutRecord other]
      exact validated ns write
    rcases checked _ acceptedWithout with ⟨_, record, _⟩
    apply getState_of_getCDataForCC record
    rw [getState_withoutRecord, if_pos rfl]
  · intro write db accepted
    rw [vsccValidateTx_ok_iff invokes application] at accepted
    simp only [validateApplication, bind_ok_iff, require_ok_iff, forM_ok_iff, exists_const]
      at accepted
    rcases accepted with ⟨_, _, _, _, validated⟩
    rcases exists_record_of_validateNamespace notLscc (validated ccID write) with
      ⟨cd, record, version, validated⟩
    exact ⟨cd, record, version rfl, validated⟩

end

/-! ## A transaction without writes -/

namespace Sample

/-- A peer on which no validation chaincode accepts anything. -/
def support : Support where
  services :=
    { hasManager := fun _ => false
      newPolicy := fun _ _ => none
      getLedger := fun _ => some .empty
      validateCodePackage := fun _ => false }
  available := false
  executeChaincode _ _ _ _ := .error .notExecuted
  signedByAnyMember _ := none
  getSysCCVersion := ⟨[49]⟩

def chdr (tx : TxValidator.Sample.Tx) : ChannelHeader :=
  ⟨.endorserTransaction, ⟨[99]⟩, .empty, 0, some tx.envelope⟩

end Sample

open TxValidator.Sample (Tx codec deploy call idle after)

/--
On an empty ledger a transaction without writes and without endorsements is
accepted as an invocation of a chaincode that does not exist.
-/
theorem accepted_without_record :
    Invokes codec (idle [98]).decodedPayload (idle [98]).envelope (Sample.chdr (idle [98]))
        ⟨[98]⟩ ⟨[49]⟩ ⟨[]⟩ ∧
      isSysCC ⟨[98]⟩ = false ∧
      vsccValidateTx codec Sample.support .empty (idle [98]).decodedPayload
        (some (idle [98]).envelope) = .ok () ∧
      ¬ InvocationChecked codec Sample.support .empty (idle [98]).envelope (Sample.chdr (idle [98]))
        ⟨[98]⟩ ⟨[49]⟩ := by
  refine ⟨⟨?_, ?_, ?_⟩, by decide, by decide +kernel, ?_⟩
  · exact ⟨⟨some (Tx.chaincodeId [98])⟩, _, by decide +kernel, rfl, rfl⟩
  · exact ⟨_, rfl, by decide +kernel⟩
  · exact ⟨⟨some (idle [98]).envelope, none, some (Tx.chaincodeId [98])⟩, _,
        by decide +kernel, rfl, rfl, rfl⟩
  · rintro ⟨_, record, _⟩
    exact getState_of_getCDataForCC record (VersionedDB.getState_empty _ _)

/-- A deployed chaincode that writes to its namespace is checked. -/
theorem invocation_checked_application :
    InvocationChecked codec (TxValidator.Sample.support (after (deploy [97]))) (after (deploy [97]))
      (call [97] [97]).envelope (Sample.chdr (call [97] [97])) ⟨[97]⟩ ⟨[49]⟩ := by
  have accepted : vsccValidateTx codec (TxValidator.Sample.support (after (deploy [97])))
          (after (deploy [97])) (call [97] [97]).decodedPayload
          (some (call [97] [97]).envelope) = .ok () := by
    decide +kernel
  refine (@invocation_checked_iff codec _ _ _ _ _ _ (call [97] [97]).rwset ⟨?_, ?_, ?_⟩ ?_
      ⟨_, accepted⟩).mpr ?_ _ accepted
  · exact ⟨⟨some (Tx.chaincodeId [97])⟩, _, by decide +kernel, rfl, rfl⟩
  · exact ⟨_, rfl, by decide +kernel⟩
  · exact ⟨⟨some (call [97] [97]).envelope, none, some (Tx.chaincodeId [97])⟩, _,
        by decide +kernel, rfl, rfl, rfl⟩
  · decide
  · decide

end Fabric.Committer.InvokedChaincode
