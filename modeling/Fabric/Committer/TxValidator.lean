import Fabric.Committer.VSCC
import Fabric.Ledger.WriteSet

/-!
# Authorization of writes

Before a block is committed, each endorser transaction is handed to the
validation chaincodes of the namespaces that it writes.  Which chaincode and
which policy apply to a namespace is recorded in the namespace `lscc`, and the
table there is itself written by transactions.  Invocations of application
chaincodes and of system chaincodes are treated differently.

The result of this module says who may write a namespace, in every state of a
ledger in whose history no transaction recorded a chaincode under the name of
a system chaincode that clients can invoke.  Nothing in the validator prevents
such a record, and with one the guarantee is lost.
-/

namespace Fabric.Committer.TxValidator

open Library Outcome ByteString Protos Ledger.StateDB Ledger.RWSet Ledger.QueryResults
  Ledger.StateValidator Ledger.Serializability Ledger.WriteSet VSCC

/-! ## System chaincodes -/

/-- A chaincode of the peer itself, and who may call it. -/
structure SystemChaincode where
  name : GoString
  invokableExternal : Bool
  invokableCC2CC : Bool
deriving DecidableEq

/-- The chaincode for configuration. -/
def cscc : GoString := .ascii "cscc"
/-- The chaincode that endorses. -/
def escc : GoString := .ascii "escc"
/-- The chaincode that validates by default. -/
def vscc : GoString := .ascii "vscc"
/-- The chaincode for queries. -/
def qscc : GoString := .ascii "qscc"

/-- The chaincodes of a peer. -/
def systemChaincodes : List SystemChaincode :=
  [⟨cscc, true, false⟩, ⟨lscc, true, true⟩, ⟨escc, false, false⟩,
    ⟨vscc, false, false⟩, ⟨qscc, true, true⟩]

/-- The chaincode of the peer with a name. -/
def findSysCC (name : GoString) : Option SystemChaincode :=
  systemChaincodes.find? fun sysCC => sysCC.name = name

/-- A name is that of a chaincode of the peer. -/
def isSysCC (name : GoString) : Bool := (findSysCC name).isSome

/-- Transactions may not invoke the chaincode. -/
def isSysCCAndNotInvokableExternal (name : GoString) : Bool :=
  (findSysCC name).any fun sysCC => !sysCC.invokableExternal

/-- Other chaincodes may not call the chaincode. -/
def isSysCCAndNotInvokableCC2CC (name : GoString) : Bool :=
  (findSysCC name).any fun sysCC => !sysCC.invokableCC2CC

/-! ## Validation of one transaction -/

/-- How the run of a validation chaincode can fail. -/
inductive ExecutionFailure where
  | notExecuted
  | refused
deriving DecidableEq

/-- What the validator needs from the peer. -/
structure Support where
  services : Services
  /-- A ledger context and the chaincode support can be obtained. -/
  available : Bool
  /-- The run of a validation chaincode other than the default one. -/
  executeChaincode : (chid vsccName : GoString) → (envBytes policy : Slice) →
      Outcome ExecutionFailure Unit
  /-- The encoded policy of one signature by any member of the channel. -/
  signedByAnyMember : GoString → Option Bytes
  getSysCCVersion : GoString

/-- Why a block cannot be validated. -/
inductive ValidateError where
  | decode (reason : DecodeError)
  | rwset
  | nilChaincodeIdInHeader
  | nilChaincodeIdInAction
  | invalidChaincodeID
  | inconsistentChaincodeID (ccID other : GoString)
  | invalidChaincodeVersion
  | writesToLSCC (ccID : GoString)
  | writesToNonInvokableSCC (ccID : GoString)
  | illegalInvocation (ccID : GoString)
  | recordNotFound (ccID : GoString)
  | recordUndecodable
  | recordWithoutVSCC (ccID : GoString)
  | recordWithoutPolicy (ccID : GoString)
  | marshalPolicy
  | expiredVersion (ccID ccVer recorded : GoString)
  | executionFailure
  | endorsementPolicy (reason : VSCCError)
  | refusedByChaincode
deriving DecidableEq

section

variable (codec : Codec) (support : Support) (db : VersionedDB)

/-- The usable record of a chaincode in the namespace `lscc`. -/
def getCDataForCC (ccid : GoString) : Outcome ValidateError ChaincodeData := do
  let stored ← ofOption (.recordNotFound ccid) (db.getState lscc ccid)
  let cd ← ofOption .recordUndecodable (codec.unmarshalChaincodeData stored.value)
  require (cd.vscc ≠ .empty) (.recordWithoutVSCC ccid)
  require (cd.policy.bytes ≠ []) (.recordWithoutPolicy ccid)
  pure cd

/-- How the transactions of a chaincode are to be validated. -/
structure ValidationInfo where
  ccName : GoString
  ccVersion : GoString
  vsccName : GoString
  policy : Slice
deriving DecidableEq

/-- Look up how to validate; for `lscc`, any member may sign. -/
def getInfoForValidate (chID ccID : GoString) : Outcome ValidateError ValidationInfo :=
  if ccID ≠ lscc then do
    let cd ← getCDataForCC codec db ccID
    pure ⟨cd.name, cd.version, cd.vscc, cd.policy⟩
  else do
    let policy ← ofOption .marshalPolicy (support.signedByAnyMember chID)
    pure ⟨lscc, support.getSysCCVersion, vscc, some policy⟩

/-- Run a validation chaincode under a policy. -/
def vsccValidateTxForCC (envBytes : Slice) (chid vsccName : GoString) (policy : Slice) :
    Outcome ValidateError Unit := do
  require (support.available = true) .executionFailure
  if vsccName = vscc then
    (invoke codec support.services envBytes policy).mapError .endorsementPolicy
  else
    (support.executeChaincode chid vsccName envBytes policy).mapError fun
      | .notExecuted => .executionFailure
      | .refused => .refusedByChaincode

/-- The namespaces with at least one write, in order. -/
def wrNamespaces (txRWSet : TxRwSet) : List GoString :=
  (txRWSet.nsRwSets.filter fun nsRWSet => !nsRWSet.kvRwSet.writes.isEmpty).map NsRwSet.nameSpace

/-- Some namespace is that of a chaincode that is not to be called. -/
def writesToNonInvokableSCC (txRWSet : TxRwSet) : Bool :=
  (wrNamespaces txRWSet).any fun ns =>
    isSysCCAndNotInvokableCC2CC ns || isSysCCAndNotInvokableExternal ns

/-- A refusal: the error and the code for the transaction. -/
abbrev Refusal := ValidateError × TxValidationCode

/-- The code that goes with an error of a validation chaincode. -/
def refusalOf : ValidateError → Refusal
  | .endorsementPolicy reason => (.endorsementPolicy reason, .endorsementPolicyFailure)
  | .refusedByChaincode => (.refusedByChaincode, .endorsementPolicyFailure)
  | reason => (reason, .invalidOtherReason)

section

variable (chdr : ChannelHeader) (envBytes : Slice)

/-- Validate a write of an application chaincode to a namespace. -/
def validateNamespace (ccID ccVer ns : GoString) : Outcome Refusal Unit := do
  let txcc ← (getInfoForValidate codec support db chdr.channelId ns).mapError
      fun reason => (reason, .invalidOtherReason)
  require (ns = ccID → txcc.ccVersion = ccVer)
    (.expiredVersion ccID ccVer txcc.ccVersion, .expiredChaincode)
  (vsccValidateTxForCC codec support envBytes chdr.channelId txcc.vsccName
    txcc.policy).mapError refusalOf

/-- Validate the invocation of an application chaincode. -/
def validateApplication (txRWSet : TxRwSet) (ccID ccVer : GoString) : Outcome Refusal Unit := do
  require (lscc ∉ wrNamespaces txRWSet) (.writesToLSCC ccID, .illegalWriteset)
  require (writesToNonInvokableSCC txRWSet = false)
    (.writesToNonInvokableSCC ccID, .illegalWriteset)
  (wrNamespaces txRWSet).forM (validateNamespace codec support db chdr envBytes ccID ccVer)

/-- Validate the invocation of a chaincode of the peer. -/
def validateSystem (ccID : GoString) : Outcome Refusal Unit := do
  require (isSysCCAndNotInvokableExternal ccID = false) (.illegalInvocation ccID, .illegalWriteset)
  let info ← (getInfoForValidate codec support db chdr.channelId ccID).mapError
      fun reason => (reason, .invalidOtherReason)
  (vsccValidateTxForCC codec support envBytes chdr.channelId info.vsccName
    info.policy).mapError refusalOf

end

/-- The chaincode action of a transaction and its read-write set. -/
def actionOf (envBytes : Slice) : Outcome Refusal (ChaincodeAction × TxRwSet) := do
  let respPayload ← (getActionFromEnvelope codec envBytes).mapError
      fun reason => (.decode reason, .badResponsePayload)
  let txRWSet ← ofOption (.rwset, .badRwset) (fromProtoBytes codec respPayload.results)
  pure (respPayload, txRWSet)

/-- Validate the chaincode action of a transaction. -/
def vsccValidateTx (payload : Payload) (envBytes : Slice) : Outcome Refusal Unit := do
  let hdrExt ← (getChaincodeHeaderExtension codec payload.header).mapError
      fun reason => (.decode reason, .badHeaderExtension)
  let header ← deref payload.header
  let chdr ← (unmarshalChannelHeader codec header.channelHeader).mapError
      fun reason => (.decode reason, .badChannelHeader)
  let (respPayload, txRWSet) ← actionOf codec envBytes
  let invoked ← ofOption (.nilChaincodeIdInHeader, .invalidOtherReason) hdrExt.chaincodeId
  let executed ← ofOption (.nilChaincodeIdInAction, .invalidOtherReason) respPayload.chaincodeId
  require (invoked.name ≠ .empty) (.invalidChaincodeID, .invalidOtherReason)
  require (invoked.name = executed.name)
    (.inconsistentChaincodeID invoked.name executed.name, .invalidOtherReason)
  require (executed.version ≠ .empty) (.invalidChaincodeVersion, .invalidOtherReason)
  if isSysCC invoked.name = false then
    validateApplication codec support db chdr envBytes txRWSet invoked.name executed.version
  else
    validateSystem codec support db chdr envBytes invoked.name

end

/-! ## Who may write -/

section

variable (codec : Codec)

/-- The chaincode that an accepted invocation of `lscc` deploys or upgrades. -/
def acceptedDeployment (services : Services) (envBytes : Bytes) :
    Outcome VSCCError ChaincodeID := do
  let env ← (getEnvelopeFromBlock codec (some envBytes)).mapError .decode
  let payl ← (getPayload codec env).mapError .decode
  let header ← deref payl.header
  let chdr ← (unmarshalChannelHeader codec header.channelHeader).mapError .decode
  let hdrExt ← (getChaincodeHeaderExtension codec payl.header).mapError .decode
  let invoked ← deref hdrExt.chaincodeId
  require (invoked.name = lscc) .invalidInvocation
  let tx ← (getTransaction codec payl.data).mapError .decode
  let act ← ofOption (.decode .noTransactionAction) tx.actions.head?
  let cap ← (getChaincodeActionPayload codec act.payload).mapError .decode
  validateLSCCInvocation codec services chdr.channelId env cap payl
  let invocation ← lsccInvocation codec services cap
  pure invocation.chaincodeId

/-- A policy accepts the endorsements of every action of a transaction. -/
def EndorsementsAccepted (services : Services) (envBytes : Bytes) (policyBytes : Slice) : Prop :=
  ∃ env payl header chdr policy tx, getEnvelopeFromBlock codec (some envBytes) = .ok env ∧
      getPayload codec env = .ok payl ∧
      payl.header = some header ∧
      unmarshalChannelHeader codec header.channelHeader = .ok chdr ∧
      services.newPolicy chdr.channelId policyBytes = some policy ∧
      getTransaction codec payl.data = .ok tx ∧
      ∀ act ∈ tx.actions, ∃ cap signatureSet,
          getChaincodeActionPayload codec act.payload = .ok cap ∧
            deduplicateIdentity codec cap = .ok signatureSet ∧
            policy signatureSet = .ok ()

section

variable (support : Support) (db : VersionedDB) (envBytes : Bytes)

/--
The chaincode recorded for the validation of a namespace accepts the
transaction under the recorded policy; for the default chaincode this means
that the policy accepts the endorsements.
-/
def RecordedPolicyAccepts (ns : GoString) : Prop :=
  ∃ cd chid, getCDataForCC codec db ns = .ok cd ∧
      vsccValidateTxForCC codec support (some envBytes) chid cd.vscc cd.policy = .ok () ∧
      (cd.vscc = vscc → EndorsementsAccepted codec support.services envBytes cd.policy)

/-- The right of a transaction to write a namespace. -/
inductive Authorized (ns : GoString) : Prop where
  | policy
      (application : isSysCC ns = false)
      (accepts : RecordedPolicyAccepts codec support db envBytes ns)
  | deployment
      {chaincodeId : ChaincodeID}
      (accepted : acceptedDeployment codec support.services envBytes = .ok chaincodeId)
      (target : ns = chaincodeId.name ∨ ns = lscc)

/-- A transaction of a block that the validator accepts, and its writes. -/
structure AcceptedTx (txRWSet : TxRwSet) : Prop where
  accepted : ∃ env payload, getEnvelopeFromBlock codec (some envBytes) = .ok env ∧
        getPayload codec env = .ok payload ∧
        vsccValidateTx codec support db payload (some envBytes) = .ok ()
  rwset : ∃ action, getActionFromEnvelope codec (some envBytes) = .ok action ∧
        fromProtoBytes codec action.results = some txRWSet

end

end

variable {db : VersionedDB} {txRWSet : TxRwSet}

section

variable {codec : Codec} {support : Support} {envBytes : Bytes} {policyBytes : Slice}

/-- The default chaincode accepts only with the consent of the policy. -/
theorem endorsementsAccepted_of_vscc {chid : GoString}
    (accepted : vsccValidateTxForCC codec support (some envBytes) chid vscc policyBytes = .ok ()) :
    invoke codec support.services (some envBytes) policyBytes = .ok () ∧
      EndorsementsAccepted codec support.services envBytes policyBytes := by
  simp only [vsccValidateTxForCC, if_true, bind_ok_iff, mapError_ok_iff] at accepted
  rcases accepted with ⟨_, _, invoked⟩
  refine ⟨invoked, ?_⟩
  rcases exists_of_invoke invoked with ⟨env, payl, header, chdr, policy, tx, parts⟩
  refine ⟨env, payl, header, chdr, policy, tx, parts.envelope,
    parts.payload, parts.hasHeader, parts.channelHeader, parts.newPolicy,
    parts.transaction, ?_⟩
  intro act member
  rcases parts.actions act member with ⟨cap, decoded, accepts⟩
  rcases accepts.endorsed with ⟨signatureSet, deduplicated, evaluated⟩
  exact ⟨cap, signatureSet, decoded, deduplicated, evaluated⟩

/-- A record was consulted for every namespace but `lscc`. -/
theorem getCDataForCC_of_getInfoForValidate {chID ccID : GoString} {info : ValidationInfo}
    (notLscc : ccID ≠ lscc) (found : getInfoForValidate codec support db chID ccID = .ok info) :
    ∃ cd, getCDataForCC codec db ccID = .ok cd ∧
        info = ⟨cd.name, cd.version, cd.vscc, cd.policy⟩ := by
  rw [getInfoForValidate, if_pos notLscc, bind_ok_iff] at found
  rcases found with ⟨cd, record, infoEq⟩
  cases infoEq
  exact ⟨cd, record, rfl⟩

theorem getState_of_getCDataForCC {ccid : GoString} {cd : ChaincodeData}
    (found : getCDataForCC codec db ccid = .ok cd) :
    db.getState lscc ccid ≠ none := by
  rcases bind_ok_iff.mp found with ⟨_, present, _⟩
  rw [ofOption_ok_iff] at present
  simp [present]

variable {chdr : ChannelHeader}

theorem exists_record_of_validateNamespace {ccID ccVer ns : GoString} (notLscc : ns ≠ lscc)
    (accepted : validateNamespace codec support db chdr (some envBytes) ccID ccVer ns = .ok ()) :
    ∃ cd, getCDataForCC codec db ns = .ok cd ∧ (ns = ccID → cd.version = ccVer) ∧
      vsccValidateTxForCC codec support (some envBytes) chdr.channelId cd.vscc cd.policy = .ok () ∧
      (cd.vscc = vscc → EndorsementsAccepted codec support.services envBytes cd.policy) := by
  simp only [validateNamespace, bind_ok_iff, mapError_ok_iff, require_ok_iff] at accepted
  rcases accepted with ⟨_, info, _, version, validated⟩
  rcases getCDataForCC_of_getInfoForValidate notLscc info with ⟨cd, record, rfl⟩
  refine ⟨cd, record, version, validated, ?_⟩
  intro isVscc
  rw [isVscc] at validated
  exact (endorsementsAccepted_of_vscc validated).2

variable {ns : GoString}

/-- A system chaincode, other than `lscc`, that clients may invoke. -/
def invokableSysCC (name : GoString) : Bool :=
  isSysCC name && !isSysCCAndNotInvokableExternal name && name ≠ lscc

/-- No chaincode is recorded under the name of an invokable system chaincode. -/
def NoSysCCRecorded (db : VersionedDB) : Prop :=
  ∀ name, invokableSysCC name = true → db.getState lscc name = none

theorem authorized_of_validateApplication {ccID ccVer ns : GoString} (noSysCC : NoSysCCRecorded db)
    (accepted : validateApplication codec support db chdr (some envBytes) txRWSet ccID
        ccVer = .ok ())
    (write : ns ∈ wrNamespaces txRWSet) :
    Authorized codec support db envBytes ns := by
  simp only [validateApplication, bind_ok_iff, require_ok_iff, forM_ok_iff, exists_const]
    at accepted
  rcases accepted with ⟨notLscc, invokable, validated⟩
  have other : ns ≠ lscc := by
    rintro rfl
    exact notLscc write
  rcases exists_record_of_validateNamespace other (validated ns write) with ⟨cd, record, _, accepts⟩
  apply Authorized.policy _ ⟨cd, chdr.channelId, record, accepts⟩
  -- A system chaincode is either not invokable or not recorded.
  by_contra isSystem
  rw [Bool.not_eq_false] at isSystem
  have flags : isSysCCAndNotInvokableCC2CC ns = false ∧
        isSysCCAndNotInvokableExternal ns = false := by
    simpa using List.any_eq_false.mp invokable ns write
  have absent : db.getState lscc ns = none := by
    apply noSysCC
    simp [invokableSysCC, isSystem, flags.2, other]
  exact getState_of_getCDataForCC record absent

variable {respPayload : ChaincodeAction}

variable {hdrExt : ChaincodeHeaderExtension} {invoked : ChaincodeID} {payload : Payload} {env :
  Envelope}

theorem authorized_of_lscc (envelope : getEnvelopeFromBlock codec (some envBytes) = .ok env)
    (decoded : getPayload codec env = .ok payload)
    (extension : getChaincodeHeaderExtension codec payload.header = .ok hdrExt)
    (hasInvoked : hdrExt.chaincodeId = some invoked) (isLscc : invoked.name = lscc)
    (accepted : invoke codec support.services (some envBytes) policyBytes = .ok ())
    (action : getActionFromEnvelope codec (some envBytes) = .ok respPayload)
    (rwset : fromProtoBytes codec respPayload.results = some txRWSet)
    (write : ns ∈ wrNamespaces txRWSet) :
    Authorized codec support db envBytes ns := by
  rcases exists_of_invoke accepted with ⟨_, _, header, _, _, _, parts⟩
  have sameEnv := parts.envelope
  rw [envelope] at sameEnv
  cases sameEnv
  have samePayload := parts.payload
  rw [decoded] at samePayload
  cases samePayload
  -- The messages on the way to the chaincode action of the transaction.
  simp only [getActionFromEnvelope, envelope, decoded, ok_bind] at action
  rcases bind_ok_iff.mp action with ⟨_, transaction', action⟩
  split at action
  case h_1 => cases action
  rename_i act _ actions
  rcases bind_ok_iff.mp action with ⟨_, unpacked, result⟩
  cases result
  rcases bind_ok_iff.mp unpacked with ⟨_, capDecoded, unpacked⟩
  split at unpacked
  case h_1 => cases unpacked
  rename_i hasAction
  simp only [bind_ok_iff, require_ok_iff, exists_const] at unpacked
  rcases unpacked with ⟨_, _, response, _, _, chaincodeAction, payloadsEq⟩
  cases payloadsEq
  have sameTx := parts.transaction
  rw [transaction'] at sameTx
  cases sameTx
  rcases parts.actions act (by simp [actions]) with ⟨_, capDecoded', accepts⟩
  rw [capDecoded] at capDecoded'
  cases capDecoded'
  have lifecycle := accepts.lifecycle hdrExt invoked extension hasInvoked isLscc
  rcases exists_of_validateLSCCInvocation lifecycle with ⟨invocation, _, invocationDecoded, checks⟩
  have deployed : acceptedDeployment codec support.services envBytes =
        .ok invocation.chaincodeId := by
    simp [acceptedDeployment, mapError, require, envelope, decoded,
      parts.hasHeader ▸ extension, parts.hasHeader, parts.channelHeader, hasInvoked, isLscc,
      transaction', actions, ofOption, capDecoded, lifecycle, invocationDecoded]
  -- The two validators see the same read-write set of the first action.
  have sameRWSet : invocation.txRWSet = txRWSet := by
    rcases endorsedRWSet_of_lsccInvocation invocationDecoded with ⟨_, hasOther, endorsed⟩
    rw [hasAction] at hasOther
    cases hasOther
    simp only [endorsedRWSet, bind_ok_iff, mapError_ok_iff, ofOption_ok_iff, response,
      Outcome.ok.injEq, exists_eq_left', chaincodeAction] at endorsed
    rcases endorsed with ⟨_, _, results⟩
    rw [rwset] at results
    exact (Option.some.inj results).symm
  simp only [wrNamespaces, List.mem_map, List.mem_filter] at write
  rcases write with ⟨nsRWSet, ⟨entry, writes⟩, rfl⟩
  rw [← sameRWSet] at entry
  exact .deployment deployed (checks.namespaces nsRWSet entry (by simpa using writes)).symm

theorem authorized_of_validateSystem (noSysCC : NoSysCCRecorded db)
    (envelope : getEnvelopeFromBlock codec (some envBytes) = .ok env)
    (decoded : getPayload codec env = .ok payload)
    (extension : getChaincodeHeaderExtension codec payload.header = .ok hdrExt)
    (hasInvoked : hdrExt.chaincodeId = some invoked) (isSystem : isSysCC invoked.name = true)
    (accepted : validateSystem codec support db chdr (some envBytes) invoked.name = .ok ())
    (action : getActionFromEnvelope codec (some envBytes) = .ok respPayload)
    (rwset : fromProtoBytes codec respPayload.results = some txRWSet)
    (write : ns ∈ wrNamespaces txRWSet) :
    Authorized codec support db envBytes ns := by
  simp only [validateSystem, bind_ok_iff, require_ok_iff, mapError_ok_iff, exists_const] at accepted
  rcases accepted with ⟨external, _, found, validated⟩
  have isLscc : invoked.name = lscc := by
    by_contra other
    rcases getCDataForCC_of_getInfoForValidate other found with ⟨_, record, _⟩
    apply getState_of_getCDataForCC record
    apply noSysCC
    simp [invokableSysCC, isSystem, external, other]
  rw [getInfoForValidate, if_neg (not_not.mpr isLscc), bind_ok_iff] at found
  rcases found with ⟨_, _, infoEq⟩
  cases infoEq
  exact authorized_of_lscc envelope decoded extension hasInvoked isLscc
    (endorsementsAccepted_of_vscc validated).1 action rwset write

theorem authorized_of_acceptedTx (noSysCC : NoSysCCRecorded db)
    (tx : AcceptedTx codec support db envBytes txRWSet) (write : ns ∈ wrNamespaces txRWSet) :
    Authorized codec support db envBytes ns := by
  rcases tx.accepted with ⟨_, _, envelope, decoded, accepted⟩
  rcases tx.rwset with ⟨_, action, rwset⟩
  simp only [vsccValidateTx, actionOf, bind_ok_iff, mapError_ok_iff, ofOption_ok_iff,
    require_ok_iff, action, rwset, pure_ok,
    Outcome.ok.injEq, Option.some.injEq, exists_eq_left', exists_const]
    at accepted
  rcases accepted with ⟨_, extension, _, _, _, _, _, hasInvoked, _, _, _, _, _, accepted⟩
  split_ifs at accepted with application
  · exact authorized_of_validateApplication noSysCC accepted write
  · exact authorized_of_validateSystem noSysCC envelope decoded extension
      hasInvoked (Bool.not_eq_false _ ▸ application) accepted action rwset
      write

end

/-! ## The history of a ledger -/

/--
The states of a ledger that starts with an empty table of chaincodes.  Each
endorser transaction of a block that is committed as valid was accepted by
the validator in the state before the block, and is allowed.
-/
inductive History (codec : Codec) (hashing : Hashing) (Allowed : TxRwSet → Prop) :
    VersionedDB → Prop where
  | start
      {db : VersionedDB}
      (emptyTable : ∀ key, db.getState lscc key = none) :
      History codec hashing Allowed db
  | commit
      {db : VersionedDB} {block : Block} {header : BlockHeader}
      {data : BlockData} {progress : Progress}
      (support : Support)
      (history : History codec hashing Allowed db)
      (hasHeader : block.header = some header)
      (hasData : block.data = some data)
      (validated : validateAndPrepareBatch codec hashing db block true = .ok progress)
      (transactions : ∀ (txIndex : Nat) (envBytes : Bytes) (txRWSet : TxRwSet),
          data.data[txIndex]? = some envBytes →
          progress.txsFilter[txIndex]? = some TxValidationCode.valid.number →
          transactionRWSet codec envBytes = some txRWSet →
          AcceptedTx codec support db envBytes txRWSet ∧ Allowed txRWSet) :
      History codec hashing Allowed (db.applyUpdates progress.updates)

/--
The write set records no chaincode under the name of a system chaincode that
clients can invoke.
-/
def RecordsNoSysCC (txRWSet : TxRwSet) : Prop :=
  ∀ kvWrite, (lscc, kvWrite) ∈ allWrites txRWSet → invokableSysCC kvWrite.key = true →
    kvWrite.isDelete = true

section

variable {codec : Codec} {hashing : Hashing}

theorem NoSysCCRecorded.applyWriteSet {txHeight : Height}
    (noSysCC : NoSysCCRecorded db) (allowed : RecordsNoSysCC txRWSet) :
    NoSysCCRecorded (applyWriteSet txRWSet txHeight db) := by
  intro name invokable
  rw [getState_applyWriteSet]
  cases decides : lastWrite txRWSet lscc name with
  | none => exact noSysCC name invokable
  | some kvWrite =>
    rcases lastWrite_mem decides with ⟨member, rfl⟩
    have deleted := allowed kvWrite member invokable
    simp [written, deleted]

theorem NoSysCCRecorded.serialFrom
    {blockNum : UInt64} {txsFilter : TxValidationFlags} {txIndex : Nat} {data : List Bytes}
    (noSysCC : NoSysCCRecorded db)
    (allowed : ∀ (offset : Nat) (envBytes : Bytes) (txRWSet : TxRwSet),
        data[offset]? = some envBytes →
        txsFilter[txIndex + offset]? = some TxValidationCode.valid.number →
        transactionRWSet codec envBytes = some txRWSet →
        RecordsNoSysCC txRWSet) :
    NoSysCCRecorded (serialFrom codec blockNum txsFilter txIndex db data) := by
  induction data generalizing txIndex db with
  | nil => exact noSysCC
  | cons envBytes _ ih =>
    apply ih
    · unfold commitAt
      split_ifs with valid
      · cases decoded : transactionRWSet codec envBytes with
        | none => exact noSysCC
        | some txRWSet => exact noSysCC.applyWriteSet (allowed 0 envBytes txRWSet rfl valid decoded)
      · exact noSysCC
    · intro offset other txRWSet position valid decoded
      apply allowed (offset + 1) other txRWSet position _ decoded
      rw [← valid]
      congr 1
      omega

theorem History.noSysCCRecorded (history : History codec hashing RecordsNoSysCC db) :
    NoSysCCRecorded db := by
  induction history with
  | start emptyTable =>
    intro name _
    exact emptyTable name
  | @commit db block header data progress support _ hasHeader hasData
      validated transactions ih =>
      rcases validateAndPrepareBatch_validateFrom validated with ⟨_, _, walkedHas, walked⟩
      rw [hasData] at walkedHas
      cases walkedHas
      rw [hasHeader] at walked
      rw [validateFrom_applyUpdates walked]
      apply NoSysCCRecorded.serialFrom
      · intro name invokable
        rw [VersionedDB.getState_applyUpdates_new]
        exact ih name invokable
      · intro offset envBytes txRWSet position valid decoded
        rw [Nat.zero_add] at valid
        exact (transactions offset envBytes txRWSet position valid decoded).2

/--
In every history that records no invokable system chaincode, an accepted
transaction writes only the namespaces it is authorized to write.
-/
theorem written_namespaces_authorized
    {db : VersionedDB} (history : History codec hashing RecordsNoSysCC db)
    {support : Support} {envBytes : Bytes} {txRWSet : TxRwSet}
    (tx : AcceptedTx codec support db envBytes txRWSet) :
    ∀ ns ∈ wrNamespaces txRWSet, Authorized codec support db envBytes ns := by
  intro ns write
  exact authorized_of_acceptedTx history.noSysCCRecorded tx write

end

/-! Ledgers on which one chaincode has been deployed and is then invoked. -/

namespace Sample

/-- A write of one key in a namespace. -/
structure Write where
  ns : Bytes
  key : Bytes
  value : Bytes

/-- A transaction that makes some writes.  The same bytes stand for it and for its parts. -/
structure Tx where
  envelope : Bytes
  invoked : Bytes
  writes : List Write
  args : List Bytes
  endorsed : Bool

/-- The encoded policy that asks for no signature. -/
def anyone : Bytes := [0]

/-- The encoded policy that asks for a member of the organisation `m`. -/
def member : Bytes := [1]

/-- The serialized identity of a member. -/
def endorser : Bytes := [2]

/-- The encoded record of a chaincode, for which its name stands. -/
def record (name : Bytes) : Bytes := name

/-- Deploy a chaincode whose policies anyone satisfies, and record others as well. -/
def deployWith (name : Bytes) (others : List Bytes) : Tx where
  envelope := 1 :: name ++ others.flatten
  invoked := lscc.bytes
  writes := (name :: others).map fun name => ⟨lscc.bytes, name, record name⟩
  args := [[100, 101, 112, 108, 111, 121], [99], name]
  endorsed := true

/-- Deploy a chaincode alone. -/
def deploy (name : Bytes) : Tx := deployWith name []

/-- Invoke a chaincode that writes to a namespace. -/
def call (name ns : Bytes) : Tx where
  envelope := 2 :: name ++ ns
  invoked := name
  writes := [⟨ns, [107], [118]⟩]
  args := [[102]]
  endorsed := true

/-- Invoke a chaincode that writes nothing and is not endorsed by anyone. -/
def idle (name : Bytes) : Tx where
  envelope := 3 :: name
  invoked := name
  writes := []
  args := []
  endorsed := false

namespace Tx

/-- The read-write set of a transaction. -/
def rwset (tx : Tx) : TxRwSet :=
  ⟨tx.writes.map fun write =>
    ⟨⟨write.ns⟩, [], [], [⟨⟨write.key⟩, false, some write.value⟩]⟩⟩

/-- The first version of a chaincode. -/
def chaincodeId (name : Bytes) : ChaincodeID := ⟨.empty, ⟨name⟩, ⟨[49]⟩⟩

/-- The payload of the envelope of a transaction. -/
def decodedPayload (tx : Tx) : Payload :=
  ⟨some ⟨some tx.envelope, none⟩, some tx.envelope⟩

/-- The action of a transaction, with its endorsement. -/
def decodedCap (tx : Tx) : ChaincodeActionPayload :=
  ⟨some tx.envelope, some ⟨some tx.envelope,
    if tx.endorsed then [⟨some endorser, some [115]⟩] else []⟩⟩

end Tx

/-- The transactions that can be decoded. -/
def transactions : List Tx :=
  [deploy [97], call [97] [97], deploy qscc.bytes, call qscc.bytes [98], deployWith [97] [[98]],
    idle [98]]

/-- Decode a part of one of the transactions. -/
def decodePart {Part : Type} (part : Tx → Part) (bytes : Bytes) : Option Part :=
  (transactions.find? fun tx => tx.envelope == bytes).map part

/-- The decoders of the transactions. -/
def codec : Codec :=
  { Codec.rejecting with
    unmarshalEnvelope := decodePart fun tx => ⟨some tx.envelope, none⟩
    unmarshalPayload := decodePart Tx.decodedPayload
    unmarshalChannelHeader := decodePart fun tx =>
      ⟨.endorserTransaction, ⟨[99]⟩, .empty, 0, some tx.envelope⟩
    unmarshalSignatureHeader := fun _ => some ⟨some endorser, none⟩
    unmarshalChaincodeHeaderExtension := decodePart fun tx => ⟨some (Tx.chaincodeId tx.invoked)⟩
    unmarshalTransaction := decodePart fun tx => ⟨[⟨none, some tx.envelope⟩]⟩
    unmarshalChaincodeActionPayload := decodePart Tx.decodedCap
    unmarshalProposalResponsePayload := decodePart fun tx => ⟨none, some tx.envelope⟩
    unmarshalChaincodeAction := decodePart fun tx =>
      ⟨some tx.envelope, none, some (Tx.chaincodeId tx.invoked)⟩
    unmarshalTxReadWriteSet := decodePart fun tx =>
      ⟨tx.writes.map fun write => ⟨⟨write.ns⟩, some write.key⟩⟩
    unmarshalKVRWSet := fun bytes =>
      ((transactions.flatMap Tx.writes).find? fun write => write.key == bytes).map
        fun write => ⟨[], [], [⟨⟨write.key⟩, false, some write.value⟩]⟩
    unmarshalChaincodeProposalPayload := decodePart fun tx => ⟨some tx.envelope⟩
    unmarshalChaincodeInvocationSpec := decodePart fun tx =>
      ⟨some ⟨⟨0⟩, none, some ⟨tx.args⟩⟩⟩
    unmarshalChaincodeDeploymentSpec := fun name =>
      some ⟨some ⟨.golang, some (Tx.chaincodeId name), none⟩, none⟩
    unmarshalChaincodeData := fun name =>
      some ⟨⟨name⟩, ⟨[49]⟩, vscc, some anyone, some anyone⟩
    unmarshalSerializedIdentity := fun _ => some ⟨⟨[109]⟩, some [101]⟩ }

/-- The peer, with the committed state of its channel. -/
def support (db : VersionedDB) : Support where
  services :=
    { hasManager := fun _ => true
      newPolicy := fun _ bytes =>
        if bytes = some anyone then
          some fun _ => .ok ()
        else if bytes = some member then
          some fun signatureSet =>
            require (signatureSet.any (fun signedData =>
                signedData.identity == some endorser && signedData.signature == some [115]) = true)
              ()
        else
          none
      getLedger := fun _ => some db
      validateCodePackage := fun _ => false }
  available := true
  executeChaincode _ _ _ _ := .error .notExecuted
  signedByAnyMember _ := some member
  getSysCCVersion := ⟨[49]⟩

/-- The hashing of queries, of which there are none here. -/
def hashing : Hashing := ⟨fun bytes => bytes, fun _ => []⟩

/-- A block with one transaction. -/
def block (tx : Tx) : Block where
  header := some ⟨1, none, none⟩
  data := some ⟨[tx.envelope]⟩
  metadata := some ⟨[[], [], [0]]⟩

/-- The outcome of the validation of the block on an empty ledger. -/
def committed (tx : Tx) : Progress :=
  match validateAndPrepareBatch codec hashing VersionedDB.empty (block tx) true with
  | .ok progress => progress
  | _ => ⟨[], .new⟩

/-- The validation of the block returns. -/
def returns (tx : Tx) : Bool :=
  match validateAndPrepareBatch codec hashing VersionedDB.empty (block tx) true with
  | .ok _ => true
  | _ => false

variable {tx : Tx}

theorem validateAndPrepareBatch_eq (returned : returns tx = true) :
    validateAndPrepareBatch codec hashing VersionedDB.empty (block tx) true = .ok (committed tx) := by
  unfold returns at returned
  unfold committed
  split at returned
  · rename_i progress validated
    rw [validated]
  · cases returned

/-- The state after the block was committed on an empty ledger. -/
def after (tx : Tx) : VersionedDB :=
  VersionedDB.empty.applyUpdates (committed tx).updates

theorem history {Allowed : TxRwSet → Prop} (returned : returns tx = true)
    (decoded : transactionRWSet codec tx.envelope = some tx.rwset)
    (accepted : AcceptedTx codec (support .empty) .empty tx.envelope tx.rwset)
    (allowed : Allowed tx.rwset) :
    History codec hashing Allowed (after tx) := by
  apply History.commit (support .empty) (.start (by simp)) rfl rfl
    (validateAndPrepareBatch_eq returned)
  intro txIndex _ _ position _ found
  cases txIndex with
  | zero =>
    cases position
    rw [decoded] at found
    cases found
    exact ⟨accepted, allowed⟩
  | succ txIndex => simp at position

theorem acceptedTx {db : VersionedDB}
    (envelope : getEnvelopeFromBlock codec (some tx.envelope) = .ok ⟨some tx.envelope, none⟩)
    (payload : getPayload codec ⟨some tx.envelope, none⟩ = .ok tx.decodedPayload)
    (accepted : vsccValidateTx codec (support db) db tx.decodedPayload (some tx.envelope) = .ok ())
    (action : getActionFromEnvelope codec (some tx.envelope) =
        .ok ⟨some tx.envelope, none, some (Tx.chaincodeId tx.invoked)⟩)
    (rwset : fromProtoBytes codec (some tx.envelope) = some tx.rwset) :
    AcceptedTx codec (support db) db tx.envelope tx.rwset :=
  ⟨⟨_, _, envelope, payload, accepted⟩, ⟨_, action, rwset⟩⟩

end Sample

/--
After a chaincode was recorded as `qscc`, an invocation of `qscc` is accepted
that writes to a namespace of which nothing is recorded.
-/
theorem written_namespace_not_authorized :
    History Sample.codec Sample.hashing (fun _ => True) (Sample.after (Sample.deploy qscc.bytes)) ∧
      AcceptedTx Sample.codec (Sample.support (Sample.after (Sample.deploy qscc.bytes)))
        (Sample.after (Sample.deploy qscc.bytes))
        (Sample.call qscc.bytes [98]).envelope
        (Sample.call qscc.bytes [98]).rwset ∧
      ⟨[98]⟩ ∈ wrNamespaces (Sample.call qscc.bytes [98]).rwset ∧
      ¬ Authorized Sample.codec (Sample.support (Sample.after (Sample.deploy qscc.bytes)))
          (Sample.after (Sample.deploy qscc.bytes))
          (Sample.call qscc.bytes [98]).envelope ⟨[98]⟩ := by
  refine ⟨?_, ?_, ?_, ?_⟩
  · apply Sample.history
    · decide +kernel
    · decide +kernel
    · apply Sample.acceptedTx <;> decide +kernel
    · trivial
  · apply Sample.acceptedTx <;> decide +kernel
  · decide +kernel
  · intro authorized
    cases authorized with
    | policy _ accepts =>
      rcases accepts with ⟨_, _, record, _⟩
      apply getState_of_getCDataForCC record
      decide +kernel
    | deployment accepted _ =>
      have refused : acceptedDeployment Sample.codec (Sample.support
                (Sample.after (Sample.deploy qscc.bytes))).services
              (Sample.call qscc.bytes [98]).envelope =
            .error .invalidInvocation := by
        decide +kernel
      rw [refused] at accepted
      cases accepted

/-- A chaincode `a` writes to its namespace after it was deployed. -/
theorem written_namespaces_authorized_application :
    Authorized Sample.codec (Sample.support (Sample.after (Sample.deploy [97])))
      (Sample.after (Sample.deploy [97]))
      (Sample.call [97] [97]).envelope ⟨[97]⟩ := by
  have history : History Sample.codec Sample.hashing RecordsNoSysCC
        (Sample.after (Sample.deploy [97])) := by
    apply Sample.history
    · decide +kernel
    · decide +kernel
    · apply Sample.acceptedTx <;> decide +kernel
    · intro kvWrite write invokable
      have only : kvWrite = ⟨⟨[97]⟩, false, some (Sample.record [97])⟩ :=
        congrArg Prod.snd (List.mem_singleton.mp write)
      subst only
      revert invokable
      decide +kernel
  have tx : AcceptedTx Sample.codec (Sample.support (Sample.after (Sample.deploy [97])))
        (Sample.after (Sample.deploy [97]))
        (Sample.call [97] [97]).envelope (Sample.call [97] [97]).rwset := by
    apply Sample.acceptedTx <;> decide +kernel
  exact written_namespaces_authorized history tx ⟨[97]⟩ (by decide +kernel)

end Fabric.Committer.TxValidator
