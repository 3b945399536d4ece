import Fabric.Ledger.RWSet

/-!
# The validation system chaincode

The default validation chaincode `vscc` decides whether a transaction carries
the endorsements that a policy asks for.  For an invocation of `lscc`, the
chaincode that keeps the table of instantiated chaincodes, it makes further
checks: only deployments and upgrades are let through, with a write set that
is compared with the deployment spec and with an instantiation policy.

Policies, the managers of the channels and the contents of code packages are
known to the chaincode only through the services of the peer.
-/

namespace Fabric.Committer.VSCC

open Library Outcome ByteString Protos Ledger.StateDB Ledger.RWSet

/-- The namespace, and the name, of the chaincode that manages lifecycles. -/
def lscc : GoString := .ascii "lscc"

/-- The verdict of a policy on a set of signatures. -/
abbrev Policy := List SignedData → Outcome Unit Unit

/-- The services of the peer that the validation chaincode uses. -/
structure Services where
  /-- The channel has a manager for its member organisations. -/
  hasManager : GoString → Bool
  /-- The policy of a channel that some bytes encode. -/
  newPolicy : GoString → Slice → Option Policy
  /-- The committed state of a channel that the peer has joined. -/
  getLedger : GoString → Option VersionedDB
  /-- The archive has only files that a chaincode may have. -/
  validateCodePackage : Bytes → Bool

/-- Why the action of a transaction is refused. -/
inductive VSCCError where
  | noBlock
  | noPolicy
  | decode (reason : DecodeError)
  | policy
  | headerType (type : HeaderType)
  | endorser
  | duplicatedIdentity
  | policyEvaluation
  | invocationSpec
  | invalidInvocation
  | invalidFunction (name : GoString)
  | argumentCount (count : Nat)
  | deploymentSpec
  | unknownChaincodeType (type : ChaincodeSpecType)
  | codePackage
  | inappropriateArguments
  | nilExtension
  | rwset
  | ledger (chid : GoString)
  | recordedChaincodeData
  | noLsccRWSet
  | singlePutState
  | key (expected found : GoString)
  | writtenChaincodeData
  | name (expected found : GoString)
  | version (expected found : GoString)
  | foreignNamespace (ns : GoString)
  | noManager (chainName : GoString)
  | noInstantiationPolicy
  | instantiationPolicy
  | alreadyInstantiated (name : GoString)
  | nonExistent (name : GoString)
  | sameVersion (version : GoString)
deriving DecidableEq

/-! ## The invocation of `lscc` -/

/-- The two functions of `lscc` that write. -/
inductive LSCCFunction where
  | deploy
  | upgrade
deriving DecidableEq

def LSCCFunction.ofName (name : GoString) : Option LSCCFunction :=
  if name = .ascii "upgrade" then
    some .upgrade
  else if name = .ascii "deploy" then some .deploy
  else none

section

variable (codec : Codec) (services : Services)

/-- The check that the platform of a chaincode makes, if there is one. -/
def validateDeploymentSpec (type : ChaincodeSpecType) (cds : ChaincodeDeploymentSpec) :
    Outcome VSCCError Unit :=
  if type = .golang then
    require (cds.codePackage.bytes = [] ∨ services.validateCodePackage cds.codePackage.bytes = true)
      .codePackage
  else if type = .car ∨ type = .java then .ok ()
  else .error (.unknownChaincodeType type)

/-- Decode a deployment spec; the chaincode spec inside must be present. -/
def getChaincodeDeploymentSpec (code : Bytes) : Outcome VSCCError ChaincodeDeploymentSpec := do
  let cds ← ofOption .deploymentSpec (codec.unmarshalChaincodeDeploymentSpec code)
  let spec ← deref cds.chaincodeSpec
  validateDeploymentSpec services spec.type cds
  pure cds

/-- The function name and the arguments of an invocation. -/
def invocationArgs (cis : ChaincodeInvocationSpec) : Option (GoString × List Bytes) := do
  let spec ← cis.chaincodeSpec
  let input ← spec.input
  match input.args with
  | [] => none
  | function :: args => some (⟨function⟩, args)

/-- What a deployment or an upgrade asks for, and what it writes. -/
structure LSCCInvocation where
  function : LSCCFunction
  chaincodeId : ChaincodeID
  txRWSet : TxRwSet
deriving DecidableEq

/-- The read-write set of an endorsed action. -/
def endorsedRWSet (action : ChaincodeEndorsedAction) : Outcome VSCCError TxRwSet := do
  let pRespPayload ← (getProposalResponsePayload codec
      action.proposalResponsePayload).mapError .decode
  require pRespPayload.extension.isSome .nilExtension
  let respPayload ← (getChaincodeAction codec pRespPayload.extension).mapError .decode
  ofOption .rwset (fromProtoBytes codec respPayload.results)

/-- Decode an invocation of `lscc` that deploys or upgrades a chaincode. -/
def lsccInvocation (cap : ChaincodeActionPayload) : Outcome VSCCError LSCCInvocation := do
  let cpp ← (getChaincodeProposalPayload codec cap.chaincodeProposalPayload).mapError .decode
  let cis ← ofOption .invocationSpec (codec.unmarshalChaincodeInvocationSpec cpp.input.bytes)
  let (lsccFunc, lsccArgs) ← ofOption .invalidInvocation (invocationArgs cis)
  let function ← ofOption (.invalidFunction lsccFunc) (LSCCFunction.ofName lsccFunc)
  require (2 ≤ lsccArgs.length ∧ lsccArgs.length ≤ 5) (.argumentCount lsccArgs.length)
  let code ← deref lsccArgs[1]?
  let cdsArgs ← getChaincodeDeploymentSpec codec services code
  let chaincodeId ← ofOption .inappropriateArguments
      (cdsArgs.chaincodeSpec.bind ChaincodeSpec.chaincodeId)
  let action ← ofOption .inappropriateArguments cap.action
  require action.proposalResponsePayload.isSome .inappropriateArguments
  let txRWSet ← endorsedRWSet codec action
  pure ⟨function, chaincodeId, txRWSet⟩

/-- What the committed state of a channel records about a chaincode. -/
def getInstantiatedCC (chid ccid : GoString) : Outcome VSCCError (Option ChaincodeData) := do
  let db ← ofOption (.ledger chid) (services.getLedger chid)
  match db.getState lscc ccid with
  | none => .ok none
  | some stored => do
      let cd ← ofOption .recordedChaincodeData (codec.unmarshalChaincodeData stored.value)
      pure (some cd)

/-! ## The checks of a deployment or an upgrade -/

/-- A namespace that a deployment of the chaincode must not write. -/
def writesForeignNamespace (name : GoString) (nsRWSet : NsRwSet) : Bool :=
  nsRWSet.nameSpace ≠ lscc && nsRWSet.nameSpace ≠ name && !nsRWSet.kvRwSet.writes.isEmpty

/-- The checks of the write set, which yield the record it writes. -/
def checkRWSet (chaincodeId : ChaincodeID) (txRWSet : TxRwSet) :
    Outcome VSCCError ChaincodeData := do
  let lsccrwset ← ofOption .noLsccRWSet
      (txRWSet.nsRwSets.find? fun nsRWSet => nsRWSet.nameSpace = lscc)
  match lsccrwset.kvRwSet.writes with
  | [kvWrite] => do
      require (kvWrite.key = chaincodeId.name) (.key chaincodeId.name kvWrite.key)
      let cdRWSet ← ofOption .writtenChaincodeData
          (codec.unmarshalChaincodeData kvWrite.value.bytes)
      require (cdRWSet.name = chaincodeId.name) (.name chaincodeId.name cdRWSet.name)
      require (cdRWSet.version = chaincodeId.version) (.version chaincodeId.version cdRWSet.version)
      match txRWSet.nsRwSets.find? (writesForeignNamespace cdRWSet.name) with
      | none => .ok cdRWSet
      | some nsRWSet => .error (.foreignNamespace nsRWSet.nameSpace)
  | _ => .error .singlePutState

/-- The creator of the transaction satisfies an instantiation policy. -/
def checkInstantiationPolicy (chainName : GoString) (env : Envelope) (instantiationPolicy : Slice)
    (payl : Payload) : Outcome VSCCError Unit := do
  require (services.hasManager chainName = true) (.noManager chainName)
  let instPol ← ofOption .policy (services.newPolicy chainName instantiationPolicy)
  let header ← deref payl.header
  let shdr ← (getSignatureHeader codec header.signatureHeader).mapError .decode
  let signedData : SignedData :=
    { data := env.payload.bytes
      identity := shdr.creator
      signature := env.signature }
  (instPol [signedData]).mapError fun _ => .instantiationPolicy

/-- The checks that differ between deployments and upgrades. -/
def checkLifecycle (chid : GoString) (env : Envelope) (payl : Payload)
    (chaincodeId : ChaincodeID) (cdLedger : Option ChaincodeData)
    (cdRWSet : ChaincodeData) : LSCCFunction → Outcome VSCCError Unit
  | .deploy => do
      require cdRWSet.instantiationPolicy.isSome .noInstantiationPolicy
      checkInstantiationPolicy codec services chid env cdRWSet.instantiationPolicy payl
      require (cdLedger = none) (.alreadyInstantiated chaincodeId.name)
  | .upgrade => do
      let cdLedger ← ofOption (.nonExistent chaincodeId.name) cdLedger
      require cdLedger.instantiationPolicy.isSome .noInstantiationPolicy
      checkInstantiationPolicy codec services chid env cdLedger.instantiationPolicy payl
      require (cdLedger.version ≠ chaincodeId.version) (.sameVersion chaincodeId.version)

def validateLSCCInvocation (chid : GoString) (env : Envelope) (cap : ChaincodeActionPayload)
    (payl : Payload) : Outcome VSCCError Unit := do
  let invocation ← lsccInvocation codec services cap
  let cdLedger ← getInstantiatedCC codec services chid invocation.chaincodeId.name
  let cdRWSet ← checkRWSet codec invocation.chaincodeId invocation.txRWSet
  checkLifecycle codec services chid env payl invocation.chaincodeId
    cdLedger cdRWSet invocation.function

end

/-! ## Endorsements -/

section

variable (codec : Codec) (services : Services)

/-- One signature for each identity that has not been seen before. -/
def signatureSetOf (prespBytes : Slice) :
    List GoString → List Endorsement → Outcome VSCCError (List SignedData)
  | _, [] => .ok []
  | signatureMap, endorsement :: rest => do
      let serializedIdentity ← ofOption .endorser
          (codec.unmarshalSerializedIdentity endorsement.endorser.bytes)
      let identity : GoString :=
        ⟨serializedIdentity.mspid.bytes ++ serializedIdentity.idBytes.bytes⟩
      if identity ∈ signatureMap then
        signatureSetOf prespBytes signatureMap rest
      else do
        let signedData : SignedData :=
          { data := prespBytes.bytes ++ endorsement.endorser.bytes
            identity := endorsement.endorser
            signature := endorsement.signature }
        let others ← signatureSetOf prespBytes (identity :: signatureMap) rest
        pure (signedData :: others)

/-- The signatures of the endorsers; the endorsed action must be present. -/
def deduplicateIdentity (cap : ChaincodeActionPayload) : Outcome VSCCError (List SignedData) := do
  let action ← deref cap.action
  signatureSetOf codec action.proposalResponsePayload [] action.endorsements

/-- The endorsements of an action satisfy a policy. -/
def evaluatePolicy (policy : Policy) (cap : ChaincodeActionPayload) : Outcome VSCCError Unit := do
  let signatureSet ← deduplicateIdentity codec cap
  let action ← deref cap.action
  (policy signatureSet).mapError fun _ =>
    if signatureSet.length < action.endorsements.length then .duplicatedIdentity
    else .policyEvaluation

/-- The checks of one action of a transaction. -/
def invokeAction (policy : Policy) (env : Envelope) (payl : Payload)
    (chdr : ChannelHeader) (act : TransactionAction) :
    Outcome VSCCError Unit := do
  let cap ← (getChaincodeActionPayload codec act.payload).mapError .decode
  evaluatePolicy codec policy cap
  let hdrExt ← (getChaincodeHeaderExtension codec payl.header).mapError .decode
  let chaincodeId ← deref hdrExt.chaincodeId
  if chaincodeId.name = lscc then validateLSCCInvocation codec services chdr.channelId env cap payl
  else .ok ()

/-- Validate an enveloped transaction against an encoded policy. -/
def invoke (envBytes policyBytes : Slice) : Outcome VSCCError Unit := do
  require envBytes.isSome .noBlock
  require policyBytes.isSome .noPolicy
  let env ← (getEnvelopeFromBlock codec envBytes).mapError .decode
  let payl ← (getPayload codec env).mapError .decode
  let header ← deref payl.header
  let chdr ← (unmarshalChannelHeader codec header.channelHeader).mapError .decode
  let policy ← ofOption .policy (services.newPolicy chdr.channelId policyBytes)
  require (chdr.type = .endorserTransaction) (.headerType chdr.type)
  let tx ← (getTransaction codec payl.data).mapError .decode
  tx.actions.forM (invokeAction codec services policy env payl chdr)

end

/-! ## What acceptance means -/

section

variable {codec : Codec} {services : Services}

/-- The write set that a deployment of a chaincode may have. -/
structure ChecksRWSet (codec : Codec) (chaincodeId : ChaincodeID) (txRWSet : TxRwSet)
    (cdRWSet : ChaincodeData) : Prop where
  /-- The first entry for `lscc` writes the record, and nothing else. -/
  record : ∃ nsRWSet kvWrite, txRWSet.nsRwSets.find? (fun nsRWSet => nsRWSet.nameSpace = lscc) =
          some nsRWSet ∧
        nsRWSet.kvRwSet.writes = [kvWrite] ∧
        kvWrite.key = chaincodeId.name ∧
        codec.unmarshalChaincodeData kvWrite.value.bytes = some cdRWSet
  name : cdRWSet.name = chaincodeId.name
  version : cdRWSet.version = chaincodeId.version
  namespaces : ∀ nsRWSet ∈ txRWSet.nsRwSets, nsRWSet.kvRwSet.writes ≠ [] →
        nsRWSet.nameSpace = lscc ∨ nsRWSet.nameSpace = chaincodeId.name

variable {txRWSet : TxRwSet}

theorem checksRWSet_of_ok {chaincodeId : ChaincodeID} {cdRWSet : ChaincodeData}
    (checked : checkRWSet codec chaincodeId txRWSet = .ok cdRWSet) :
    ChecksRWSet codec chaincodeId txRWSet cdRWSet := by
  rcases bind_ok_iff.mp checked with ⟨nsRWSet, found, checked⟩
  split at checked
  case h_2 => cases checked
  rename_i kvWrite writes
  simp only [bind_ok_iff, require_ok_iff, ofOption_ok_iff, exists_const] at checked
  rcases checked with ⟨key, _, decoded, name, version, checked⟩
  split at checked
  case h_2 => cases checked
  rename_i foreign
  cases checked
  constructor
  · exact ⟨nsRWSet, kvWrite, by simpa using found, writes, key, decoded⟩
  · exact name
  · exact version
  · rw [← name]
    intro nsRWSet member writes
    by_contra other
    push Not at other
    apply List.find?_eq_none.mp foreign nsRWSet member
    simp [writesForeignNamespace, other, writes]

variable {cap : ChaincodeActionPayload} {env : Envelope} {payl : Payload}

theorem exists_of_validateLSCCInvocation {chid : GoString}
    (accepted : validateLSCCInvocation codec services chid env cap payl = .ok ()) :
    ∃ invocation cdRWSet, lsccInvocation codec services cap = .ok invocation ∧
        ChecksRWSet codec invocation.chaincodeId invocation.txRWSet
          cdRWSet := by
  rcases bind_ok_iff.mp accepted with ⟨invocation, decoded, accepted⟩
  rcases bind_ok_iff.mp accepted with ⟨_, _, accepted⟩
  rcases bind_ok_iff.mp accepted with ⟨cdRWSet, checked, _⟩
  exact ⟨invocation, cdRWSet, decoded, checksRWSet_of_ok checked⟩

theorem endorsedRWSet_of_lsccInvocation {invocation : LSCCInvocation}
    (decoded : lsccInvocation codec services cap = .ok invocation) :
    ∃ action, cap.action = some action ∧ endorsedRWSet codec action = .ok invocation.txRWSet := by
  simp only [lsccInvocation, bind_ok_iff, ofOption_ok_iff] at decoded
  rcases decoded with ⟨_, _, _, _, _, _, _, _, _, _, _, _, _, _, _, _, action, hasAction, _, _,
      txRWSet, endorsed, invocationEq⟩
  cases invocationEq
  exact ⟨action, hasAction, endorsed⟩

/-- What the acceptance of one action implies. -/
structure ActionAccepted (codec : Codec) (services : Services) (policy : Policy)
    (env : Envelope) (payl : Payload) (chdr : ChannelHeader)
    (cap : ChaincodeActionPayload) : Prop where
  endorsed : ∃ signatureSet, deduplicateIdentity codec cap = .ok signatureSet ∧
        policy signatureSet = .ok ()
  lifecycle : ∀ hdrExt chaincodeId, getChaincodeHeaderExtension codec payl.header = .ok hdrExt →
      hdrExt.chaincodeId = some chaincodeId →
      chaincodeId.name = lscc →
      validateLSCCInvocation codec services chdr.channelId env cap payl = .ok ()

theorem actionAccepted_of_invokeAction {policy : Policy}
    {chdr : ChannelHeader} {act : TransactionAction}
    (accepted : invokeAction codec services policy env payl chdr act = .ok ()) :
    ∃ cap, getChaincodeActionPayload codec act.payload = .ok cap ∧
        ActionAccepted codec services policy env payl chdr cap := by
  simp only [invokeAction, evaluatePolicy, bind_ok_iff, mapError_ok_iff, deref_ok_iff] at accepted
  rcases accepted with ⟨cap, decoded, ⟨⟩, ⟨signatureSet, deduplicated, _, _, evaluated⟩,
      _, extension, _, hasChaincodeId, lifecycle⟩
  refine ⟨cap, decoded, ⟨⟨signatureSet, deduplicated, evaluated⟩, ?_⟩⟩
  intro _ _ otherExtension hasOtherId isLscc
  rw [extension] at otherExtension
  cases otherExtension
  rw [hasChaincodeId] at hasOtherId
  cases hasOtherId
  simpa [isLscc] using lifecycle

/-- The parts of a transaction that the validation chaincode accepts. -/
structure Invoked (codec : Codec) (services : Services) (envBytes policyBytes : Slice)
    (env : Envelope) (payl : Payload) (header : Header)
    (chdr : ChannelHeader) (policy : Policy) (tx : Transaction) :
    Prop where
  envelope : getEnvelopeFromBlock codec envBytes = .ok env
  payload : getPayload codec env = .ok payl
  hasHeader : payl.header = some header
  channelHeader : unmarshalChannelHeader codec header.channelHeader = .ok chdr
  newPolicy : services.newPolicy chdr.channelId policyBytes = some policy
  transaction : getTransaction codec payl.data = .ok tx
  actions : ∀ act ∈ tx.actions, ∃ cap, getChaincodeActionPayload codec act.payload = .ok cap ∧
          ActionAccepted codec services policy env payl chdr cap

theorem exists_of_invoke {envBytes policyBytes : Slice}
    (accepted : invoke codec services envBytes policyBytes = .ok ()) :
    ∃ env payl header chdr policy tx,
      Invoked codec services envBytes policyBytes env payl header chdr policy tx := by
  simp only [invoke, bind_ok_iff, mapError_ok_iff, deref_ok_iff, ofOption_ok_iff,
    forM_ok_iff] at accepted
  rcases accepted with ⟨_, _, _, _, env, envelope, payl, payload, header, hasHeader, chdr,
      channelHeader, policy, newPolicy, _, _, tx, transaction, actions⟩
  refine ⟨env, payl, header, chdr, policy, tx, ?_⟩
  constructor
  · exact envelope
  · exact payload
  · exact hasHeader
  · exact channelHeader
  · exact newPolicy
  · exact transaction
  · intro act member
    exact actionAccepted_of_invokeAction (actions act member)

end

end Fabric.Committer.VSCC
