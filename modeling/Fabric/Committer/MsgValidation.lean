import Fabric.Protos

/-!
# Validation of transaction envelopes

Before a committing peer looks at endorsements and read sets it checks that a
transaction envelope is well formed: headers, creator signature, transaction
id, and for an endorser transaction the nested messages down to the hash of
the proposal.  Everything in the envelope was chosen by a client.

The result that is proved is about totality.  The check returns a validation
code for every envelope with one kind of exception, which is described
exactly: an endorser transaction whose action payload decodes without an
endorsed action.
-/

namespace Fabric.Committer.MsgValidation

open Library Outcome ByteString Protos

/--
The cryptographic services of the peer: the hash function, and whether a
signature is one of a valid creator, as known to the channel.
-/
structure CryptoServices where
  computeSHA256 : Bytes → Bytes
  creatorVerifies (chainID : GoString) (creator msg sig : Bytes) : Bool

/-- Why a message is refused. -/
inductive ValidationError where
  | nilArguments
  | creatorSignature
  | nilHeader
  | decode (reason : DecodeError)
  | headerType (type : HeaderType)
  | epoch (epoch : UInt64)
  | nonce
  | creator
  | txId (given computed : GoString)
  | actions (count : Nat)
  | proposalHash
deriving DecidableEq

/-! ## Headers -/

section

variable (codec : Codec) (crypto : CryptoServices)

/-- A slice that is nil or empty. -/
def isBlank (slice : Slice) : Bool :=
  slice.bytes.isEmpty

/-- Checks the creator's signature. -/
def checkSignatureFromCreator (creatorBytes sig msg : Slice) (chainID : GoString) :
    Outcome ValidationError Unit :=
  match creatorBytes, sig, msg with
  | some creatorBytes, some sig, some msg =>
    require (crypto.creatorVerifies chainID creatorBytes msg sig = true) .creatorSignature
  | _, _, _ => .error .nilArguments

/-- Asks for a nonce and a creator. -/
def validateSignatureHeader (sHdr : SignatureHeader) : Outcome ValidationError Unit := do
  require (isBlank sHdr.nonce = false) .nonce
  require (isBlank sHdr.creator = false) .creator

/-- Checks the type and the epoch. -/
def validateChannelHeader (cHdr : ChannelHeader) : Outcome ValidationError Unit := do
  require (cHdr.type = HeaderType.endorserTransaction ∨ cHdr.type = HeaderType.configUpdate ∨
      cHdr.type = HeaderType.config)
    (.headerType cHdr.type)
  require (cHdr.epoch = 0) (.epoch cHdr.epoch)

/-- Decodes and checks both headers. -/
def validateCommonHeader (hdr : Option Header) :
    Outcome ValidationError (ChannelHeader × SignatureHeader) := do
  let hdr ← ofOption .nilHeader hdr
  let chdr ← (unmarshalChannelHeader codec hdr.channelHeader).mapError .decode
  let shdr ← (getSignatureHeader codec hdr.signatureHeader).mapError .decode
  validateChannelHeader chdr
  validateSignatureHeader shdr
  pure (chdr, shdr)

/-! ## Transaction ids and proposal hashes -/

def hexDigit (value : UInt8) : UInt8 :=
  if value < 10 then 48 + value else 87 + value

/-- The hexadecimal text of bytes. -/
def hexEncodeToString (bytes : Bytes) : GoString :=
  ⟨bytes.flatMap fun byte => [hexDigit (byte / 16), hexDigit (byte % 16)]⟩

/-- The identifier that nonce and creator give. -/
def computeProposalTxID (nonce creator : Slice) : GoString :=
  hexEncodeToString (crypto.computeSHA256 (nonce.bytes ++ creator.bytes))

/-- Compares an identifier with the computed one. -/
def checkProposalTxID (txid : GoString) (nonce creator : Slice) : Outcome ValidationError Unit :=
  let computedTxID := computeProposalTxID crypto nonce creator
  require (txid = computedTxID) (.txId txid computedTxID)

/-- The hash of a proposal as a committer can compute it. -/
def getProposalHash2 (header : Header) (ccPropPayl : Slice) : Outcome ValidationError Bytes :=
  match header.channelHeader, header.signatureHeader, ccPropPayl with
  | some channelHeader, some signatureHeader, some ccPropPayl =>
    .ok (crypto.computeSHA256 (channelHeader ++ signatureHeader ++ ccPropPayl))
  | _, _, _ => .error .nilArguments

end

/-! ## Transactions -/

section

variable (codec : Codec) (crypto : CryptoServices)

/-- Asks only that its arguments are there. -/
def validateConfigTransaction (data : Slice) (hdr : Option Header) : Outcome ValidationError Unit :=
  require (data.isSome = true ∧ hdr.isSome = true) .nilArguments

/-- One action of an endorser transaction. -/
def validateAction (hdr : Header) (act : TransactionAction) : Outcome ValidationError Unit := do
  let sHdr ← (getSignatureHeader codec act.header).mapError .decode
  validateSignatureHeader sHdr
  let ccActionPayload ← (getChaincodeActionPayload codec act.payload).mapError .decode
  let action ← deref ccActionPayload.action
  let prp ← (getProposalResponsePayload codec action.proposalResponsePayload).mapError .decode
  let hdrOrig : Header := ⟨hdr.channelHeader, act.header⟩
  let pHash ← getProposalHash2 crypto hdrOrig ccActionPayload.chaincodeProposalPayload
  require (pHash = prp.proposalHash.bytes) .proposalHash

/-- Checks the actions in order. -/
def validateActions (hdr : Header) : List TransactionAction → Outcome ValidationError Unit
  | [] => .ok ⟨⟩
  | act :: actions => do
      validateAction codec crypto hdr act
      validateActions hdr actions

/-- Checks a transaction of one action. -/
def validateEndorserTransaction (data : Slice) (hdr : Option Header) :
    Outcome ValidationError Unit :=
  match data, hdr with
  | some data, some hdr => do
      let tx ← (getTransaction codec (some data)).mapError .decode
      require (tx.actions.length = 1) (.actions tx.actions.length)
      validateActions codec crypto hdr tx.actions
  | _, _ => .error .nilArguments

/-- The payload and the code of a transaction, unless the check panics. -/
def validateTransaction (e : Option Envelope) : Outcome Empty (Option Payload × TxValidationCode) :=
  match e with
  | none => .ok (none, .nilEnvelope)
  | some e =>
    (getPayload codec e).handle (fun _ => .ok (none, .badPayload)) fun payload =>
    (validateCommonHeader codec payload.header).handle (fun _ => .ok (none, .badCommonHeader))
      fun (chdr, shdr) =>
    (checkSignatureFromCreator crypto shdr.creator e.signature e.payload chdr.channelId).handle
      (fun _ => .ok (none, .badCreatorSignature))
      fun _ =>
    if chdr.type = HeaderType.endorserTransaction then
      (checkProposalTxID crypto chdr.txId shdr.nonce shdr.creator).handle
        (fun _ => .ok (none, .badProposalTxid))
        fun _ =>
      (validateEndorserTransaction codec crypto payload.data payload.header).handle
        (fun _ => .ok (some payload, .invalidEndorserTransaction))
        fun _ => .ok (some payload, .valid)
    else if chdr.type = HeaderType.config then
      (validateConfigTransaction payload.data payload.header).handle
        (fun _ => .ok (some payload, .invalidConfigTransaction))
        fun _ => .ok (some payload, .valid)
    else
      .ok (none, .unsupportedTxPayload)

end

/-! ## Where the check can panic -/

section

variable {codec : Codec} {crypto : CryptoServices}

theorem validateSignatureHeader_ne_panic (sHdr : SignatureHeader) :
    validateSignatureHeader sHdr ≠ .panic := by
  simp [validateSignatureHeader, bind_panic_iff]

theorem validateCommonHeader_ne_panic (hdr : Option Header) :
    validateCommonHeader codec hdr ≠ .panic := by
  simp [validateCommonHeader, validateChannelHeader, validateSignatureHeader_ne_panic,
    bind_panic_iff, unmarshalChannelHeader, getSignatureHeader]

theorem getProposalHash2_ne_panic (header : Header) (ccPropPayl : Slice) :
    getProposalHash2 crypto header ccPropPayl ≠ .panic := by
  unfold getProposalHash2
  split <;> simp

theorem validateAction_panic_iff (hdr : Header) (act : TransactionAction) :
    validateAction codec crypto hdr act = .panic ↔ ∃ sHdr ccActionPayload,
        codec.unmarshalSignatureHeader act.header.bytes = some sHdr ∧
          validateSignatureHeader sHdr = .ok ⟨⟩ ∧
          codec.unmarshalChaincodeActionPayload act.payload.bytes = some ccActionPayload ∧
          ccActionPayload.action = none := by
  simp only [validateAction, bind_panic_iff, mapError_panic_iff, mapError_ok_iff,
    getSignatureHeader, getChaincodeActionPayload, getProposalResponsePayload, ofOption_ne_panic,
    ofOption_ok_iff, validateSignatureHeader_ne_panic, deref_panic_iff, deref_ok_iff,
    getProposalHash2_ne_panic, require_ne_panic, false_or, and_false, exists_false, or_false]
  constructor
  · rintro ⟨sHdr, decoded, ⟨⟩, valid, ccActionPayload, payload, absent⟩
    exact ⟨sHdr, ccActionPayload, decoded, valid, payload, absent⟩
  · rintro ⟨sHdr, ccActionPayload, decoded, valid, payload, absent⟩
    exact ⟨sHdr, decoded, ⟨⟩, valid, ccActionPayload, payload, absent⟩

theorem validateEndorserTransaction_panic_iff (data : Slice) (hdr : Option Header) :
    validateEndorserTransaction codec crypto data hdr = .panic ↔
      ∃ content header act, data = some content ∧ hdr = some header ∧
          codec.unmarshalTransaction content = some ⟨[act]⟩ ∧
          validateAction codec crypto header act = .panic := by
  constructor
  · intro panics
    unfold validateEndorserTransaction at panics
    split at panics
    · rename_i content header
      rcases bind_panic_iff.mp panics with
        undecoded | ⟨tx, decoded, panics⟩
      · simp [getTransaction] at undecoded
      rcases bind_panic_iff.mp panics with
        uncounted | ⟨_, counted, panics⟩
      · exact absurd uncounted (require_ne_panic _ _)
      rw [require_ok_iff] at counted
      rcases tx with ⟨_⟩
      rcases List.length_eq_one_iff.mp counted with ⟨act, rfl⟩
      refine ⟨content, header, act, rfl, rfl, ?_, ?_⟩
      · simpa [getTransaction] using decoded
      · simpa [validateActions, bind_panic_iff] using panics
    · cases panics
  · rintro ⟨content, header, act, rfl, rfl, decoded, panics⟩
    simp [validateEndorserTransaction, getTransaction, decoded, ofOption, mapError,
      require, validateActions, panics]

/--
The envelope holds a single-action endorser transaction that passes every
check up to the decoding of the payload of its action.
-/
def ReachesActionPayload (codec : Codec) (crypto : CryptoServices) (e : Envelope)
    (ccActionPayload : ChaincodeActionPayload) : Prop :=
  ∃ payload header content chdr shdr act sHdr,
    codec.unmarshalPayload e.payload.bytes = some payload ∧ payload.header = some header ∧
      payload.data = some content ∧
      validateCommonHeader codec (some header) = .ok (chdr, shdr) ∧
      checkSignatureFromCreator crypto shdr.creator e.signature e.payload chdr.channelId = .ok () ∧
      chdr.type = HeaderType.endorserTransaction ∧
      checkProposalTxID crypto chdr.txId shdr.nonce shdr.creator = .ok () ∧
      codec.unmarshalTransaction content = some ⟨[act]⟩ ∧
      codec.unmarshalSignatureHeader act.header.bytes = some sHdr ∧
      validateSignatureHeader sHdr = .ok () ∧
      codec.unmarshalChaincodeActionPayload act.payload.bytes = some ccActionPayload

private theorem reachesActionPayload_of_panic {e : Envelope}
    (panics : validateTransaction codec crypto (some e) = .panic) :
    ∃ ccActionPayload, ReachesActionPayload codec crypto e ccActionPayload ∧
        ccActionPayload.action = none := by
  rcases handle_panic_iff.mp panics with
    undecoded | ⟨_, _, impossible⟩ | ⟨payload, decoded, panics⟩
  · simp [getPayload] at undecoded
  · cases impossible
  rcases handle_panic_iff.mp panics with
    unvalidated | ⟨_, _, impossible⟩ | ⟨⟨chdr, shdr⟩, headers, panics⟩
  · exact absurd unvalidated (validateCommonHeader_ne_panic payload.header)
  · cases impossible
  rcases handle_panic_iff.mp panics with
    unverified | ⟨_, _, impossible⟩ | ⟨_, verified, panics⟩
  · unfold checkSignatureFromCreator at unverified
    split at unverified <;> simp at unverified
  · cases impossible
  split_ifs at panics with endorser config
  · rcases handle_panic_iff.mp panics with
      unchecked | ⟨_, _, impossible⟩ | ⟨_, txID, panics⟩
    · exact absurd unchecked (require_ne_panic _ _)
    · cases impossible
    rcases handle_panic_iff.mp panics with
      endorserPanics | ⟨_, _, impossible⟩ | ⟨_, _, impossible⟩
    · rcases (validateEndorserTransaction_panic_iff _ _).mp endorserPanics with
        ⟨content, header, act, hasData, hasHeader, transaction, actPanics⟩
      rcases (validateAction_panic_iff header act).mp actPanics with
        ⟨sHdr, ccActionPayload, signatureHeader, valid, actionPayload, absent⟩
      refine ⟨ccActionPayload, ?_, absent⟩
      exact ⟨payload, header, content, chdr, shdr, act, sHdr,
          by simpa [getPayload] using decoded, hasHeader, hasData,
          by rw [← hasHeader]; exact headers, verified, endorser, txID,
          transaction, signatureHeader, valid, actionPayload⟩
    · cases impossible
    · cases impossible
  · rcases handle_panic_iff.mp panics with
      unchecked | ⟨_, _, impossible⟩ | ⟨_, _, impossible⟩
    · exact absurd unchecked (require_ne_panic _ _)
    · cases impossible
    · cases impossible

private theorem panic_of_reachesActionPayload
    {e : Envelope} {ccActionPayload : ChaincodeActionPayload}
    (reaches : ReachesActionPayload codec crypto e ccActionPayload)
    (absent : ccActionPayload.action = none) :
    validateTransaction codec crypto (some e) = .panic := by
  rcases reaches with ⟨payload, header, content, _, _, act, sHdr, decoded, hasHeader,
      hasData, headers, verified, endorser, txID, transaction,
      signatureHeader, valid, actionPayload⟩
  have actPanics : validateAction codec crypto header act = .panic :=
    (validateAction_panic_iff header act).mpr
      ⟨sHdr, ccActionPayload, signatureHeader, valid, actionPayload, absent⟩
  have endorserPanics : validateEndorserTransaction codec crypto payload.data payload.header =
        .panic :=
    (validateEndorserTransaction_panic_iff _ _).mpr
      ⟨content, header, act, hasData, hasHeader, transaction, actPanics⟩
  simp [validateTransaction, getPayload, decoded, ofOption,
    handle, hasHeader, headers, verified, endorser, txID]
  rw [← hasHeader, endorserPanics]

/--
A validation code is returned exactly for the envelopes that do not hold an
otherwise acceptable endorser transaction with an absent endorsed action.
-/
theorem validateTransaction_returns_iff (e : Option Envelope) :
    (∃ result, validateTransaction codec crypto e = .ok result) ↔
      ∀ envelope ccActionPayload, e = some envelope →
        ReachesActionPayload codec crypto envelope ccActionPayload →
        ccActionPayload.action ≠ none := by
  constructor
  · rintro ⟨result, returned⟩ envelope ccActionPayload rfl reaches absent
    rw [panic_of_reachesActionPayload reaches absent] at returned
    cases returned
  · intro present
    cases outcome : validateTransaction codec crypto e with
    | ok result => exact ⟨result, rfl⟩
    | error reason => cases reason
    | panic =>
      cases e with
      | none => cases outcome
      | some envelope =>
        rcases reachesActionPayload_of_panic outcome with ⟨ccActionPayload, reaches, absent⟩
        exact absurd absent (present envelope ccActionPayload rfl reaches)

end

/-! An endorser transaction whose only action has no payload. -/

namespace NoAction

def signatureHeader : Bytes := field 1 [99] ++ field 2 [110]

def digest : Bytes :=
  [11, 228, 119, 51, 109, 62, 26, 141, 69, 216, 32, 170, 84, 117, 80, 146,
    226, 236, 94, 7, 81, 204, 223, 147, 168, 250, 143, 161, 225, 11, 215, 83]

def txID : GoString := hexEncodeToString digest

def channelHeader : Bytes := [8, 3] ++ field 4 [99] ++ field 5 txID.bytes

def transaction : Bytes := field 1 (field 1 signatureHeader)

def payload : Bytes :=
  field 1 (field 1 channelHeader ++ field 2 signatureHeader) ++ field 2 transaction

def envelope : Envelope := ⟨some payload, some [115]⟩

def codec : Codec :=
  { Codec.rejecting with
    unmarshalPayload := fun bytes =>
      if bytes = payload then
        some ⟨some ⟨some channelHeader, some signatureHeader⟩, some transaction⟩
      else
        none
    unmarshalChannelHeader := fun bytes =>
      if bytes = channelHeader then some ⟨.endorserTransaction, .letter 'c', txID, 0, none⟩
      else none
    unmarshalSignatureHeader := fun bytes =>
      if bytes = signatureHeader then some ⟨some [99], some [110]⟩ else none
    unmarshalTransaction := fun bytes =>
      if bytes = transaction then some ⟨[⟨some signatureHeader, none⟩]⟩
      else none
    unmarshalChaincodeActionPayload := fun bytes =>
      if bytes = [] then some ⟨none, none⟩ else none }

/-- The creator's signature over the payload is valid. -/
def crypto : CryptoServices where
  computeSHA256 bytes := if bytes = [110, 99] then digest else []
  creatorVerifies _ creator msg sig := creator == [99] && msg == payload && sig == [115]

end NoAction

/-- Validating this envelope panics. -/
theorem validateTransaction_panics :
    validateTransaction NoAction.codec NoAction.crypto (some NoAction.envelope) = .panic := by
  decide +kernel

end Fabric.Committer.MsgValidation
