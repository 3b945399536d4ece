import Fabric.Gossip.Discovery

/-!
# Internal endpoints

A peer attaches its internal endpoint to its alive messages as a secret, for the
peers of its own organization.  The secret is to be taken off again from what is
handed to the communication layer for others: when alive messages are gossiped,
in membership responses and in membership requests.

The filter of the disclosure policy leaves the secret where it is if the
organization of the remote peer is not known.  Membership responses are then not
sent at all, but membership requests are.  Requests to peers whose PKI-ID is not
known are not filtered.

The policy and the filter see one state of the identity mapper, except that
every request is sent with its own.  Taking a secret off a stored message also
removes it for later readers, which is left out.
-/

namespace Fabric.Gossip.Disclosure

open Library Outcome ByteString Message Identity Discovery

/-! ## Secrets in messages -/

/-- The envelopes of alive messages inside a message. -/
def aliveEnvelopesIn (message : GossipMessage) : List Envelope :=
  match message.content with
  | some (.memReq request) => request.selfInformation.toList
  | some (.memRes response) => response.alive ++ response.dead
  | _ => []

/-- An alive message inside the message carries a secret. -/
def HasSecret (message : GossipMessage) : Prop :=
  ∃ envelope ∈ aliveEnvelopesIn message, envelope.secretEnvelope ≠ none

instance (message : GossipMessage) : Decidable (HasSecret message) :=
  inferInstanceAs (Decidable
      (∃ envelope ∈ aliveEnvelopesIn message, envelope.secretEnvelope ≠ none))

/-- Encoded messages are decoded with the secrets that they had. -/
def KeepsSecrets (codec : GossipCodec) : Prop :=
  ∀ message, ∃ decoded, codec.unmarshalGossipMessage (codec.marshalGossipMessage message) =
        some decoded ∧
      (HasSecret decoded ↔ HasSecret message)

/-- The envelopes of alive messages in what is sent with a message. -/
def aliveEnvelopes (codec : GossipCodec) (signed : SignedGossipMessage) : List Envelope :=
  match signed.getAliveMsg with
  | some _ => [signed.envelope]
  | none =>
    match codec.unmarshalGossipMessage signed.envelope.payload.bytes with
    | some message => aliveEnvelopesIn message
    | none => []

/-- An alive message that is sent with the message carries a secret. -/
def CarriesSecret (codec : GossipCodec) (signed : SignedGossipMessage) : Prop :=
  ∃ envelope ∈ aliveEnvelopes codec signed, envelope.secretEnvelope ≠ none

theorem carriesSecret_noopSign_iff {codec : GossipCodec} {message : GossipMessage}
    (keeps : KeepsSecrets codec) (other : message.getAliveMsg = none) :
    CarriesSecret codec (codec.noopSign message) ↔ HasSecret message := by
  rcases keeps message with ⟨_, decodes, same⟩
  rw [← same, CarriesSecret, aliveEnvelopes]
  simp only [GossipCodec.noopSign, SignedGossipMessage.getAliveMsg, other,
    Slice.bytes_some, decodes]
  rfl

/-! ## The peer -/

/-- What a peer is configured with. -/
structure Node where
  codec : GossipCodec
  mcs : MessageCryptoService
  advisor : SecurityAdvisor
  selfOrg : Slice
  identity : Slice
  includeIdentity : Bool

/-- A peer as messages are sent to it. -/
structure RemotePeer where
  pkiID : Slice
  endpoint : GoString
deriving DecidableEq

/-- A message that was handed to the communication layer for a peer. -/
structure Handed where
  idMapper : Mapper
  peer : RemotePeer
  signed : SignedGossipMessage

/-- The internal endpoint, if there is one. -/
def preferredEndpoint (member : NetworkMember) : GoString :=
  if member.internalEndpoint ≠ .empty then member.internalEndpoint else member.endpoint

/-- The member under an identifier, this peer included. -/
def lookup (discovery : GossipDiscovery) (pkiID : Slice) : Option NetworkMember :=
  if pkiID.bytes = discovery.self.pkiId.bytes then some discovery.self
  else discovery.id2Member[key pkiID]?

/-- The peer knows an endpoint of the member. -/
def hasExternalEndpoint (discovery : GossipDiscovery) (pkiID : Slice) : Bool :=
  match lookup discovery pkiID with
  | some member => member.endpoint ≠ .empty
  | none => false

namespace Node

variable (node : Node)

/-- The organization of the peer was determined to be the own one. -/
def InOwnOrg (idMapper : Mapper) (pkiID : Slice) : Prop :=
  ∃ org, getOrgOfPeer node.advisor idMapper pkiID = some org ∧ node.selfOrg.bytes = org

/-- The message reaches a peer of another organization with a secret. -/
def Exposes (handed : Handed) : Prop :=
  ¬ node.InOwnOrg handed.idMapper handed.peer.pkiID ∧ CarriesSecret node.codec handed.signed

/-! ## Gossiping alive messages -/

/-- The message without its secret part. -/
def omitSecret (signed : SignedGossipMessage) : SignedGossipMessage :=
  { signed with envelope := signed.envelope.omitSecret }

def aliveMsgFromDiffOrg (discovery : GossipDiscovery) (signed : SignedGossipMessage) :
    Outcome Empty Bool :=
  match signed.getAliveMsg with
  | none => .ok false
  | some alive => do
      let member ← deref alive.membership
      .ok (!isInMyorg node.advisor node.selfOrg discovery.idMapper member.pkiId)

/--
Send an alive message to peers.  It is changed in place: once its secret is gone
it is sent without to the other peers, too.
-/
def sendAndFilterSecrets (discovery : GossipDiscovery) :
    List RemotePeer → SignedGossipMessage → Outcome Empty (List Handed)
  | [], _ => .ok []
  | peer :: rest, signed => do
      let fromDiffOrg ← node.aliveMsgFromDiffOrg discovery signed
      if fromDiffOrg && !hasExternalEndpoint discovery peer.pkiID then
        sendAndFilterSecrets discovery rest signed
      else
        let signed :=
          if isInMyorg node.advisor node.selfOrg discovery.idMapper peer.pkiID
          then signed
          else omitSecret signed
        let handed ← sendAndFilterSecrets discovery rest signed
        .ok ({ idMapper := discovery.idMapper, peer, signed } :: handed)

/-- The last step of gossiping, which takes alive messages only. -/
def gossipAlive (discovery : GossipDiscovery) (signed : SignedGossipMessage)
    (peers : List RemotePeer) : Outcome Empty (List Handed) :=
  if signed.getAliveMsg = none then .ok [] else node.sendAndFilterSecrets discovery peers signed

/-! ## The disclosure policy -/

def orgOf (idMapper : Mapper) (pkiID : Slice) : Bytes :=
  (getOrgOfPeer node.advisor idMapper pkiID).bytes

section

variable (idMapper : Mapper) (remotePeer : NetworkMember) (signed : SignedGossipMessage)

/-- Whether a remote peer may see an alive message. -/
def shouldBeDisclosed : Outcome Empty Bool :=
  let remotePeerOrg := node.orgOf idMapper remotePeer.pkiId
  if remotePeerOrg = [] then
    .ok false
  else do
    let alive ← deref signed.getAliveMsg
    let member ← deref alive.membership
    let org := node.orgOf idMapper member.pkiId
    if org = [] then
      .ok false
    else if ¬ (remotePeerOrg = org ∨ node.selfOrg.bytes = org) then .ok false
    else .ok (org = remotePeerOrg ∨ member.endpoint ≠ .empty ∧ remotePeer.endpoint ≠ .empty)

/-- The envelope of an alive message for a remote peer. -/
def omitConcealedFields : Envelope :=
  let remotePeerOrg := node.orgOf idMapper remotePeer.pkiId
  if remotePeerOrg = [] then
    signed.envelope
  else if node.selfOrg.bytes ≠ remotePeerOrg then signed.envelope.omitSecret
  else signed.envelope

end

/-! ## Own alive messages -/

/-- The secret with an internal endpoint, if it can be signed. -/
def signSecret (internalEndpoint : GoString) : Option SecretEnvelope :=
  let payload := node.codec.marshalSecret internalEndpoint
  (node.mcs.sign payload).map fun signature => { payload := some payload, signature }

/-- Sign an alive message and attach the internal endpoint if there is one. -/
def signMessage (message : GossipMessage) (internalEndpoint : GoString) :
    Option SignedGossipMessage :=
  (node.codec.sign node.mcs.sign message).map fun signed =>
    if internalEndpoint = .empty then
      signed
    else
      { signed with
        envelope :=
          { signed.envelope with secretEnvelope := node.signSecret internalEndpoint } }

/-- The next alive message of the peer, before it is signed. -/
def nextAliveMessage (discovery : GossipDiscovery) : GossipMessage :=
  { nonce := 0
    tag := .empty
    content := some (.aliveMsg
          { membership :=
              some
                { endpoint := discovery.self.endpoint
                  metadata := discovery.self.metadata
                  pkiId := discovery.self.pkiId }
            timestamp := some
                { incNum := discovery.incTime, seqNum := discovery.seqNum + 1 }
            identity :=
              if node.includeIdentity then node.identity else none }) }

/-- The next alive message of the peer. -/
def createAliveMessage (discovery : GossipDiscovery) (includeInternalEndpoint : Bool) :
    Option SignedGossipMessage :=
  (node.signMessage (node.nextAliveMessage discovery) discovery.self.internalEndpoint).map
    fun signed => if includeInternalEndpoint then signed else omitSecret signed

/-! ## Sending to a peer -/

/--
Send a message to a peer.  The result is what was handed to the communication
layer and the message as it is left: a request that was filtered is signed anew,
but the change of its content stays.
-/
def sendToPeer (idMapper : Mapper) (peer : NetworkMember) (signed : SignedGossipMessage) :
    Outcome Empty (Handed × SignedGossipMessage) :=
  let remotePeer : RemotePeer := { pkiID := peer.pkiId, endpoint := preferredEndpoint peer }
  match signed.message.getMemReq with
  | none => .ok ({ idMapper, peer := remotePeer, signed }, signed)
  | some request =>
    if peer.pkiId.bytes = [] then
      .ok ({ idMapper, peer := remotePeer, signed }, signed)
    else do
      let selfInformation ← deref request.selfInformation
      let selfMsg ← deref (node.codec.toGossipMessage selfInformation)
      let selfInformation := node.omitConcealedFields idMapper peer selfMsg
      let message :=
        { signed.message with
          content := some (.memReq { request with selfInformation := some selfInformation }) }
      .ok
        ({ idMapper, peer := remotePeer
           signed := node.codec.noopSign message },
          { signed with message })

/-! ## Membership responses -/

/-- The envelopes of the messages that a remote peer may see. -/
def disclosedEnvelopes (idMapper : Mapper) (remotePeer : NetworkMember) :
    List SignedGossipMessage → Outcome Empty (List Envelope)
  | [] => .ok []
  | signed :: rest => do
      let disclosed ← node.shouldBeDisclosed idMapper remotePeer signed
      let envelopes ← disclosedEnvelopes idMapper remotePeer rest
      if disclosed then .ok (node.omitConcealedFields idMapper remotePeer signed :: envelopes)
      else .ok envelopes

/-- Answers a request with what may be disclosed. -/
def createMembershipResponse (discovery : GossipDiscovery) (aliveMsg : SignedGossipMessage)
    (targetMember : NetworkMember) :
    Outcome Empty (Option MembershipResponse) := do
  let disclosed ← node.shouldBeDisclosed discovery.idMapper targetMember aliveMsg
  if disclosed = false then
    .ok none
  else
    let deadPeers ← node.disclosedEnvelopes discovery.idMapper targetMember
        discovery.deadMembership.values
    let aliveSnapshot ← node.disclosedEnvelopes discovery.idMapper targetMember
        discovery.aliveMembership.values
    .ok (some
        { alive :=
            aliveSnapshot ++ [node.omitConcealedFields discovery.idMapper targetMember aliveMsg]
          dead := deadPeers })

/-- Answer a membership request; no answer closes the connection. -/
def sendMemResponse (discovery : GossipDiscovery) (targetMember : Member)
    (internalEndpoint : GoString) (nonce : UInt64) :
    Outcome Empty (List Handed) :=
  let targetPeer : NetworkMember :=
    { endpoint := targetMember.endpoint
      metadata := targetMember.metadata
      pkiId := targetMember.pkiId
      internalEndpoint }
  match node.createAliveMessage discovery true with
  | none => .ok []
  | some aliveMsg => do
      let response ← node.createMembershipResponse discovery aliveMsg targetPeer
      match response with
      | none => .ok []
      | some response =>
        let message : GossipMessage := { nonce, tag := .empty, content := some (.memRes response) }
        let (handed, _) ← node.sendToPeer discovery.idMapper targetPeer
            (node.codec.noopSign message)
        .ok [handed]

/-! ## Membership requests -/

/-- Asks a peer for its view. -/
def createMembershipRequest (selfInformation : Envelope) (nonce : UInt64) : GossipMessage :=
  { nonce
    tag := .empty
    content :=
      some (.memReq { selfInformation := some selfInformation, known := [] }) }

/-- Send one message to several peers, one after the other. -/
def sendToPeers : List (Mapper × NetworkMember) → SignedGossipMessage → Outcome Empty (List Handed)
  | [], _ => .ok []
  | (idMapper, peer) :: rest, signed => do
      let (handed, signed) ← node.sendToPeer idMapper peer signed
      let others ← sendToPeers rest signed
      .ok (handed :: others)

/--
Send a membership request: to a dead member, to the members of a synchronization
or, repeatedly, to a peer that is to be connected.
-/
def sendMembershipRequest (discovery : GossipDiscovery) (peers : List (Mapper × NetworkMember))
    (includeInternalEndpoint : Bool) (nonce : UInt64) :
    Outcome Empty (List Handed) :=
  match node.createAliveMessage discovery includeInternalEndpoint with
  | none => .ok []
  | some aliveMsg =>
    node.sendToPeers peers (node.codec.noopSign (createMembershipRequest aliveMsg.envelope nonce))

/-! ## What is handed over -/

/-- The three ways in which alive messages leave the peer. -/
inductive Sending where
  | gossip (signed : SignedGossipMessage) (peers : List RemotePeer)
  | memResponse
      (targetMember : Member) (internalEndpoint : GoString) (nonce : UInt64)
  | memRequest
      (peers : List (Mapper × NetworkMember)) (includeInternalEndpoint : Bool)
      (nonce : UInt64)

/-- What each kind of sending hands over. -/
def send (discovery : GossipDiscovery) : Sending → Outcome Empty (List Handed)
  | .gossip signed peers => node.gossipAlive discovery signed peers
  | .memResponse targetMember internalEndpoint nonce =>
    node.sendMemResponse discovery targetMember internalEndpoint nonce
  | .memRequest peers includeInternalEndpoint nonce =>
    node.sendMembershipRequest discovery peers includeInternalEndpoint nonce

/-! ## Secrets stay inside the organization -/

variable {node} {idMapper : Mapper} {pkiID : Slice}

theorem inOwnOrg_of_isInMyorg
    (inMyorg : isInMyorg node.advisor node.selfOrg idMapper pkiID = true) :
    node.InOwnOrg idMapper pkiID := by
  unfold isInMyorg at inMyorg
  cases pkiID with
  | none => cases inMyorg
  | some name =>
    cases found : getOrgOfPeer node.advisor idMapper (some name) with
    | none =>
      rw [found] at inMyorg
      cases inMyorg
    | some org =>
      rw [found] at inMyorg
      exact ⟨org, found, of_decide_eq_true inMyorg⟩

variable {signed : SignedGossipMessage} {alive : AliveMessage}

variable {discovery : GossipDiscovery} {handedOver : List Handed} {peers : List RemotePeer}

theorem not_exposes_of_sendAndFilterSecrets (named : signed.getAliveMsg = some alive)
    (sends : node.sendAndFilterSecrets discovery peers signed = .ok handedOver) :
    ∀ handed ∈ handedOver, ¬ node.Exposes handed := by
  induction peers generalizing signed handedOver with
  | nil =>
    cases sends
    simp
  | cons peer _ ih =>
    unfold sendAndFilterSecrets at sends
    rcases bind_ok_iff.mp sends with ⟨_, _, sends⟩
    split at sends
    · exact ih named sends
    · rcases bind_ok_iff.mp sends with ⟨_, restSends, sends⟩
      cases sends
      by_cases inMyorg : isInMyorg node.advisor node.selfOrg discovery.idMapper peer.pkiID = true
      · simp only [inMyorg, if_true] at restSends ⊢
        intro handed member
        rcases List.mem_cons.mp member with same | member
        · rw [same]
          exact fun exposes => exposes.1 (inOwnOrg_of_isInMyorg inMyorg)
        · exact ih named restSends handed member
      · simp only [inMyorg, Bool.false_eq_true, if_false] at restSends ⊢
        have stillNamed : (omitSecret signed).getAliveMsg = some alive := named
        intro handed member
        rcases List.mem_cons.mp member with same | member
        · rw [same]
          rintro ⟨_, carries⟩
          simp [CarriesSecret, aliveEnvelopes, stillNamed] at carries
          exact carries rfl
        · exact ih stillNamed restSends handed member

theorem not_exposes_of_gossipAlive
    (sends : node.gossipAlive discovery signed peers = .ok handedOver) :
    ∀ handed ∈ handedOver, ¬ node.Exposes handed := by
  unfold gossipAlive at sends
  cases named : signed.getAliveMsg with
  | none =>
    rw [if_pos named] at sends
    cases sends
    simp
  | some _ =>
    rw [if_neg (by simp [named])] at sends
    exact not_exposes_of_sendAndFilterSecrets named sends

theorem ne_orgOf_of_not_inOwnOrg (known : node.orgOf idMapper pkiID ≠ [])
    (foreign : ¬ node.InOwnOrg idMapper pkiID) :
    node.selfOrg.bytes ≠ node.orgOf idMapper pkiID := by
  intro same
  apply foreign
  unfold orgOf at known same
  cases found : getOrgOfPeer node.advisor idMapper pkiID with
  | none =>
    rw [found] at known
    exact absurd rfl known
  | some org =>
    rw [found] at same
    exact ⟨org, found, same⟩

variable {remotePeer : NetworkMember}

section

variable (known : node.orgOf idMapper remotePeer.pkiId ≠ [])
  (foreign : ¬ node.InOwnOrg idMapper remotePeer.pkiId)
include known foreign

theorem secretEnvelope_omitConcealedFields (signed : SignedGossipMessage) :
    (node.omitConcealedFields idMapper remotePeer signed).secretEnvelope = none := by
  simp only [omitConcealedFields, known, ne_orgOf_of_not_inOwnOrg known foreign, if_false, ne_eq,
    not_false_eq_true, if_true, Envelope.secretEnvelope_omitSecret]

theorem secretEnvelope_of_disclosedEnvelopes {messages : List SignedGossipMessage}
    {envelopes : List Envelope}
    (discloses : node.disclosedEnvelopes idMapper remotePeer messages = .ok envelopes) :
    ∀ envelope ∈ envelopes, envelope.secretEnvelope = none := by
  induction messages generalizing envelopes with
  | nil =>
    cases discloses
    simp
  | cons signed _ ih =>
    unfold disclosedEnvelopes at discloses
    rcases bind_ok_iff.mp discloses with ⟨_, _, discloses⟩
    rcases bind_ok_iff.mp discloses with ⟨_, restDiscloses, discloses⟩
    have concealed := ih restDiscloses
    split at discloses
    · cases discloses
      rw [List.forall_mem_cons]
      exact ⟨secretEnvelope_omitConcealedFields known foreign signed, concealed⟩
    · cases discloses
      exact concealed

end

variable {aliveMsg : SignedGossipMessage}

theorem secretEnvelope_of_createMembershipResponse
    {targetMember : NetworkMember} {response : MembershipResponse}
    (foreign : ¬ node.InOwnOrg discovery.idMapper targetMember.pkiId)
    (creates : node.createMembershipResponse discovery aliveMsg targetMember =
        .ok (some response)) :
    ∀ envelope ∈ response.alive ++ response.dead, envelope.secretEnvelope = none := by
  unfold createMembershipResponse at creates
  rcases bind_ok_iff.mp creates with ⟨disclosed, sieve, creates⟩
  cases disclosed with
  | false => simp at creates
  | true =>
    have known : node.orgOf discovery.idMapper targetMember.pkiId ≠ [] := by
      intro unknown
      simp [shouldBeDisclosed, unknown] at sieve
    simp only [Bool.true_eq_false, if_false] at creates
    rcases bind_ok_iff.mp creates with ⟨dead, deadRun, creates⟩
    rcases bind_ok_iff.mp creates with ⟨alive, aliveRun, creates⟩
    cases creates
    simp only [List.forall_mem_append, List.forall_mem_singleton]
    exact ⟨⟨secretEnvelope_of_disclosedEnvelopes known foreign aliveRun,
        secretEnvelope_omitConcealedFields known foreign aliveMsg⟩,
        secretEnvelope_of_disclosedEnvelopes known foreign deadRun⟩

variable {nonce : UInt64}

theorem not_exposes_of_sendMemResponse {targetMember : Member} {internalEndpoint : GoString}
    (keeps : KeepsSecrets node.codec)
    (sends : node.sendMemResponse discovery targetMember internalEndpoint nonce = .ok handedOver) :
    ∀ handed ∈ handedOver, ¬ node.Exposes handed := by
  unfold sendMemResponse at sends
  cases created : node.createAliveMessage discovery true with
  | none =>
    simp only [created] at sends
    cases sends
    simp
  | some _ =>
    simp only [created] at sends
    rcases bind_ok_iff.mp sends with ⟨response, creates, sends⟩
    cases response with
    | none =>
      cases sends
      simp
    | some response =>
      cases sends
      rw [List.forall_mem_singleton]
      rintro ⟨foreign, carries⟩
      rw [carriesSecret_noopSign_iff keeps rfl] at carries
      rcases carries with ⟨envelope, member, secret⟩
      exact secret (secretEnvelope_of_createMembershipResponse foreign creates envelope member)

/-! ## When requests keep the secret -/

variable (node)

/--
The internal endpoint is included and is not empty, and both the secret and the
alive message can be signed.
-/
structure AttachesSecret (discovery : GossipDiscovery) (includeInternalEndpoint : Bool) : Prop where
  included : includeInternalEndpoint = true
  endpoint : discovery.self.internalEndpoint ≠ .empty
  secret : node.mcs.sign (node.codec.marshalSecret discovery.self.internalEndpoint) ≠ none
  message : node.mcs.sign (node.codec.marshalGossipMessage (node.nextAliveMessage discovery)) ≠ none

/-- The filter takes the secret off a request to the peer. -/
def Strips (idMapper : Mapper) (peer : NetworkMember) : Prop :=
  peer.pkiId.bytes ≠ [] ∧ node.orgOf idMapper peer.pkiId ≠ [] ∧
    node.selfOrg.bytes ≠ node.orgOf idMapper peer.pkiId

instance (idMapper : Mapper) (peer : NetworkMember) : Decidable (node.Strips idMapper peer) :=
  inferInstanceAs (Decidable (_ ∧ _ ∧ _))

/--
Every peer that is not in the own organization has a PKI-ID, and its organization
is known unless the secret is gone when the request is sent to it.
-/
def Covered : Bool → List (Mapper × NetworkMember) → Prop
  | _, [] => True
  | stripped, (idMapper, peer) :: rest =>
    (¬ node.InOwnOrg idMapper peer.pkiId → peer.pkiId.bytes ≠ [] ∧
        (stripped = true ∨ node.orgOf idMapper peer.pkiId ≠ [])) ∧
      Covered (stripped || node.Strips idMapper peer) rest

variable {node}

/-- A request as it is after it was filtered or not. -/
def requestAfter (node : Node) (selfInformation : Envelope) (nonce : UInt64)
    (stripped : Bool) : SignedGossipMessage :=
  { envelope :=
      (node.codec.noopSign (createMembershipRequest selfInformation nonce)).envelope
    message := createMembershipRequest
        (if stripped then selfInformation.omitSecret else selfInformation)
        nonce }

theorem hasSecret_createMembershipRequest_iff (selfInformation : Envelope) (nonce : UInt64) :
    HasSecret (createMembershipRequest selfInformation nonce) ↔
      selfInformation.secretEnvelope ≠ none := by
  simp [HasSecret, aliveEnvelopesIn, createMembershipRequest]

variable {selfInformation : Envelope}

theorem carriesSecret_requestAfter_iff (keeps : KeepsSecrets node.codec) (stripped : Bool) :
    CarriesSecret node.codec (node.requestAfter selfInformation nonce stripped) ↔
      selfInformation.secretEnvelope ≠ none := by
  rw [← hasSecret_createMembershipRequest_iff selfInformation nonce,
    ← carriesSecret_noopSign_iff keeps rfl]
  rfl

theorem omitConcealedFields_eq {peer : NetworkMember} (hasPkiId : peer.pkiId.bytes ≠ []) :
    node.omitConcealedFields idMapper peer signed =
      if node.Strips idMapper peer then signed.envelope.omitSecret
      else signed.envelope := by
  unfold omitConcealedFields
  by_cases unknown : node.orgOf idMapper peer.pkiId = []
  · simp [Strips, unknown]
  · by_cases same : node.selfOrg.bytes = node.orgOf idMapper peer.pkiId
    · simp [Strips, same]
    · simp [Strips, unknown, same, hasPkiId]

section

variable {nonce : UInt64} {stripped : Bool} {idMapper : Mapper} {peer : NetworkMember}

variable {message : GossipMessage}

theorem sendToPeer_of_pkiId_ne_nil
    (decodes : node.codec.unmarshalGossipMessage selfInformation.payload.bytes = some message)
    (hasPkiId : peer.pkiId.bytes ≠ []) :
    node.sendToPeer idMapper peer (node.requestAfter selfInformation nonce stripped) = .ok
        ({ idMapper
           peer := { pkiID := peer.pkiId, endpoint := preferredEndpoint peer }
           signed := node.codec.noopSign (node.requestAfter selfInformation nonce
                (stripped || node.Strips idMapper peer)).message },
          node.requestAfter selfInformation nonce (stripped || node.Strips idMapper peer)) := by
  have payload : (if stripped then selfInformation.omitSecret
        else selfInformation).payload = selfInformation.payload := by
    cases stripped <;> rfl
  have filtered : (if node.Strips idMapper peer then
          (if stripped then selfInformation.omitSecret else selfInformation).omitSecret
        else
          (if stripped then selfInformation.omitSecret else selfInformation)) =
        if (stripped || node.Strips idMapper peer) = true then selfInformation.omitSecret
        else selfInformation := by
    by_cases strips : node.Strips idMapper peer <;> cases stripped <;>
      simp [strips, Envelope.omitSecret]
  have decoded : node.codec.toGossipMessage
          (if stripped then selfInformation.omitSecret else selfInformation) =
        some
          { envelope :=
              if stripped then selfInformation.omitSecret else selfInformation
            message } := by
    rw [GossipCodec.toGossipMessage, payload, decodes]
    rfl
  unfold sendToPeer requestAfter createMembershipRequest
  simp only [GossipMessage.getMemReq, hasPkiId, if_false, deref_some,
    ok_bind, decoded, omitConcealedFields_eq hasPkiId, filtered]

theorem exists_of_sendToPeer (keeps : KeepsSecrets node.codec)
    (decodes : node.codec.unmarshalGossipMessage selfInformation.payload.bytes = some message) :
    ∃ handed, node.sendToPeer idMapper peer (node.requestAfter selfInformation nonce stripped) = .ok
          (handed, node.requestAfter selfInformation nonce
              (stripped || node.Strips idMapper peer)) ∧
        (¬ node.Exposes handed ↔ (selfInformation.secretEnvelope ≠ none →
            ¬ node.InOwnOrg idMapper peer.pkiId → peer.pkiId.bytes ≠ [] ∧
                (stripped = true ∨ node.orgOf idMapper peer.pkiId ≠ []))) := by
  by_cases hasPkiId : peer.pkiId.bytes = []
  · have keptSecret : ¬ node.Strips idMapper peer := fun strips => strips.1 hasPkiId
    simp only [sendToPeer, hasPkiId, if_true, keptSecret, decide_false, Bool.or_false]
    refine ⟨_, rfl, ?_⟩
    simp only [Exposes, carriesSecret_requestAfter_iff keeps]
    grind
  · refine ⟨_, sendToPeer_of_pkiId_ne_nil decodes hasPkiId, ?_⟩
    have carries : CarriesSecret node.codec (node.codec.noopSign
              (node.requestAfter selfInformation nonce
                (stripped || node.Strips idMapper peer)).message) ↔
          selfInformation.secretEnvelope ≠ none ∧
            ¬ (stripped = true ∨ node.Strips idMapper peer) := by
      rw [carriesSecret_noopSign_iff keeps rfl]
      unfold requestAfter
      rw [hasSecret_createMembershipRequest_iff]
      by_cases strips : node.Strips idMapper peer <;> cases stripped <;> simp [strips]
    have strips : ¬ node.InOwnOrg idMapper peer.pkiId → (node.Strips idMapper peer ↔
            node.orgOf idMapper peer.pkiId ≠ []) := by
      intro foreign
      constructor
      · intro strips
        exact strips.2.1
      · intro known
        exact ⟨hasPkiId, known, ne_orgOf_of_not_inOwnOrg known foreign⟩
    simp only [Exposes, carries]
    grind

/--
A request is concealed exactly if its peers are covered or it has no secret.
-/
theorem exists_of_sendToPeers {peers : List (Mapper × NetworkMember)}
    (keeps : KeepsSecrets node.codec)
    (decodes : node.codec.unmarshalGossipMessage selfInformation.payload.bytes = some message) :
    ∃ handedOver, node.sendToPeers peers (node.requestAfter selfInformation nonce stripped) =
        .ok handedOver ∧
        ((∀ handed ∈ handedOver, ¬ node.Exposes handed) ↔ (selfInformation.secretEnvelope ≠ none →
            node.Covered stripped peers)) := by
  induction peers generalizing stripped with
  | nil => exact ⟨[], rfl, by simp [Covered]⟩
  | cons entry _ ih =>
    rcases entry with ⟨idMapper, peer⟩
    have first := @exists_of_sendToPeer node selfInformation nonce stripped idMapper peer
        message keeps decodes
    rcases first with ⟨handed, sends, concealed⟩
    rcases @ih (stripped || node.Strips idMapper peer) with ⟨others, restSends, restConcealed⟩
    refine ⟨handed :: others, ?_, ?_⟩
    · simp only [sendToPeers, sends, restSends, ok_bind]
    · rw [List.forall_mem_cons, concealed, restConcealed, ← imp_and]
      rfl

end

theorem exists_payload_of_createAliveMessage {includeInternalEndpoint : Bool}
    (creates : node.createAliveMessage discovery includeInternalEndpoint = some aliveMsg) :
    ∃ message, aliveMsg.envelope.payload = some (node.codec.marshalGossipMessage message) := by
  simp only [createAliveMessage, signMessage, GossipCodec.sign,
    Option.map_map, Option.map_eq_some_iff] at creates
  rcases creates with ⟨_, _, same⟩
  rw [← same]
  simp only [Function.comp_apply]
  split <;> split <;> exact ⟨_, rfl⟩

/-- The alive message of a request is created with a secret. -/
theorem attachesSecret_iff {includeInternalEndpoint : Bool} :
    node.AttachesSecret discovery includeInternalEndpoint ↔
      ∃ aliveMsg, node.createAliveMessage discovery includeInternalEndpoint = some aliveMsg ∧
        aliveMsg.envelope.secretEnvelope ≠ none := by
  simp only [createAliveMessage, signMessage, GossipCodec.sign, Option.map_map,
    Option.map_eq_some_iff, Function.comp_apply]
  constructor
  · rintro ⟨rfl, endpoint, secret, message⟩
    rcases Option.ne_none_iff_exists'.mp message with ⟨signature, signs⟩
    refine ⟨_, ⟨signature, signs, rfl⟩, ?_⟩
    simpa [endpoint, signSecret] using secret
  · rintro ⟨_, ⟨signature, signs, rfl⟩, attached⟩
    cases includeInternalEndpoint with
    | false => exact absurd rfl attached
    | true =>
      by_cases endpoint : discovery.self.internalEndpoint = .empty
      · simp [endpoint] at attached
      · refine ⟨rfl, endpoint, ?_, by rw [signs]; exact Option.some_ne_none _⟩
        simpa [endpoint, signSecret] using attached

theorem sendMembershipRequest_conceals_iff {peers : List (Mapper × NetworkMember)}
    {includeInternalEndpoint : Bool} (keeps : KeepsSecrets node.codec) :
    (∀ handedOver, node.sendMembershipRequest discovery peers includeInternalEndpoint nonce =
          .ok handedOver →
        ∀ handed ∈ handedOver, ¬ node.Exposes handed) ↔
      (node.AttachesSecret discovery includeInternalEndpoint → node.Covered false peers) := by
  rw [attachesSecret_iff]
  unfold sendMembershipRequest
  cases created : node.createAliveMessage discovery includeInternalEndpoint with
  | none => simp
  | some aliveMsg =>
    rcases exists_payload_of_createAliveMessage created with ⟨message, payload⟩
    rcases keeps message with ⟨decoded, decodes, _⟩
    have selfDecodes : node.codec.unmarshalGossipMessage aliveMsg.envelope.payload.bytes =
          some decoded := by
      rw [payload]
      exact decodes
    have sent := @exists_of_sendToPeers node aliveMsg.envelope nonce false decoded peers
        keeps selfDecodes
    rcases sent with ⟨handedOver, sends, concealed⟩
    have same : node.requestAfter aliveMsg.envelope nonce false = node.codec.noopSign
            (createMembershipRequest aliveMsg.envelope nonce) :=
      rfl
    rw [same] at sends
    simp only [sends, Outcome.ok.injEq, forall_eq', concealed, Option.some.injEq, exists_eq_left']

variable (node)

/--
The condition under which the secret stays inside the organization.  It is only
on membership requests with a secret.
-/
def Conceals (discovery : GossipDiscovery) : Sending → Prop
  | .gossip _ _ => True
  | .memResponse _ _ _ => True
  | .memRequest peers includeInternalEndpoint _ =>
    node.AttachesSecret discovery includeInternalEndpoint → node.Covered false peers

/--
No alive message with a secret is handed over for a peer that is not known to be
in the own organization, exactly under the condition.
-/
theorem secrets_stay_inside_iff (keeps : KeepsSecrets node.codec) (discovery : GossipDiscovery)
    (sending : Sending) :
    (∀ handedOver, node.send discovery sending = .ok handedOver →
      ∀ handed ∈ handedOver, ¬ node.Exposes handed) ↔
      node.Conceals discovery sending := by
  cases sending with
  | gossip _ peers =>
    refine iff_of_true ?_ trivial
    intro handedOver sends
    exact not_exposes_of_gossipAlive sends
  | memResponse _ _ nonce =>
    refine iff_of_true ?_ trivial
    intro handedOver sends
    exact not_exposes_of_sendMemResponse keeps sends
  | memRequest peers _ nonce => exact sendMembershipRequest_conceals_iff keeps

end Node

/-! ## A request to a peer whose identity was purged -/

namespace Sample

open Protos (field)

def self : NetworkMember := ⟨⟨[0x70, 9]⟩, none, some [9], ⟨[0x71, 9]⟩⟩

def discovery : GossipDiscovery := newDiscoveryService self 5 ∅

def aliveMessage : GossipMessage :=
  ⟨0, .empty, some (.aliveMsg ⟨some ⟨⟨[0x70, 9]⟩, none, some [9]⟩, some ⟨5, 1⟩, none⟩)⟩

def aliveBytes : Bytes :=
  [0x18, 1] ++ field 5 (field 1 (field 1 [0x70, 9] ++ field 3 [9]) ++
        field 2 [0x08, 5, 0x10, 1])

def secretBytes : Bytes := field 1 [0x71, 9]

/-- The alive message with its secret, both signed. -/
def selfInformation : Envelope :=
  ⟨some aliveBytes, some [0x51], some ⟨some secretBytes, some [0x51]⟩⟩

def request : GossipMessage := Node.createMembershipRequest selfInformation 0

def strippedRequest : GossipMessage :=
  Node.createMembershipRequest selfInformation.omitSecret 0

def strippedRequestBytes : Bytes :=
  [0x18, 1] ++ field 6 (field 1 (field 1 aliveBytes ++ field 2 [0x51]))

def requestBytes : Bytes :=
  [0x18, 1] ++ field 6 (field 1 (field 1 aliveBytes ++ field 2 [0x51] ++
          field 3 (field 1 secretBytes ++ field 2 [0x51])))

/-- The encodings of the messages that are sent here. -/
def codec : GossipCodec where
  unmarshalGossipMessage bytes := if bytes = aliveBytes then
      some aliveMessage
    else if bytes = requestBytes then
      some request
    else if bytes = strippedRequestBytes then
      some strippedRequest
    else if bytes = [] then some ⟨0, .undefined, none⟩
    else none
  marshalGossipMessage message := if message = aliveMessage then
      aliveBytes
    else if HasSecret message then
      requestBytes
    else if message = strippedRequest then strippedRequestBytes
    else []
  unmarshalSecret bytes :=
    if bytes = secretBytes then some ⟨[0x71, 9]⟩ else none
  marshalSecret _ := secretBytes

theorem keepsSecrets : KeepsSecrets codec := by
  intro message
  by_cases isAlive : message = aliveMessage
  · rw [isAlive]
    exact ⟨aliveMessage, by decide +kernel, Iff.rfl⟩
  · by_cases secret : HasSecret message
    · refine ⟨request, ?_, iff_of_true (by decide +kernel) secret⟩
      simp only [codec, isAlive, secret, if_true, if_false]
      decide +kernel
    · by_cases isStripped : message = strippedRequest
      · rw [isStripped]
        exact ⟨strippedRequest, by decide +kernel, Iff.rfl⟩
      · refine ⟨⟨0, .undefined, none⟩, ?_, iff_of_false (by decide +kernel) secret⟩
        simp only [codec, isAlive, secret, isStripped, if_false]
        decide +kernel

/-- The peer is in the organization `A`. -/
def node : Node where
  codec := codec
  mcs :=
    { validateIdentity := fun _ => true
      getPKIidOfCert := fun identity => some identity.tail
      sign := fun _ => some (some [0x51])
      verify := fun _ signature _ => signature = [0x51] }
  advisor := { orgByPeerIdentity := fun identity => some (identity.take 1) }
  selfOrg := some [0x41]
  identity := some [0x41, 9]
  includeIdentity := false

def member (number : UInt8) : NetworkMember := ⟨⟨[0x70, number]⟩, none, some [number], .empty⟩

/-- The identity of peer 3, which is in the organization `B`. -/
def idMapper : Mapper := (∅ : Mapper).insert (key (some [3])) [0x42, 3]

end Sample

theorem secrets_stay_inside_iff_foreign :
    ∃ handedOver, Sample.node.send Sample.discovery
          (.memRequest [(Sample.idMapper, Sample.member 3)] true 0) =
        .ok handedOver ∧
        ∀ handed ∈ handedOver, ¬ Sample.node.Exposes handed := by
  have sends : ∃ handedOver, Sample.node.send Sample.discovery
        (.memRequest [(Sample.idMapper, Sample.member 3)] true 0) = .ok handedOver ∧ True := by
    decide +kernel
  rcases sends with ⟨handedOver, sent, _⟩
  refine ⟨handedOver, sent, ?_⟩
  apply (Node.secrets_stay_inside_iff Sample.node Sample.keepsSecrets
      Sample.discovery _).mpr _ handedOver sent
  intro _
  refine ⟨fun _ => ⟨by decide, .inr ?_⟩, trivial⟩
  decide +kernel

/--
A membership request to a dead member whose identity is no longer known is handed
over with the internal endpoint.
-/
theorem unknown_peer_is_sent_secret :
    ∃ handedOver, Sample.node.send Sample.discovery (.memRequest [(∅, Sample.member 2)] true 0) =
        .ok handedOver ∧
        ∃ handed ∈ handedOver, Sample.node.Exposes handed := by
  have attaches : Sample.node.AttachesSecret Sample.discovery true :=
    ⟨rfl, by decide, Option.some_ne_none _, Option.some_ne_none _⟩
  have concealed_iff := @Node.sendMembershipRequest_conceals_iff Sample.node Sample.discovery
      0 [(∅, Sample.member 2)] true Sample.keepsSecrets
  have exposed : ¬ (Sample.node.AttachesSecret Sample.discovery true →
        Sample.node.Covered false [(∅, Sample.member 2)]) := by
    intro covered
    have unknown : ¬ Sample.node.InOwnOrg ∅ (Sample.member 2).pkiId := by
      rintro ⟨_, found, _⟩
      cases found
    rcases ((covered attaches).1 unknown).2 with stripped | known
    · cases stripped
    · exact known (by decide +kernel)
  rw [← concealed_iff] at exposed
  push Not at exposed
  exact exposed

end Fabric.Gossip.Disclosure
