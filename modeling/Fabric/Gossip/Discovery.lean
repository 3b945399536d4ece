import Fabric.Gossip.Identity
import Fabric.Gossip.MessageStore

/-!
# The discovery component

The tables of the members that a peer knows of, and what the component does with
a message that the gossip layer forwards to it.  Every dereference of the source
that the message decides about is a step that can panic.

One call runs at a time and nothing else changes the tables while it does.  The
times at which messages were seen are left out; when members and messages expire
is not determined.
-/

namespace Fabric.Gossip.Discovery

open Library ByteString Message Identity Outcome
open Gossip.MessageStore (InvalidationResult)

/-! ## Tables -/

/-- A peer as the others know it. -/
structure NetworkMember where
  endpoint : GoString
  metadata : Slice
  pkiId : Slice
  internalEndpoint : GoString
deriving DecidableEq

/-- The time of a message of a peer. -/
structure Timestamp where
  incTime : UInt64
  seqNum : UInt64
deriving DecidableEq

def Timestamp.ofPeerTime (time : PeerTime) : Timestamp :=
  { incTime := time.incNum, seqNum := time.seqNum }

def Timestamp.before (last : Timestamp) (time : PeerTime) : Bool :=
  (last.incTime = time.incNum ∧ last.seqNum < time.seqNum) ∨ last.incTime < time.incNum

/-- The discovery component with the identity mapper that it validates with. -/
structure GossipDiscovery where
  self : NetworkMember
  incTime : UInt64
  seqNum : UInt64
  idMapper : Mapper
  deadLastTS : Std.ExtTreeMap GoString Timestamp
  aliveLastTS : Std.ExtTreeMap GoString Timestamp
  id2Member : Std.ExtTreeMap GoString NetworkMember
  aliveMembership : Std.ExtTreeMap GoString SignedGossipMessage
  deadMembership : Std.ExtTreeMap GoString SignedGossipMessage
  msgStore : List SignedGossipMessage

/-- A peer that knows no other. -/
def newDiscoveryService (self : NetworkMember) (incTime : UInt64) (idMapper : Mapper) :
    GossipDiscovery :=
  { self, incTime, seqNum := 0, idMapper
    deadLastTS := ∅, aliveLastTS := ∅, id2Member := ∅
    aliveMembership := ∅, deadMembership := ∅
    msgStore := [] }

/-! ## The store of alive messages -/

/-- Which of two messages is newer. -/
def compareTimestamps (thisTS thatTS : Option PeerTime) : Outcome Empty InvalidationResult := do
  let thisTS ← deref thisTS
  let thatTS ← deref thatTS
  if thisTS.incNum = thatTS.incNum then
    if thatTS.seqNum < thisTS.seqNum then .ok .invalidates else .ok .invalidated
  else if thisTS.incNum < thatTS.incNum then .ok .invalidated
  else .ok .invalidates

/-- Compares messages of one member only. -/
def aliveInvalidationPolicy
    (thisMsg thatMsg : AliveMessage) : Outcome Empty InvalidationResult := do
  let thisMember ← deref thisMsg.membership
  let thatMember ← deref thatMsg.membership
  if thisMember.pkiId.bytes ≠ thatMember.pkiId.bytes then .ok .noAction
  else compareTimestamps thisMsg.timestamp thatMsg.timestamp

/-- The comparison of two messages, for those that the store can hold. -/
def invalidationPolicy (thisMsg thatMsg : SignedGossipMessage) : Outcome Empty InvalidationResult :=
  match thisMsg.getAliveMsg, thatMsg.getAliveMsg with
  | some thisMsg, some thatMsg => aliveInvalidationPolicy thisMsg thatMsg
  | _, _ => .ok .noAction

/-- Whether the store would take a message; it panics unless it is alive. -/
def checkValid (discovery : GossipDiscovery) (signed : SignedGossipMessage) :
    Outcome Empty Bool := do
  let _ ← deref signed.getAliveMsg
  MessageStore.checkValid invalidationPolicy signed discovery.msgStore

/-- Stores an alive message. -/
def addToStore (discovery : GossipDiscovery) (signed : SignedGossipMessage) :
    Outcome Empty (Bool × GossipDiscovery) := do
  let _ ← deref signed.getAliveMsg
  let (added, msgStore) ← MessageStore.add invalidationPolicy signed discovery.msgStore
  .ok (added, { discovery with msgStore })

/-! ## Learning about members -/

section

variable (codec : GossipCodec) (mcs : MessageCryptoService)

/-- The internal endpoint in the secret of a message, or the given one. -/
def internalEndpointOr (signed : SignedGossipMessage) (endpoint : GoString) : GoString :=
  match signed.envelope.secretEnvelope with
  | some secret => codec.internalEndpoint secret
  | none => endpoint

section

variable (discovery : GossipDiscovery)

/-- The internal endpoint that was known of a member. -/
def knownInternalEndpoint (pkiID : Slice) : Option GoString :=
  discovery.id2Member[key pkiID]?.map NetworkMember.internalEndpoint

/-- Learns a live member. -/
def learnAliveMember (signed : SignedGossipMessage) : Outcome Empty GossipDiscovery := do
  let alive ← deref signed.getAliveMsg
  let member ← deref alive.membership
  if member.pkiId.bytes = discovery.self.pkiId.bytes then
    .ok discovery
  else
    let time ← deref alive.timestamp
    .ok
      { discovery with
        aliveLastTS := discovery.aliveLastTS.insert (key member.pkiId) (.ofPeerTime time)
        aliveMembership := discovery.aliveMembership.insert (key member.pkiId) signed }

/-- Learns a dead member. -/
def learnDeadMember (signed : SignedGossipMessage) : Outcome Empty GossipDiscovery := do
  let alive ← deref signed.getAliveMsg
  let member ← deref alive.membership
  if member.pkiId.bytes = discovery.self.pkiId.bytes then
    .ok discovery
  else
    let time ← deref alive.timestamp
    .ok
      { discovery with
        deadLastTS := discovery.deadLastTS.insert (key member.pkiId) (.ofPeerTime time)
        deadMembership := discovery.deadMembership.insert (key member.pkiId) signed }

/--
What `learnNewMembers` enters of a member in any case.  That the message is an
alive one is known by then.
-/
def updateMember (signed : SignedGossipMessage) : Outcome Empty GossipDiscovery :=
  match signed.getAliveMsg with
  | none => .ok discovery
  | some alive => do
      let member ← deref alive.membership
      let internalEndpoint := (knownInternalEndpoint discovery member.pkiId).getD
          (internalEndpointOr codec signed .empty)
      .ok
        { discovery with
          id2Member := discovery.id2Member.insert (key member.pkiId)
              { endpoint := member.endpoint
                metadata := member.metadata
                pkiId := member.pkiId
                internalEndpoint } }

/-- Learns the members a response names. -/
def learnNewMembers (aliveMembers deadMembers : List SignedGossipMessage) :
    Outcome Empty GossipDiscovery := do
  let discovery ← aliveMembers.foldlM learnAliveMember discovery
  let discovery ← deadMembers.foldlM learnDeadMember discovery
  (aliveMembers ++ deadMembers).foldlM (updateMember codec) discovery

/--
Update what is known of a member.  The message that is replaced is dereferenced
also where there is none.
-/
def learnExistingMember (signed : SignedGossipMessage) : Outcome Empty GossipDiscovery := do
  let alive ← deref signed.getAliveMsg
  let member ← deref alive.membership
  let known ← deref discovery.id2Member[key member.pkiId]?
  let discovery :=
    { discovery with
      id2Member := discovery.id2Member.insert (key member.pkiId)
          { known with
            endpoint := member.endpoint
            metadata := member.metadata
            internalEndpoint := internalEndpointOr codec signed known.internalEndpoint } }
  if key member.pkiId ∈ discovery.deadLastTS ∨ key member.pkiId ∉ discovery.aliveLastTS then
    .ok discovery
  else
    let time ← deref alive.timestamp
    let _ ← deref discovery.aliveMembership[key member.pkiId]?
    .ok
      { discovery with
        aliveLastTS := discovery.aliveLastTS.insert (key member.pkiId) (.ofPeerTime time)
        aliveMembership := discovery.aliveMembership.insert (key member.pkiId) signed }

/-- Enter a member that was taken for dead as alive. -/
def resurrectMember (signed : SignedGossipMessage)
    (member : Member) (time : PeerTime) : GossipDiscovery :=
  { discovery with
    aliveLastTS :=
      discovery.aliveLastTS.insert (key member.pkiId) (.ofPeerTime time)
    id2Member := discovery.id2Member.insert (key member.pkiId)
        { endpoint := member.endpoint
          metadata := member.metadata
          pkiId := member.pkiId
          internalEndpoint := internalEndpointOr codec signed
              ((knownInternalEndpoint discovery member.pkiId).getD .empty) }
    deadLastTS := discovery.deadLastTS.erase (key member.pkiId)
    deadMembership := discovery.deadMembership.erase (key member.pkiId)
    aliveMembership :=
      discovery.aliveMembership.insert (key member.pkiId) signed }

end

/-! ## Handling messages -/

section

variable (discovery : GossipDiscovery) (signed : SignedGossipMessage)

/-- What an authentic message about another peer does. -/
def updateAliveness (alive : AliveMessage) (member : Member) : Outcome Empty GossipDiscovery :=
  if key member.pkiId ∉ discovery.id2Member then
    learnNewMembers codec discovery [signed] []
  else
    match discovery.aliveLastTS[key member.pkiId]?, discovery.deadLastTS[key member.pkiId]? with
    | none, none => .panic
    | some _, some _ => .panic
    | none, some lastDeadTS => do
        let time ← deref alive.timestamp
        if lastDeadTS.before time then .ok (resurrectMember codec discovery signed member time)
        else .ok discovery
    | some lastAliveTS, none => do
        let time ← deref alive.timestamp
        if lastAliveTS.before time then learnExistingMember codec discovery signed
        else .ok discovery

/-- Handles an alive message. -/
def handleAliveMessage : Outcome Empty GossipDiscovery := do
  let (valid, idMapper) := validateAliveMsg mcs discovery.idMapper signed
  let discovery := { discovery with idMapper }
  if valid = false then
    .ok discovery
  else
    let alive ← deref signed.getAliveMsg
    let member ← deref alive.membership
    if member.pkiId.bytes = discovery.self.pkiId.bytes then .ok discovery
    else updateAliveness codec discovery signed alive member

/-- Handles an alive message the store does not refuse. -/
def handleIfValid : Outcome Empty GossipDiscovery := do
  let valid ← checkValid discovery signed
  if valid then handleAliveMessage codec mcs discovery signed else .ok discovery

end

/--
The online peers of a membership response.  The result also tells whether the
loop came to its end; it returns at the first entry that is no alive message.
-/
def handleAlive : List Envelope → GossipDiscovery → Outcome Empty (Bool × GossipDiscovery)
  | [], discovery => .ok (true, discovery)
  | envelope :: rest, discovery =>
    match codec.toGossipMessage envelope with
    | none => .ok (false, discovery)
    | some signed =>
      if signed.getAliveMsg = none then
        .ok (false, discovery)
      else do
        let discovery ← handleIfValid codec mcs discovery signed
        handleAlive rest discovery

/--
Enter an offline peer that is not known.  The result also tells whether there is
no newer message about it; the loop returns if there is one.
-/
def learnIfNewest (discovery : GossipDiscovery) (signed : SignedGossipMessage) :
    Outcome Empty (Bool × GossipDiscovery) := do
  let newest ← checkValid discovery signed
  if newest = false then
    .ok (false, discovery)
  else
    let alive ← deref signed.getAliveMsg
    let member ← deref alive.membership
    let newDeadMembers :=
      if key member.pkiId ∈ discovery.id2Member then [] else [signed]
    let discovery ← learnNewMembers codec discovery [] newDeadMembers
    .ok (true, discovery)

/--
The offline peers of a membership response.  The log entry about a message that
is not authentic reads the member in it.
-/
def handleDead : List Envelope → GossipDiscovery → Outcome Empty GossipDiscovery
  | [], discovery => .ok discovery
  | envelope :: rest, discovery =>
    match codec.toGossipMessage envelope with
    | none => .ok discovery
    | some signed => do
        let (valid, idMapper) := validateAliveMsg mcs discovery.idMapper signed
        let discovery := { discovery with idMapper }
        if valid = false then
          let _ ← deref signed.getAliveMsg
          handleDead rest discovery
        else
          let (newest, discovery) ← learnIfNewest codec discovery signed
          if newest = false then .ok discovery else handleDead rest discovery

/-- What the component asks of others. -/
inductive Effect where
  | publish (nonce : UInt64)
  | gossip (signed : SignedGossipMessage)
  | sendMemResponse
      (targetMember : Member) (internalEndpoint : GoString) (nonce : UInt64)
deriving DecidableEq

/--
Handle a message from the gossip layer.  The response to a membership request is
sent by another goroutine, which dereferences the member.
-/
def handleMsgFromComm (discovery : GossipDiscovery) (signed : SignedGossipMessage) :
    Outcome Empty (GossipDiscovery × List Effect) :=
  match signed.message.content with
  | some (.memReq request) => do
      let selfInformation ← deref request.selfInformation
      match codec.toGossipMessage selfInformation with
      | none => .ok (discovery, [])
      | some selfInfo =>
        let discovery ← handleIfValid codec mcs discovery selfInfo
        let alive ← deref selfInfo.getAliveMsg
        let member ← deref alive.membership
        .ok (discovery, [.sendMemResponse member (internalEndpointOr codec signed .empty)
              signed.message.nonce])
  | some (.aliveMsg _) => do
      let (added, discovery) ← addToStore discovery signed
      if added = false then
        .ok (discovery, [])
      else
        let discovery ← handleAliveMessage codec mcs discovery signed
        .ok (discovery, [.gossip signed])
  | some (.memRes response) => do
      let (finished, discovery) ← handleAlive codec mcs response.alive discovery
      if finished = false then
        .ok (discovery, [.publish signed.message.nonce])
      else
        let discovery ← handleDead codec mcs response.dead discovery
        .ok (discovery, [.publish signed.message.nonce])
  | some .other => .ok (discovery, [])
  | none => .ok (discovery, [])

end

/-! ## Expiration -/

/-- Move a member that was not heard of from the alive to the dead ones. -/
def expireMember (discovery : GossipDiscovery) (pkiID : Slice) : GossipDiscovery :=
  match discovery.aliveLastTS[key pkiID]? with
  | none => discovery
  | some lastTS =>
    { discovery with
      deadLastTS := discovery.deadLastTS.insert (key pkiID) lastTS
      aliveLastTS := discovery.aliveLastTS.erase (key pkiID)
      deadMembership :=
        match discovery.aliveMembership[key pkiID]? with
        | none => discovery.deadMembership
        | some alive => discovery.deadMembership.insert (key pkiID) alive
      aliveMembership := discovery.aliveMembership.erase (key pkiID) }

/-- Moves members to the dead. -/
def expireDeadMembers (discovery : GossipDiscovery) (dead : List Slice) : GossipDiscovery :=
  dead.foldl expireMember discovery

/-- What the store calls when a message about a member has expired. -/
def forgetMember (discovery : GossipDiscovery) (signed : SignedGossipMessage) :
    Outcome Empty GossipDiscovery :=
  match signed.getAliveMsg with
  | none => .ok discovery
  | some alive => do
      let member ← deref alive.membership
      .ok
        { discovery with
          aliveMembership := discovery.aliveMembership.erase (key member.pkiId)
          deadMembership := discovery.deadMembership.erase (key member.pkiId)
          id2Member := discovery.id2Member.erase (key member.pkiId)
          deadLastTS := discovery.deadLastTS.erase (key member.pkiId)
          aliveLastTS := discovery.aliveLastTS.erase (key member.pkiId) }

end Fabric.Gossip.Discovery
