import Fabric.Protos

/-!
# Messages between peers

The messages of the gossip protocol, with every sub-message that may be absent
from what a peer has sent.  The content of a message is any of those that the
discovery component handles; the others are one constructor without data.
-/

namespace Fabric.Gossip.Message

open Library ByteString

/-! ## Blocks -/

/-- A block with its number. -/
structure Payload where
  seqNum : UInt64
  data : Slice
deriving DecidableEq

/-- A request for a range of blocks. -/
structure RemoteStateRequest where
  startSeqNum : UInt64
  endSeqNum : UInt64
deriving DecidableEq

/-! ## Envelopes -/

/-- The signed internal endpoint of a peer. -/
structure SecretEnvelope where
  payload : Slice
  signature : Slice
deriving DecidableEq

/-- A signed message, with a secret that is signed on its own. -/
structure Envelope where
  payload : Slice
  signature : Slice
  secretEnvelope : Option SecretEnvelope
deriving DecidableEq

namespace Envelope

/-- The envelope without its secret. -/
def omitSecret (envelope : Envelope) : Envelope := { envelope with secretEnvelope := none }

@[simp]
theorem secretEnvelope_omitSecret (envelope : Envelope) :
    envelope.omitSecret.secretEnvelope = none :=
  rfl

end Envelope

/-! ## Membership -/

/-- The data of a member of a channel. -/
structure Member where
  endpoint : GoString
  metadata : Slice
  pkiId : Slice
deriving DecidableEq

/-- When a peer was started, and how many messages it has sent since. -/
structure PeerTime where
  incNum : UInt64
  seqNum : UInt64
deriving DecidableEq

/-- The sign of life of a member. -/
structure AliveMessage where
  membership : Option Member
  timestamp : Option PeerTime
  identity : Slice
deriving DecidableEq

/-- A request for the members that another peer knows. -/
structure MembershipRequest where
  selfInformation : Option Envelope
  known : List Bytes
deriving DecidableEq

/-- The members that a peer knows. -/
structure MembershipResponse where
  alive : List Envelope
  dead : List Envelope
deriving DecidableEq

/-- How a message may be routed. -/
inductive Tag where
  | undefined
  | empty
  | orgOnly
  | chanOnly
  | chanAndOrg
  | chanOrOrg
deriving DecidableEq

/-- What a message is about. -/
inductive Content where
  | aliveMsg (message : AliveMessage)
  | memReq (request : MembershipRequest)
  | memRes (response : MembershipResponse)
  | other
deriving DecidableEq

/-- A message between peers. -/
structure GossipMessage where
  nonce : UInt64
  tag : Tag
  content : Option Content
deriving DecidableEq

namespace GossipMessage

def getAliveMsg (message : GossipMessage) : Option AliveMessage :=
  match message.content with
  | some (.aliveMsg alive) => some alive
  | _ => none

def getMemReq (message : GossipMessage) : Option MembershipRequest :=
  match message.content with
  | some (.memReq request) => some request
  | _ => none

end GossipMessage

/-- A message with the envelope that it came in. -/
structure SignedGossipMessage where
  envelope : Envelope
  message : GossipMessage
deriving DecidableEq

namespace SignedGossipMessage

abbrev getAliveMsg (signed : SignedGossipMessage) : Option AliveMessage :=
  signed.message.getAliveMsg

def isSigned (signed : SignedGossipMessage) : Bool :=
  signed.envelope.payload.isSome && signed.envelope.signature.isSome

/-- Checks both signatures. -/
def verify (signed : SignedGossipMessage) (verifier : Bytes → Bytes → Bool) : Bool :=
  let nonEmptyAndVerified (payload signature : Slice) : Bool :=
    payload.bytes ≠ [] && signature.bytes ≠ [] && verifier signature.bytes payload.bytes
  nonEmptyAndVerified signed.envelope.payload signed.envelope.signature &&
    match signed.envelope.secretEnvelope with
    | none => true
    | some secret => nonEmptyAndVerified secret.payload secret.signature

end SignedGossipMessage

/-! ## Encodings -/

/-- The encodings of the messages. -/
structure GossipCodec where
  unmarshalGossipMessage : Bytes → Option GossipMessage
  marshalGossipMessage : GossipMessage → Bytes
  unmarshalSecret : Bytes → Option GoString
  marshalSecret : GoString → Bytes

namespace GossipCodec

variable (codec : GossipCodec)

def toGossipMessage (envelope : Envelope) : Option SignedGossipMessage :=
  (codec.unmarshalGossipMessage envelope.payload.bytes).map fun message => { envelope, message }

/-- The internal endpoint in a secret, or an empty one if there is none. -/
def internalEndpoint (secret : SecretEnvelope) : GoString :=
  (codec.unmarshalSecret secret.payload.bytes).getD .empty

/-- Sign a message, whose envelope has no secret yet. -/
def sign (signer : Bytes → Option Slice) (message : GossipMessage) : Option SignedGossipMessage :=
  let payload := codec.marshalGossipMessage message
  (signer payload).map fun signature =>
    { envelope := { payload := some payload, signature, secretEnvelope := none }, message }

/-- The message in an envelope with a nil signature. -/
def noopSign (message : GossipMessage) : SignedGossipMessage :=
  { envelope :=
      { payload := some (codec.marshalGossipMessage message)
        signature := none
        secretEnvelope := none }
    message }

end GossipCodec

end Fabric.Gossip.Message
