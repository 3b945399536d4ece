import Fabric.Gossip.Message

/-!
# Identities of peers

Peers are known by their PKI-IDs.  The identity mapper keeps the identities that
were found to belong to one; the signature of an alive message is verified with
the identity that it carries or that the mapper has.
-/

namespace Fabric.Gossip.Identity

open Library ByteString Message

/-- What the peer knows of certificates and signatures. -/
structure MessageCryptoService where
  validateIdentity : Bytes → Bool
  getPKIidOfCert : Bytes → Slice
  sign : Bytes → Option Slice
  verify : Bytes → Bytes → Bytes → Bool

/-! ## The identity mapper -/

abbrev Mapper := Std.ExtTreeMap GoString Bytes

def key (pkiID : Slice) : GoString := ⟨pkiID.bytes⟩

@[simp]
theorem key_eq_key_iff (left right : Slice) : key left = key right ↔ left.bytes = right.bytes := by
  simp [key]

section

variable (mcs : MessageCryptoService)

/-- Associate an identity with its PKI-ID; there is no result if it is refused. -/
def put (idMapper : Mapper) (pkiID identity : Slice) : Option Mapper :=
  match pkiID, identity with
  | some _, some certificate =>
    if mcs.validateIdentity certificate = true ∧
        (mcs.getPKIidOfCert certificate).bytes = pkiID.bytes then
      some (idMapper.insert (key pkiID) certificate)
    else
      none
  | _, _ => none

def get (idMapper : Mapper) (pkiID : Slice) : Slice :=
  idMapper[key pkiID]?

/-! ## Alive messages -/

/-- Whether an alive message is authentic, and the mapper after the check. -/
def validateAliveMsg (idMapper : Mapper) (signed : SignedGossipMessage) : Bool × Mapper :=
  match signed.getAliveMsg with
  | none => (false, idMapper)
  | some alive =>
    match alive.membership with
    | none => (false, idMapper)
    | some member =>
      if member.pkiId = none ∨ signed.isSigned = false then
        (false, idMapper)
      else
        match alive.identity with
        | some identity =>
          match put mcs idMapper member.pkiId alive.identity with
          | none => (false, idMapper)
          | some idMapper => (signed.verify (mcs.verify identity), idMapper)
        | none =>
          match get idMapper member.pkiId with
          | none => (false, idMapper)
          | some identity => (signed.verify (mcs.verify identity), idMapper)

theorem exists_member_of_validateAliveMsg {mcs : MessageCryptoService} {idMapper : Mapper}
    {signed : SignedGossipMessage} (valid : (validateAliveMsg mcs idMapper signed).1 = true) :
    ∃ alive member, signed.getAliveMsg = some alive ∧ alive.membership = some member := by
  unfold validateAliveMsg at valid
  cases found : signed.getAliveMsg with
  | none => simp [found] at valid
  | some alive =>
    cases named : alive.membership with
    | none => simp [found, named] at valid
    | some member => exact ⟨alive, member, rfl, named⟩

end

/-! ## Organizations -/

/-- What the peer knows of organizations. -/
structure SecurityAdvisor where
  orgByPeerIdentity : Bytes → Slice

section

variable (advisor : SecurityAdvisor)

/-- The organization of a peer, if its identity is known. -/
def getOrgOfPeer (idMapper : Mapper) (pkiID : Slice) : Slice :=
  match get idMapper pkiID with
  | none => none
  | some certificate => advisor.orgByPeerIdentity certificate

/-- Whether a peer is known to be in the organization of this one. -/
def isInMyorg (selfOrg : Slice) (idMapper : Mapper) (pkiID : Slice) : Bool :=
  match pkiID, getOrgOfPeer advisor idMapper pkiID with
  | some _, some org => selfOrg.bytes = org
  | _, _ => false

end

end Fabric.Gossip.Identity
