import Fabric.Protos

/-!
# Verification of the signatures of peers

A member of the provider of this peer is verified by that provider.  Any other
identity is verified against the readers of a channel, which is the first one
found whose providers validate the identity.  The channels are in a map, so any
of those that validate the identity may be the first.
-/

namespace Fabric.Peer.VerifySignature

open Library ByteString
open Protos (SignedData)

/-! ## The service -/

section

variable (Reason : Type)

/-- An identity that has been read, with its checks. -/
structure Identity where
  mspIdentifier : GoString
  validate : Except Reason Unit
  verify : Bytes → Slice → Except Reason Unit

/-- The name of a channel and the deserializer of its providers. -/
abbrev Channel :=
  GoString × (Slice → Except Reason (Identity Reason))

/-- The providers, and the policy of the readers of each channel with a manager. -/
structure MessageCryptoService where
  localMSPIdentifier : GoString
  localDeserializer : Slice → Except Reason (Identity Reason)
  channelDeserializers : Std.ExtTreeMap GoString (Slice → Except Reason (Identity Reason))
  applicationReaders : GoString → Option (List SignedData → Except Reason Unit)

/-- The service with the arguments of a call. -/
structure Call extends MessageCryptoService Reason where
  peerIdentity : Slice
  signature : Slice
  message : Bytes

variable {Reason} in
/-- The channels in one of the orders of the map. -/
def Call.channels (call : Call Reason) : List (Channel Reason) :=
  call.channelDeserializers.toList

/-- Why a signature is refused. -/
inductive VerifyError where
  | invalidPeerIdentity
  | noPolicyManager (chainID : GoString)
  | cannotBeValidated (peerIdentity : Slice)
  | reported (reason : Reason)

end

variable {Reason : Type}

section

variable (call : Call Reason)

/-- Look for a channel whose providers validate the identity. -/
def checkManagers :
    List (Channel Reason) → Except (VerifyError Reason) (Identity Reason × GoString)
  | [] => .error (.cannotBeValidated call.peerIdentity)
  | (chainID, mspManager) :: rest =>
    match mspManager call.peerIdentity with
    | .error _ => checkManagers rest
    | .ok identity =>
      match identity.validate with
      | .error _ => checkManagers rest
      | .ok _ => .ok (identity, chainID)

/-- The identity as a member of the local provider, if it is one. -/
def localIdentity : Option (Identity Reason) :=
  match call.localDeserializer call.peerIdentity with
  | .error _ => none
  | .ok identity => if identity.mspIdentifier = call.localMSPIdentifier then some identity else none

/-- The validated identity and its channel, which has no name for a local one. -/
def getValidatedIdentity (order : List (Channel Reason)) :
    Except (VerifyError Reason) (Identity Reason × GoString) :=
  if call.peerIdentity.bytes = [] then .error .invalidPeerIdentity
  else
    match localIdentity call with
    | some identity => (identity.validate.mapError .reported).map fun _ => (identity, .empty)
    | none => checkManagers call order

def verifyByChannel (chainID : GoString) : Except (VerifyError Reason) Unit :=
  if call.peerIdentity.bytes = [] then .error .invalidPeerIdentity
  else
    match call.applicationReaders chainID with
    | none => .error (.noPolicyManager chainID)
    | some evaluate =>
      (evaluate [⟨call.message, call.peerIdentity, call.signature⟩]).mapError .reported

/-- Checks a peer's signature. -/
def verify (order : List (Channel Reason)) : Except (VerifyError Reason) Unit := do
  let (identity, chainID) ← getValidatedIdentity call order
  if chainID = .empty then (identity.verify call.message call.signature).mapError .reported
  else verifyByChannel call chainID

/-! ## What is expected -/

/-- The providers of a channel validate the identity. -/
def Validates (channel : Channel Reason) : Prop :=
  ∃ identity, channel.2 call.peerIdentity = .ok identity ∧ identity.validate = .ok ()

/-- The policy of the readers of a channel accepts the signature. -/
def ReadersAccept (channel : Channel Reason) : Prop :=
  ∃ evaluate, call.applicationReaders channel.1 = some evaluate ∧
    evaluate [⟨call.message, call.peerIdentity, call.signature⟩] = .ok ()

/-- A channel validates the identity, and its readers accept the signature. -/
def Accepted : Prop :=
  ∃ channel ∈ call.channels, Validates call channel ∧ ReadersAccept call channel

/-- The order does not matter, and a foreign identity is accepted where it should be. -/
structure OrderFree : Prop where
  same : ∀ order other, order.Perm call.channels → other.Perm call.channels →
      (verify call order = .ok () ↔ verify call other = .ok ())
  accepts : localIdentity call = none → ∀ order, order.Perm call.channels →
      (verify call order = .ok () ↔ Accepted call)

/--
What decides if a channel is the first to validate the identity: its readers or,
for a channel without a name, the identity itself.
-/
def Decides (channel : Channel Reason) : Prop :=
  call.peerIdentity.bytes ≠ [] ∧
    if channel.1 = .empty then
      ∃ identity, channel.2 call.peerIdentity = .ok identity ∧
        identity.verify call.message call.signature = .ok ()
    else
      ReadersAccept call channel

/-- The channels that validate the identity are all for the signature or all against it. -/
def Agree : Prop :=
  (∀ channel ∈ call.channels, Validates call channel →
      Decides call channel ∧ ∃ other ∈ call.channels,
        Validates call other ∧ ReadersAccept call other) ∨
    ∀ channel ∈ call.channels, Validates call channel →
      ¬ Decides call channel ∧ ¬ ReadersAccept call channel

end

/-! ## The channel that is found -/

variable {call : Call Reason} {channel : Channel Reason}

theorem checkManagers_of_not_validates (fails : ¬ Validates call channel)
    (rest : List (Channel Reason)) :
    checkManagers call (channel :: rest) = checkManagers call rest := by
  rw [checkManagers]
  split
  · rfl
  next identity deserialized =>
    split
    · rfl
    next validated => exact absurd ⟨identity, deserialized, validated⟩ fails

theorem mapError_eq_ok_iff {Value : Type} {result : Except Reason Value} {value : Value} :
    result.mapError (@VerifyError.reported Reason) = .ok value ↔ result = .ok value := by
  cases result with
  | error _ | ok _ => simp [Except.mapError]

theorem verifyByChannel_ok_iff (present : call.peerIdentity.bytes ≠ []) :
    verifyByChannel call channel.1 = .ok () ↔ ReadersAccept call channel := by
  rw [verifyByChannel, if_neg present, ReadersAccept]
  cases call.applicationReaders channel.1 with
  | none => simp
  | some evaluate => simp [mapError_eq_ok_iff]

section

variable (foreign : localIdentity call = none)
include foreign

theorem verify_cons_iff (validates : Validates call channel) (rest : List (Channel Reason)) :
    verify call (channel :: rest) = .ok () ↔ Decides call channel := by
  rcases validates with ⟨identity, deserialized, validated⟩
  rw [verify, getValidatedIdentity, foreign, Decides]
  by_cases absent : call.peerIdentity.bytes = []
  · rw [if_pos absent]
    exact iff_of_false nofun fun decides => decides.1 absent
  · rw [if_neg absent, and_iff_right absent]
    simp only [checkManagers, deserialized, validated]
    show (if channel.1 = .empty then _ else _) = _ ↔ _
    by_cases unnamed : channel.1 = .empty
    · rw [if_pos unnamed, if_pos unnamed, mapError_eq_ok_iff]
      simp
    · rw [if_neg unnamed, if_neg unnamed]
      exact verifyByChannel_ok_iff absent

theorem verify_cases (order : List (Channel Reason)) :
    (∃ channel ∈ order, Validates call channel ∧
        (verify call order = .ok () ↔ Decides call channel)) ∨
      (∀ channel ∈ order, ¬ Validates call channel) ∧ verify call order ≠ .ok () := by
  induction order with
  | nil =>
    refine .inr ⟨nofun, ?_⟩
    rw [verify, getValidatedIdentity, foreign]
    split <;> nofun
  | cons channel rest ih =>
    by_cases validates : Validates call channel
    · exact .inl ⟨channel, List.mem_cons_self, validates, verify_cons_iff foreign validates rest⟩
    · have skipped : verify call (channel :: rest) = verify call rest := by
        simp only [verify, getValidatedIdentity, foreign,
          checkManagers_of_not_validates validates rest]
      rw [skipped]
      rcases ih with ⟨other, member, found⟩ | ⟨absent, fails⟩
      · exact .inl ⟨other, List.mem_cons_of_mem _ member, found⟩
      · exact .inr ⟨List.forall_mem_cons.mpr ⟨validates, absent⟩, fails⟩

/-- Every channel that validates the identity is the first one in some order. -/
theorem exists_order (member : channel ∈ call.channels) (validates : Validates call channel) :
    ∃ order, order.Perm call.channels ∧ (verify call order = .ok () ↔ Decides call channel) := by
  classical
  exact ⟨_, (List.perm_cons_erase member).symm, verify_cons_iff foreign validates _⟩

theorem agree_of_orderFree (free : OrderFree call) : Agree call := by
  by_cases accepted : Accepted call
  · left
    intro channel member validates
    rcases exists_order foreign member validates with ⟨_, permuted, decides⟩
    exact ⟨decides.mp ((free.accepts foreign _ permuted).mpr accepted), accepted⟩
  · right
    intro channel member validates
    rcases exists_order foreign member validates with ⟨_, permuted, decides⟩
    refine ⟨fun decided => ?_, fun accept => accepted ⟨channel, member, validates, accept⟩⟩
    exact accepted ((free.accepts foreign _ permuted).mp (decides.mpr decided))

theorem orderFree_of_agree (agree : Agree call) : OrderFree call := by
  have accepts (order : List (Channel Reason)) (permuted : order.Perm call.channels) :
      verify call order = .ok () ↔ Accepted call := by
    rcases verify_cases foreign order with
      ⟨channel, found, validates, decides⟩ | ⟨absent, fails⟩
    · rw [decides]
      have member := permuted.mem_iff.mp found
      rcases agree with all | none
      · exact iff_of_true (all channel member validates).1 (all channel member validates).2
      · refine iff_of_false (none channel member validates).1 ?_
        rintro ⟨other, otherMember, otherValidates, accept⟩
        exact (none other otherMember otherValidates).2 accept
    · refine iff_of_false fails ?_
      rintro ⟨channel, member, validates, _⟩
      exact absent channel (permuted.mem_iff.mpr member) validates
  constructor
  · intro order other permuted otherPermuted
    rw [accepts order permuted, accepts other otherPermuted]
  · exact fun _ => accepts

end

/--
The order of the channels does not matter, and an identity that is not local is
accepted exactly where a channel validates it whose readers accept the
signature, if and only if the identity is local or the channels that validate
it agree on the signature.
-/
theorem verify_orderFree_iff (call : Call Reason) :
    OrderFree call ↔ localIdentity call ≠ none ∨ Agree call := by
  by_cases foreign : localIdentity call = none
  · rw [or_iff_right (not_not.mpr foreign)]
    exact ⟨agree_of_orderFree foreign, orderFree_of_agree foreign⟩
  · refine iff_of_true ⟨?_, fun none => absurd none foreign⟩ (.inl foreign)
    rcases Option.ne_none_iff_exists'.mp foreign with ⟨_, found⟩
    intro _ _ _ _
    simp only [verify, getValidatedIdentity, found]

/-! ## Two channels that disagree -/

namespace Sample

def deserialize : Slice → Except Unit (Identity Unit) :=
  fun _ => .ok ⟨.letter 'M', .ok (), fun _ _ => .ok ()⟩

/-- The channels `a` and `b` validate the identity, and the readers of `a` accept it. -/
def disagreement : Call Unit where
  localMSPIdentifier := .letter 'L'
  localDeserializer _ := .error ()
  channelDeserializers := .insert (.insert ∅ (.letter 'a') deserialize) (.letter 'b') deserialize
  applicationReaders chainID := some fun _ => if chainID = .letter 'a' then .ok () else .error ()
  peerIdentity := some [1]
  signature := some [2]
  message := [3]

end Sample

/-- Which channel comes first decides about the signature. -/
theorem disagreeing_channels_not_orderFree : ¬ OrderFree Sample.disagreement := by
  intro free
  have same := (free.same _ _ (List.Perm.refl _) (List.reverse_perm _)).mp rfl
  cases same

end Fabric.Peer.VerifySignature
