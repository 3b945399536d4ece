import Fabric.Gossip.Discovery
import Mathlib.Data.Prod.Lex

/-!
# Which messages the discovery component survives

The gossip layer checks alive messages and the self-information of membership
requests before it forwards a message to the discovery component.  It checks
neither the times in them nor anything inside a membership response.

A message is harmless in a state if the times, the members and the kinds of
messages that the component then reads without a check are there.  The tables
stay consistent in every run, and a call returns exactly if its message is
harmless in the state that was reached.
-/

namespace Fabric.Gossip.DiscoverySafety

open Std Library Outcome ByteString Message Identity Discovery

/-! ## What the gossip layer forwards -/

variable {signed : SignedGossipMessage} {alive : AliveMessage}

section

variable (codec : GossipCodec) (mcs : MessageCryptoService)

/-- The checks of tag and signature, for the messages of discovery. -/
def validateMsg (idMapper : Mapper) (signed : SignedGossipMessage) : Bool × Mapper :=
  if signed.message.tag ≠ .empty then
    (false, idMapper)
  else if signed.getAliveMsg.isSome then validateAliveMsg mcs idMapper signed
  else (true, idMapper)

/--
Whether the gossip layer forwards a message from the peer with the given PKI-ID,
and the identity mapper after its checks.
-/
def handleMessage (idMapper : Mapper) (connectionID : Slice) (signed : SignedGossipMessage) :
    Outcome Empty (Bool × Mapper) :=
  let (valid, idMapper) := validateMsg mcs idMapper signed
  if valid = false then
    .ok (false, idMapper)
  else
    match signed.message.content with
    | some (.aliveMsg _) => .ok (true, idMapper)
    | some (.memRes _) => .ok (true, idMapper)
    | some (.memReq request) => do
        let selfInformation ← deref request.selfInformation
        match codec.toGossipMessage selfInformation with
        | none => .ok (false, idMapper)
        | some selfInfo =>
          match selfInfo.getAliveMsg with
          | none => .ok (false, idMapper)
          | some alive =>
            let member ← deref alive.membership
            .ok (member.pkiId.bytes = connectionID.bytes, idMapper)
    | some .other => .ok (false, idMapper)
    | none => .ok (false, idMapper)

/-- Some state of the gossip layer forwards the message. -/
def Forwarded (signed : SignedGossipMessage) : Prop :=
  ∃ idMapper connectionID checked,
    handleMessage codec mcs idMapper connectionID signed = .ok (true, checked)

variable {codec mcs}

theorem Forwarded.member_of_aliveMsg (forwarded : Forwarded codec mcs signed)
    (content : signed.message.content = some (.aliveMsg alive)) :
    alive.membership.isSome = true := by
  rcases forwarded with ⟨idMapper, _, _, forwards⟩
  have named : signed.getAliveMsg = some alive := by
    simp [SignedGossipMessage.getAliveMsg, GossipMessage.getAliveMsg, content]
  have valid : (validateMsg mcs idMapper signed).1 = true := by
    cases verdict : (validateMsg mcs idMapper signed).1 with
    | true => rfl
    | false => simp [handleMessage, verdict] at forwards
  have authentic : (validateAliveMsg mcs idMapper signed).1 = true := by
    unfold validateMsg at valid
    split at valid
    · cases valid
    · simpa [named] using valid
  have member := exists_member_of_validateAliveMsg authentic
  rcases member with ⟨_, member, found, membership⟩
  rw [named, Option.some.injEq] at found
  rw [found, membership]
  rfl

theorem Forwarded.selfInfo_of_memReq {request : MembershipRequest}
    (forwarded : Forwarded codec mcs signed)
    (content : signed.message.content = some (.memReq request)) :
    ∃ selfInformation selfInfo alive, request.selfInformation = some selfInformation ∧
        codec.toGossipMessage selfInformation = some selfInfo ∧
        selfInfo.getAliveMsg = some alive ∧
        alive.membership.isSome = true := by
  rcases forwarded with ⟨idMapper, _, _, forwards⟩
  unfold handleMessage at forwards
  cases verdict : (validateMsg mcs idMapper signed).1 with
  | false => simp [verdict] at forwards
  | true =>
    simp only [verdict, content, Bool.true_eq_false, if_false,
      bind_ok_iff, deref_ok_iff] at forwards
    rcases forwards with ⟨selfInformation, given, forwards⟩
    cases decoded : codec.toGossipMessage selfInformation with
    | none => simp [decoded] at forwards
    | some selfInfo =>
      cases named : selfInfo.getAliveMsg with
      | none => simp [decoded, named] at forwards
      | some alive =>
        simp only [decoded, named, bind_ok_iff, deref_ok_iff] at forwards
        rcases forwards with ⟨_, membership, _⟩
        exact ⟨selfInformation, selfInfo, alive, given, decoded, named, by rw [membership]; rfl⟩

end

/-! ## Comparing messages -/

/-- The member that an alive message is about. -/
def memberOf (signed : SignedGossipMessage) : Option Member :=
  signed.getAliveMsg.bind AliveMessage.membership

/-- The key of the member that an alive message is about. -/
def nameOf (signed : SignedGossipMessage) : Option GoString :=
  (memberOf signed).map fun member => key member.pkiId

/--
Two alive messages can be compared: both are about a member, and if it is the
same one then both have a time.
-/
def Comparable (thisMsg thatMsg : SignedGossipMessage) : Prop :=
  ∀ thisAlive thatAlive, thisMsg.getAliveMsg = some thisAlive →
      thatMsg.getAliveMsg = some thatAlive →
        (memberOf thisMsg).isSome = true ∧ (memberOf thatMsg).isSome = true ∧
          (nameOf thisMsg = nameOf thatMsg → thisAlive.timestamp.isSome = true ∧
              thatAlive.timestamp.isSome = true)

theorem compareTimestamps_returnsIff (thisTS thatTS : Option PeerTime) :
    ReturnsIff (thisTS.isSome = true ∧ thatTS.isSome = true)
      (fun result => result ≠ .noAction) (compareTimestamps thisTS thatTS) := by
  cases thisTS with
  | none => exact ReturnsIff.panic (by simp)
  | some thisTS =>
    cases thatTS with
    | none => exact ReturnsIff.panic (by simp)
    | some thatTS =>
      simp only [compareTimestamps, deref_some, ok_bind]
      split
      · split
        · exact ReturnsIff.ok (by simp) (by simp)
        · exact ReturnsIff.ok (by simp) (by simp)
      · split
        · exact ReturnsIff.ok (by simp) (by simp)
        · exact ReturnsIff.ok (by simp) (by simp)

theorem invalidationPolicy_returnsIff (thisMsg thatMsg : SignedGossipMessage) :
    ReturnsIff (Comparable thisMsg thatMsg) (fun result =>
        (memberOf thisMsg).isSome = true → (memberOf thatMsg).isSome = true →
          (result = .noAction ↔ nameOf thisMsg ≠ nameOf thatMsg))
      (invalidationPolicy thisMsg thatMsg) := by
  unfold invalidationPolicy Comparable nameOf memberOf
  cases thisNamed : thisMsg.getAliveMsg with
  | none => exact ReturnsIff.ok (by simp) (by simp)
  | some thisAlive =>
    cases thatNamed : thatMsg.getAliveMsg with
    | none => exact ReturnsIff.ok (by simp) (by simp)
    | some thatAlive =>
      simp only [aliveInvalidationPolicy, Option.bind_some]
      cases thisAlive.membership with
      | none => exact ReturnsIff.panic (by simp)
      | some thisMember =>
        cases thatAlive.membership with
        | none => exact ReturnsIff.panic (by simp)
        | some thatMember =>
          simp only [deref_some, ok_bind]
          by_cases same : thisMember.pkiId.bytes = thatMember.pkiId.bytes
          · rw [if_neg (not_not_intro same)]
            refine ((compareTimestamps_returnsIff _ _).of_iff ?_).imp ?_
            · simp [same]
            · intro result acts
              simp [same, acts]
          · rw [if_pos same]
            exact ReturnsIff.ok (by simp [same]) (by simp [same])

/-- A message is refused only for one about the same member, with times. -/
theorem timestamp_of_invalidated {thisMsg thatMsg : SignedGossipMessage}
    (refused : invalidationPolicy thisMsg thatMsg = .ok .invalidated)
    (named : thisMsg.getAliveMsg = some alive) :
    nameOf thisMsg = nameOf thatMsg ∧ (memberOf thisMsg).isSome = true ∧
      alive.timestamp.isSome = true := by
  have policy := invalidationPolicy_returnsIff thisMsg thatMsg
  have comparable := policy.condition_of_ok refused
  have acts := policy.post_of_ok refused
  cases thatNamed : thatMsg.getAliveMsg with
  | none => simp [invalidationPolicy, named, thatNamed] at refused
  | some thatAlive =>
    have parts := comparable alive thatAlive named thatNamed
    have same : nameOf thisMsg = nameOf thatMsg := by
      by_contra differ
      have none := (acts parts.1 parts.2.1).mpr differ
      cases none
    exact ⟨same, parts.1, (parts.2.2 same).1⟩

/-! ## Consistent tables -/

/--
The stored messages are about different members.  A known member other than the
peer itself is either alive or dead, and the last message of a member that is
alive is there.
-/
structure Consistent (discovery : GossipDiscovery) : Prop where
  stored : ∀ signed ∈ discovery.msgStore, (memberOf signed).isSome = true
  distinct : discovery.msgStore.Pairwise fun first later => nameOf first ≠ nameOf later
  listed : ∀ name ∈ discovery.id2Member, name ≠ key discovery.self.pkiId →
      (name ∈ discovery.aliveLastTS ↔ name ∉ discovery.deadLastTS)
  aliveKnown : ∀ name ∈ discovery.aliveLastTS, name ∈ discovery.id2Member
  deadKnown : ∀ name ∈ discovery.deadLastTS, name ∈ discovery.id2Member
  shown : ∀ name ∈ discovery.aliveLastTS, name ∈ discovery.aliveMembership

/--
The messages of the alive and of the dead members are about exactly these, and
the peer itself is neither.
-/
structure Matching (discovery : GossipDiscovery) : Prop where
  itself : key discovery.self.pkiId ∉ discovery.aliveLastTS ∧
      key discovery.self.pkiId ∉ discovery.deadLastTS
  alive : ∀ name, name ∈ discovery.aliveMembership ↔ name ∈ discovery.aliveLastTS
  dead : ∀ name, name ∈ discovery.deadMembership ↔ name ∈ discovery.deadLastTS
  aliveAbout : ∀ (name : GoString) signed, discovery.aliveMembership[name]? = some signed →
      nameOf signed = some name
  deadAbout : ∀ (name : GoString) signed, discovery.deadMembership[name]? = some signed →
      nameOf signed = some name

/-- The order in which messages are newer: by their incarnation, then by their number. -/
def stamp (last : Timestamp) : ℕ ×ₗ ℕ :=
  toLex (last.incTime.toNat, last.seqNum.toNat)

variable {last : Timestamp} {time : PeerTime}

theorem stamp_lt_of_before (before : last.before time = true) :
    stamp last < stamp (.ofPeerTime time) := by
  simp only [Timestamp.before, decide_eq_true_eq, UInt64.lt_iff_toNat_lt,
    ← UInt64.toNat_inj] at before
  exact Prod.Lex.toLex_lt_toLex.mpr before.symm

/--
The time recorded of a member does not go back, and it is a newer one if the
member was dead and is alive.
-/
structure NotOlder (name : GoString) (first later : GossipDiscovery) : Prop where
  alive : ∀ last, first.aliveLastTS[name]? = some last → ∃ next, stamp last ≤ stamp next ∧
      (later.aliveLastTS[name]? = some next ∨ later.deadLastTS[name]? = some next)
  dead : ∀ last, first.deadLastTS[name]? = some last → ∃ next,
      later.aliveLastTS[name]? = some next ∧ stamp last < stamp next ∨
        later.deadLastTS[name]? = some next ∧ stamp last ≤ stamp next

variable {first middle later : GossipDiscovery}

namespace NotOlder

variable {name : GoString} {next : Timestamp}

theorem of_same (alive : later.aliveLastTS[name]? = first.aliveLastTS[name]?)
    (dead : later.deadLastTS[name]? = first.deadLastTS[name]?) : NotOlder name first later := by
  constructor
  · intro last found
    exact ⟨last, le_rfl, .inl (alive.trans found)⟩
  · intro last found
    exact ⟨last, .inr ⟨dead.trans found, le_rfl⟩⟩

theorem online (alive : later.aliveLastTS[name]? = some next)
    (sinceAlive : ∀ last, first.aliveLastTS[name]? = some last → stamp last ≤ stamp next)
    (sinceDead : ∀ last, first.deadLastTS[name]? = some last → stamp last < stamp next) :
    NotOlder name first later := by
  constructor
  · intro last found
    exact ⟨next, sinceAlive last found, .inl alive⟩
  · intro last found
    exact ⟨next, .inl ⟨alive, sinceDead last found⟩⟩

theorem offline (alive : first.aliveLastTS[name]? = some next)
    (notDead : first.deadLastTS[name]? = none) (dead : later.deadLastTS[name]? = some next) :
    NotOlder name first later := by
  constructor
  · intro last found
    rw [alive, Option.some.injEq] at found
    exact ⟨next, found ▸ le_rfl, .inr dead⟩
  · intro last found
    rw [notDead] at found
    cases found

theorem trans (left : NotOlder name first middle) (right : NotOlder name middle later) :
    NotOlder name first later := by
  constructor
  · intro last found
    rcases left.alive last found with ⟨between, since, isAlive | isDead⟩
    · rcases right.alive between isAlive with ⟨next, more, there⟩
      exact ⟨next, since.trans more, there⟩
    · rcases right.dead between isDead with ⟨next, ⟨there, more⟩ | ⟨there, more⟩⟩
      · exact ⟨next, since.trans more.le, .inl there⟩
      · exact ⟨next, since.trans more, .inr there⟩
  · intro last found
    rcases left.dead last found with ⟨between, ⟨isAlive, since⟩ | ⟨isDead, since⟩⟩
    · rcases right.alive between isAlive with ⟨next, more, there | there⟩
      · exact ⟨next, .inl ⟨there, since.trans_le more⟩⟩
      · exact ⟨next, .inr ⟨there, since.le.trans more⟩⟩
    · rcases right.dead between isDead with ⟨next, ⟨there, more⟩ | ⟨there, more⟩⟩
      · exact ⟨next, .inl ⟨there, since.trans_lt more⟩⟩
      · exact ⟨next, .inr ⟨there, since.trans more⟩⟩

end NotOlder

/-! ## The standing of a member -/

/--
What the tables hold about one name: nothing, unless it is that of the peer itself,
or the time and the message of a member that is alive or of one that is dead.
-/
inductive Standing (itself : Prop) (name : GoString) (known : Option NetworkMember)
    (alive dead : Option Timestamp) (shown hidden : Option SignedGossipMessage) : Prop where
  | silent (own : known ≠ none → itself) (notAlive : alive = none) (notDead : dead = none)
      (notShown : shown = none) (notHidden : hidden = none)
  | alive {last : Timestamp} {signed : SignedGossipMessage} (other : ¬ itself)
      (isKnown : known ≠ none) (about : nameOf signed = some name) (isAlive : alive = some last)
      (notDead : dead = none) (isShown : shown = some signed) (notHidden : hidden = none)
  | dead {last : Timestamp} {signed : SignedGossipMessage} (other : ¬ itself)
      (isKnown : known ≠ none) (about : nameOf signed = some name) (notAlive : alive = none)
      (isDead : dead = some last) (notShown : shown = none) (isHidden : hidden = some signed)

def StandingAt (discovery : GossipDiscovery) (name : GoString) : Prop :=
  Standing (name = key discovery.self.pkiId) name discovery.id2Member[name]?
    discovery.aliveLastTS[name]? discovery.deadLastTS[name]? discovery.aliveMembership[name]?
    discovery.deadMembership[name]?

/-- The invariant of the tables, from which `Consistent` and `Matching` follow. -/
structure Sound (discovery : GossipDiscovery) : Prop where
  stored : ∀ signed ∈ discovery.msgStore, (memberOf signed).isSome = true
  distinct : discovery.msgStore.Pairwise fun first later => nameOf first ≠ nameOf later
  standing : ∀ name, StandingAt discovery name

/-- Two states differ at most in what the tables hold about one name. -/
structure Frame (name : GoString) (first later : GossipDiscovery) : Prop where
  self : later.self = first.self
  msgStore : later.msgStore = first.msgStore
  id2Member : ∀ other, name ≠ other → later.id2Member[other]? = first.id2Member[other]?
  aliveLastTS : ∀ other, name ≠ other → later.aliveLastTS[other]? = first.aliveLastTS[other]?
  deadLastTS : ∀ other, name ≠ other → later.deadLastTS[other]? = first.deadLastTS[other]?
  aliveMembership : ∀ other, name ≠ other →
      later.aliveMembership[other]? = first.aliveMembership[other]?
  deadMembership : ∀ other, name ≠ other →
      later.deadMembership[other]? = first.deadMembership[other]?

/-- What every step keeps that forgets no member. -/
structure Evolves (first later : GossipDiscovery) : Prop where
  sound : Sound later
  notOlder : ∀ name, NotOlder name first later

theorem Evolves.trans (left : Evolves first middle) (right : Evolves middle later) :
    Evolves first later :=
  ⟨right.sound, fun name => (left.notOlder name).trans (right.notOlder name)⟩

section

variable {name : GoString} (frame : Frame name first later)
include frame

theorem Frame.sound (sound : Sound first) (standing : StandingAt later name) : Sound later := by
  refine ⟨?_, ?_, ?_⟩
  · rw [frame.msgStore]
    exact sound.stored
  · rw [frame.msgStore]
    exact sound.distinct
  · intro other
    by_cases same : name = other
    · rw [← same]
      exact standing
    · rw [StandingAt, frame.self, frame.id2Member other same, frame.aliveLastTS other same,
        frame.deadLastTS other same, frame.aliveMembership other same,
        frame.deadMembership other same]
      exact sound.standing other

theorem Frame.evolves (sound : Sound first) (standing : StandingAt later name)
    (notOlder : NotOlder name first later) : Evolves first later := by
  refine ⟨frame.sound sound standing, ?_⟩
  intro other
  by_cases same : name = other
  · rw [← same]
    exact notOlder
  · exact .of_same (frame.aliveLastTS other same) (frame.deadLastTS other same)

end

variable {next : GossipDiscovery}

namespace Sound

variable {discovery : GossipDiscovery}

theorem newDiscoveryService (self : NetworkMember) (incTime : UInt64) (idMapper : Mapper) :
    Sound (newDiscoveryService self incTime idMapper) := by
  refine ⟨by simp [Discovery.newDiscoveryService], by simp [Discovery.newDiscoveryService], ?_⟩
  intro name
  apply Standing.silent <;> simp [Discovery.newDiscoveryService]

section

variable (sound : Sound discovery)
include sound

theorem evolves_refl : Evolves discovery discovery :=
  ⟨sound, fun _ => .of_same rfl rfl⟩

theorem with_idMapper (idMapper : Mapper) :
    Evolves discovery { discovery with idMapper } :=
  ⟨{ sound with }, fun _ => .of_same rfl rfl⟩

/-- A message that is refused for a stored one can be compared with the others. -/
theorem decided (named : signed.getAliveMsg = some alive) :
    discovery.msgStore.Pairwise fun first later =>
      invalidationPolicy signed first = .ok .invalidated → Comparable signed later := by
  refine sound.distinct.imp_of_mem ?_
  intro first later _ laterStored differ refused _ _ _ _
  rcases timestamp_of_invalidated refused named with ⟨same, hasMember, _⟩
  refine ⟨hasMember, sound.stored later laterStored, ?_⟩
  intro sameLater
  exact absurd (same.symm.trans sameLater) differ

theorem checkValid_returnsIff (named : signed.getAliveMsg = some alive) :
    ReturnsIff (∀ stored ∈ discovery.msgStore, Comparable signed stored) (fun valid =>
        valid = false → ∃ stored ∈ discovery.msgStore,
            invalidationPolicy signed stored = .ok .invalidated)
      (checkValid discovery signed) := by
  simp only [checkValid, named, deref_some, ok_bind]
  exact MessageStore.checkValid_returnsIff discovery.msgStore (fun stored =>
        (invalidationPolicy_returnsIff signed stored).imp fun _ _ => trivial)
      (sound.decided named)

theorem replaced {signed : SignedGossipMessage} {added : Bool}
    {remaining : List SignedGossipMessage} (hasMember : (memberOf signed).isSome = true)
    (replaced : MessageStore.Replaced invalidationPolicy signed discovery.msgStore added remaining) :
    Sound { discovery with msgStore := remaining } := by
  cases added with
  | false =>
    rcases replaced.refused rfl with ⟨fewer, _⟩
    exact
      { sound with
        stored := fun stored member => sound.stored stored (fewer.subset member)
        distinct := sound.distinct.sublist fewer }
  | true =>
    rcases replaced.kept rfl with ⟨kept, fewer, same, keeps⟩
    refine { sound with stored := ?_, distinct := ?_ }
    · intro stored member
      rw [same] at member
      rcases List.mem_append.mp member with member | member
      · exact sound.stored stored (fewer.subset member)
      · rw [List.mem_singleton.mp member]
        exact hasMember
    · change remaining.Pairwise _
      rw [same, List.pairwise_append]
      refine ⟨sound.distinct.sublist fewer, List.pairwise_singleton _ _, ?_⟩
      intro stored member _ isNew
      rw [List.mem_singleton.mp isNew]
      have differ := ((invalidationPolicy_returnsIff signed stored).post_of_ok
          (keeps stored member) hasMember
          (sound.stored stored (fewer.subset member))).mp rfl
      exact differ.symm

theorem addToStore_returnsIff (named : signed.getAliveMsg = some alive)
    (hasMember : (memberOf signed).isSome = true) :
    ReturnsIff (∀ stored ∈ discovery.msgStore, Comparable signed stored) (fun result =>
        ∃ msgStore, result.2 = { discovery with msgStore } ∧
          Sound { discovery with msgStore } ∧
          (result.1 = false → ∃ stored ∈ discovery.msgStore,
              invalidationPolicy signed stored = .ok .invalidated))
      (addToStore discovery signed) := by
  have added := MessageStore.add_returnsIff discovery.msgStore (fun stored =>
        (invalidationPolicy_returnsIff signed stored).imp fun _ _ => trivial)
      (sound.decided named)
  simp only [addToStore, named, deref_some, ok_bind]
  refine (added.bind ?_).of_iff (and_iff_left fun _ _ => trivial)
  intro result _ replaced
  refine ReturnsIff.ok trivial ⟨result.2, rfl, sound.replaced hasMember replaced, ?_⟩
  intro refused
  exact (replaced.refused refused).2

theorem expireMember (pkiID : Slice) :
    Evolves discovery (expireMember discovery pkiID) := by
  unfold Discovery.expireMember
  generalize key pkiID = name
  cases sound.standing name with
  | silent _ notAlive | dead _ _ _ notAlive =>
    rw [notAlive]
    exact sound.evolves_refl
  | @alive last _ other isKnown about isAlive notDead isShown =>
    simp only [isAlive, isShown]
    refine Frame.evolves ?_ sound (.dead other isKnown about ExtTreeMap.getElem?_erase_self
      ExtTreeMap.getElem?_insert_self ExtTreeMap.getElem?_erase_self
      ExtTreeMap.getElem?_insert_self) ?_
    · constructor <;> simp +contextual [ExtTreeMap.getElem?_insert, ExtTreeMap.getElem?_erase]
    · exact .offline isAlive notDead ExtTreeMap.getElem?_insert_self

theorem expireDeadMembers (dead : List Slice) :
    Evolves discovery (expireDeadMembers discovery dead) := by
  unfold Discovery.expireDeadMembers
  induction dead generalizing discovery with
  | nil => exact sound.evolves_refl
  | cons pkiID _ ih =>
    have expired := sound.expireMember pkiID
    exact expired.trans (ih expired.sound)

theorem forgetMember (forgets : forgetMember discovery signed = .ok next) :
    Sound next ∧ ∀ name ∈ next.id2Member, NotOlder name discovery next := by
  unfold Discovery.forgetMember at forgets
  cases named : signed.getAliveMsg with
  | none =>
    simp only [named, Outcome.ok.injEq] at forgets
    rw [← forgets]
    exact ⟨sound, fun _ _ => .of_same rfl rfl⟩
  | some _ =>
    simp only [named, bind_ok_iff, Outcome.ok.injEq] at forgets
    rcases forgets with ⟨member, _, forgets⟩
    have frame : Frame (key member.pkiId) discovery next := by
      rw [← forgets]
      constructor <;> simp +contextual [ExtTreeMap.getElem?_erase]
    rw [← forgets] at frame ⊢
    refine ⟨frame.sound sound ?_, ?_⟩
    · apply Standing.silent <;> simp
    · intro other kept
      have different : key member.pkiId ≠ other := by
        rintro rfl
        simp at kept
      exact .of_same (frame.aliveLastTS other different) (frame.deadLastTS other different)

/-- What the standing of a name says about the tables. -/
theorem tables (name : GoString) :
    (name ∈ discovery.id2Member → name ≠ key discovery.self.pkiId →
        (name ∈ discovery.aliveLastTS ↔ name ∉ discovery.deadLastTS)) ∧
      (name ∈ discovery.aliveLastTS ∨ name ∈ discovery.deadLastTS →
        name ∈ discovery.id2Member ∧ name ≠ key discovery.self.pkiId) ∧
      (name ∈ discovery.aliveMembership ↔ name ∈ discovery.aliveLastTS) ∧
      (name ∈ discovery.deadMembership ↔ name ∈ discovery.deadLastTS) ∧
      ∀ signed, discovery.aliveMembership[name]? = some signed ∨
          discovery.deadMembership[name]? = some signed → nameOf signed = some name := by
  simp only [ExtTreeMap.mem_iff_isSome_getElem?, Option.isSome_iff_ne_none]
  cases sound.standing name with
  | silent own notAlive notDead notShown notHidden =>
    simp only [notAlive, notDead, notShown, notHidden]
    exact ⟨fun isKnown other => absurd (own isKnown) other, by simp⟩
  | alive other isKnown about isAlive notDead isShown notHidden =>
    simp [isKnown, isAlive, notDead, isShown, notHidden, other, about]
  | dead other isKnown about notAlive isDead notShown isHidden =>
    simp [isKnown, notAlive, isDead, notShown, isHidden, other, about]

theorem consistent : Consistent discovery where
  stored := sound.stored
  distinct := sound.distinct
  listed name := (sound.tables name).1
  aliveKnown name isAlive := ((sound.tables name).2.1 (.inl isAlive)).1
  deadKnown name isDead := ((sound.tables name).2.1 (.inr isDead)).1
  shown name := (sound.tables name).2.2.1.mpr

theorem matching : Matching discovery where
  itself := ⟨fun isAlive => ((sound.tables _).2.1 (.inl isAlive)).2 rfl,
    fun isDead => ((sound.tables _).2.1 (.inr isDead)).2 rfl⟩
  alive name := (sound.tables name).2.2.1
  dead name := (sound.tables name).2.2.2.1
  aliveAbout name signed shown := (sound.tables name).2.2.2.2 signed (.inl shown)
  deadAbout name signed hidden := (sound.tables name).2.2.2.2 signed (.inr hidden)

end

end Sound

/-! ## What a call does -/

section

variable {codec : GossipCodec} {mcs : MessageCryptoService} {discovery : GossipDiscovery}
  {member : Member}

theorem learnNewMembers_nil (codec : GossipCodec) :
    learnNewMembers codec discovery [] [] = .ok discovery := by
  simp [learnNewMembers]

theorem learnNewMembers_alive (codec : GossipCodec) :
    learnNewMembers codec discovery [signed] [] =
      learnAliveMember discovery signed >>= fun discovery =>
        updateMember codec discovery signed := by
  simp only [learnNewMembers, List.foldlM_cons, List.foldlM_nil,
    List.append_nil, bind_pure, pure_bind]

theorem learnNewMembers_dead (codec : GossipCodec) :
    learnNewMembers codec discovery [] [signed] =
      learnDeadMember discovery signed >>= fun discovery =>
        updateMember codec discovery signed := by
  simp only [learnNewMembers, List.foldlM_cons, List.foldlM_nil,
    List.nil_append, bind_pure, pure_bind]

theorem exists_of_updateMember (codec : GossipCodec) (discovery : GossipDiscovery)
    (named : signed.getAliveMsg = some alive) (membership : alive.membership = some member) :
    ∃ info, updateMember codec discovery signed = .ok
          { discovery with id2Member := discovery.id2Member.insert (key member.pkiId) info } := by
  simp only [updateMember, named, membership, deref_some, ok_bind]
  exact ⟨_, rfl⟩

section

theorem nameOf_of_membership (named : signed.getAliveMsg = some alive)
    (membership : alive.membership = some member) : nameOf signed = some (key member.pkiId) := by
  simp [nameOf, memberOf, named, membership]

variable (sound : Sound discovery) (named : signed.getAliveMsg = some alive)
  (membership : alive.membership = some member)
include sound named membership

theorem exists_of_learnNewMembers_alive (timestamp : alive.timestamp = some time)
    (other : member.pkiId.bytes ≠ discovery.self.pkiId.bytes)
    (unknown : key member.pkiId ∉ discovery.id2Member) :
    ∃ next, learnNewMembers codec discovery [signed] [] = .ok next ∧ Evolves discovery next := by
  have learned : learnAliveMember discovery signed = .ok
          { discovery with
            aliveLastTS := discovery.aliveLastTS.insert (key member.pkiId) (.ofPeerTime time)
            aliveMembership := discovery.aliveMembership.insert (key member.pkiId) signed } := by
    simp [learnAliveMember, named, membership, timestamp, other]
  rw [learnNewMembers_alive, learned, ok_bind]
  rcases exists_of_updateMember codec _ named membership with ⟨info, updated⟩
  refine ⟨_, updated, ?_⟩
  cases sound.standing (key member.pkiId) with
  | silent _ notAlive notDead _ notHidden =>
    refine Frame.evolves ?_ sound (.alive ((key_eq_key_iff _ _).not.2 other) (by simp)
      (nameOf_of_membership named membership) ExtTreeMap.getElem?_insert_self notDead
      ExtTreeMap.getElem?_insert_self notHidden) ?_
    · constructor <;> simp +contextual [ExtTreeMap.getElem?_insert]
    · apply NotOlder.online ExtTreeMap.getElem?_insert_self
      · simp [notAlive]
      · simp [notDead]
  | alive _ isKnown | dead _ isKnown =>
    exact absurd (ExtTreeMap.getElem?_eq_none unknown) isKnown

omit sound in
theorem exists_of_learnNewMembers_itself (codec : GossipCodec)
    (itself : member.pkiId.bytes = discovery.self.pkiId.bytes) :
    ∃ info, learnNewMembers codec discovery [] [signed] = .ok
          { discovery with id2Member := discovery.id2Member.insert (key member.pkiId) info } := by
  have skipped : learnDeadMember discovery signed = .ok discovery := by
    simp [learnDeadMember, named, membership, itself]
  rw [learnNewMembers_dead, skipped, ok_bind]
  exact exists_of_updateMember codec _ named membership

omit sound in
theorem exists_of_learnNewMembers_offline (codec : GossipCodec)
    (timestamp : alive.timestamp = some time)
    (other : member.pkiId.bytes ≠ discovery.self.pkiId.bytes) :
    ∃ info, learnNewMembers codec discovery [] [signed] = .ok
          { discovery with
            deadLastTS := discovery.deadLastTS.insert (key member.pkiId) (.ofPeerTime time)
            deadMembership := discovery.deadMembership.insert (key member.pkiId) signed
            id2Member := discovery.id2Member.insert (key member.pkiId) info } := by
  have learned : learnDeadMember discovery signed = .ok
          { discovery with
            deadLastTS := discovery.deadLastTS.insert (key member.pkiId) (.ofPeerTime time)
            deadMembership := discovery.deadMembership.insert (key member.pkiId) signed } := by
    simp [learnDeadMember, named, membership, timestamp, other]
  rw [learnNewMembers_dead, learned, ok_bind]
  exact exists_of_updateMember codec _ named membership

theorem exists_of_learnNewMembers_dead
    (timely : member.pkiId.bytes ≠ discovery.self.pkiId.bytes → alive.timestamp.isSome = true)
    (unknown : key member.pkiId ∉ discovery.id2Member) :
    ∃ next, learnNewMembers codec discovery [] [signed] = .ok next ∧ Evolves discovery next := by
  cases sound.standing (key member.pkiId) with
  | silent _ notAlive notDead notShown notHidden =>
    by_cases itself : member.pkiId.bytes = discovery.self.pkiId.bytes
    · rcases exists_of_learnNewMembers_itself named membership codec itself with ⟨info, learned⟩
      refine ⟨_, learned, Frame.evolves ?_ sound (.silent
        (fun _ => (key_eq_key_iff _ _).2 itself) notAlive notDead notShown notHidden)
        (.of_same rfl rfl)⟩
      constructor <;> simp +contextual [ExtTreeMap.getElem?_insert]
    · rcases Option.isSome_iff_exists.mp (timely itself) with ⟨time, timestamp⟩
      rcases exists_of_learnNewMembers_offline named membership codec timestamp itself with
        ⟨info, learned⟩
      refine ⟨_, learned, Frame.evolves ?_ sound (.dead ((key_eq_key_iff _ _).not.2 itself)
        (by simp) (nameOf_of_membership named membership) notAlive
        ExtTreeMap.getElem?_insert_self notShown ExtTreeMap.getElem?_insert_self) ?_⟩
      · constructor <;> simp +contextual [ExtTreeMap.getElem?_insert]
      · constructor
        · simp [notAlive]
        · simp [notDead]
  | alive _ isKnown | dead _ isKnown =>
    exact absurd (ExtTreeMap.getElem?_eq_none unknown) isKnown

theorem exists_of_updateAliveness (timestamp : alive.timestamp = some time)
    (other : member.pkiId.bytes ≠ discovery.self.pkiId.bytes) :
    ∃ next, updateAliveness codec discovery signed alive member = .ok next ∧
      Evolves discovery next := by
  have about := nameOf_of_membership named membership
  unfold updateAliveness
  by_cases known : key member.pkiId ∈ discovery.id2Member
  · rw [if_neg (not_not_intro known)]
    rcases Option.isSome_iff_exists.mp (ExtTreeMap.mem_iff_isSome_getElem?.mp known) with
      ⟨info, isKnown⟩
    cases sound.standing (key member.pkiId) with
    | silent own =>
      have itself := own (by simp [isKnown])
      exact absurd ((key_eq_key_iff _ _).1 itself) other
    | alive distinct _ _ isAlive notDead isShown notHidden =>
      have listed : key member.pkiId ∉ discovery.deadLastTS ∧
          key member.pkiId ∈ discovery.aliveLastTS := by
        simp [ExtTreeMap.mem_iff_isSome_getElem?, isAlive, notDead]
      simp only [isAlive, notDead, timestamp, deref_some, ok_bind]
      split
      next before =>
        simp only [learnExistingMember, named, membership, timestamp, isKnown, isShown, listed,
          not_true_eq_false, or_self, if_false, deref_some, ok_bind]
        refine ⟨_, rfl, Frame.evolves ?_ sound (.alive distinct (by simp) about
          ExtTreeMap.getElem?_insert_self notDead ExtTreeMap.getElem?_insert_self notHidden) ?_⟩
        · constructor <;> simp +contextual [ExtTreeMap.getElem?_insert]
        · apply NotOlder.online ExtTreeMap.getElem?_insert_self
          · simpa [isAlive] using (stamp_lt_of_before before).le
          · simp [notDead]
      next => exact ⟨_, rfl, sound.evolves_refl⟩
    | dead distinct _ _ notAlive isDead notShown isHidden =>
      simp only [notAlive, isDead, timestamp, deref_some, ok_bind]
      split
      next before =>
        refine ⟨_, rfl, Frame.evolves ?_ sound (.alive distinct (by simp [resurrectMember]) about
          ExtTreeMap.getElem?_insert_self ExtTreeMap.getElem?_erase_self
          ExtTreeMap.getElem?_insert_self ExtTreeMap.getElem?_erase_self) ?_⟩
        · constructor <;> simp +contextual [resurrectMember, ExtTreeMap.getElem?_insert,
            ExtTreeMap.getElem?_erase]
        · apply NotOlder.online ExtTreeMap.getElem?_insert_self
          · simp [notAlive]
          · simpa [isDead] using stamp_lt_of_before before
      next => exact ⟨_, rfl, sound.evolves_refl⟩
  · rw [if_pos known]
    exact exists_of_learnNewMembers_alive sound named membership timestamp other known

end

/-! ## Harmless messages -/

section

variable (mcs : MessageCryptoService) (discovery : GossipDiscovery) (signed : SignedGossipMessage)

/-- An authentic message about another peer has a time. -/
def Timely : Prop :=
  (validateAliveMsg mcs discovery.idMapper signed).1 = true →
    ∀ alive member, signed.getAliveMsg = some alive → alive.membership = some member →
        member.pkiId.bytes ≠ discovery.self.pkiId.bytes → alive.timestamp.isSome = true

/-- The message can be compared with the stored ones and has a time. -/
def Harmless : Prop :=
  (∀ stored ∈ discovery.msgStore, Comparable signed stored) ∧ Timely mcs discovery signed

end

theorem forall_about_iff {Property : AliveMessage → Member → Prop}
    (named : signed.getAliveMsg = some alive) (membership : alive.membership = some member) :
    (∀ other about, signed.getAliveMsg = some other →
      other.membership = some about → Property other about) ↔
      Property alive member := by
  constructor
  · intro holds
    exact holds alive member named membership
  · intro holds other about found names
    rw [named, Option.some.injEq] at found
    rw [← found] at names ⊢
    rw [membership, Option.some.injEq] at names
    rw [← names]
    exact holds

theorem timely_of_invalidated {stored : SignedGossipMessage}
    (refused : invalidationPolicy signed stored = .ok .invalidated) :
    Timely mcs discovery signed := by
  intro _ _ _ named _ _
  exact (timestamp_of_invalidated refused named).2.2

theorem handleAliveMessage_returnsIff (codec : GossipCodec) (mcs : MessageCryptoService)
    (sound : Sound discovery) (signed : SignedGossipMessage) :
    ReturnsIff (Timely mcs discovery signed) (Evolves discovery)
      (handleAliveMessage codec mcs discovery signed) := by
  unfold handleAliveMessage
  rcases validated : validateAliveMsg mcs discovery.idMapper signed with ⟨valid, idMapper⟩
  have evolves := sound.with_idMapper idMapper
  cases valid with
  | false => exact ReturnsIff.ok (by simp [Timely, validated]) evolves
  | true =>
    rcases exists_member_of_validateAliveMsg (congrArg Prod.fst validated) with
      ⟨alive, member, named, membership⟩
    have timely : Timely mcs discovery signed ↔ (member.pkiId.bytes ≠ discovery.self.pkiId.bytes →
            alive.timestamp.isSome = true) := by
      rw [Timely, validated, forall_prop_of_true rfl]
      exact forall_about_iff named membership
    simp only [named, membership, deref_some, ok_bind, Bool.true_eq_false, if_false]
    by_cases itself : member.pkiId.bytes = discovery.self.pkiId.bytes
    · rw [if_pos itself]
      exact ReturnsIff.ok (by simp [timely, itself]) evolves
    · rw [if_neg itself]
      constructor
      · intro holds
        rcases Option.isSome_iff_exists.mp (timely.mp holds itself) with ⟨time, timestamp⟩
        rcases exists_of_updateAliveness evolves.sound named membership timestamp itself with
          ⟨next, updated, more⟩
        exact ⟨next, updated, evolves.trans more⟩
      · intro fails
        cases timestamp : alive.timestamp with
        | none =>
          unfold updateAliveness
          split
          · have learned : learnAliveMember { discovery with idMapper } signed = .panic := by
              simp [learnAliveMember, named, membership, timestamp, itself]
            rw [learnNewMembers_alive, learned, panic_bind]
          · split <;> simp [timestamp]
        | some time =>
          refine absurd (timely.mpr fun _ => ?_) fails
          rw [timestamp]
          rfl

theorem handleIfValid_returnsIff (codec : GossipCodec) (mcs : MessageCryptoService)
    (sound : Sound discovery) (named : signed.getAliveMsg = some alive) :
    ReturnsIff (Harmless mcs discovery signed) (Evolves discovery)
      (handleIfValid codec mcs discovery signed) := by
  have checked := sound.checkValid_returnsIff named
  have handled : ∀ valid, ReturnsIff (valid = true → Timely mcs discovery signed)
          (Evolves discovery)
          (if valid then handleAliveMessage codec mcs discovery signed
          else .ok discovery) := by
    intro valid
    cases valid with
    | false => exact ReturnsIff.ok (by simp) sound.evolves_refl
    | true => exact (handleAliveMessage_returnsIff codec mcs sound signed).of_iff (by simp)
  refine checked.bind_of_known id (fun valid _ _ => handled valid) ?_
  intro valid origin refuses
  rcases origin refuses with ⟨_, _, refused⟩
  exact timely_of_invalidated refused

/-- An offline peer that is to be entered has a time. -/
def HarmlessOffline (discovery : GossipDiscovery) (signed : SignedGossipMessage) : Prop :=
  (∀ stored ∈ discovery.msgStore, Comparable signed stored) ∧
    ∀ alive member, signed.getAliveMsg = some alive →
      alive.membership = some member → key member.pkiId ∉ discovery.id2Member →
          member.pkiId.bytes ≠ discovery.self.pkiId.bytes → alive.timestamp.isSome = true

theorem learnNewMembers_dead_returnsIff (codec : GossipCodec) (sound : Sound discovery)
    (named : signed.getAliveMsg = some alive) (membership : alive.membership = some member)
    (unknown : key member.pkiId ∉ discovery.id2Member) :
    ReturnsIff (member.pkiId.bytes ≠ discovery.self.pkiId.bytes → alive.timestamp.isSome = true)
      (Evolves discovery) (learnNewMembers codec discovery [] [signed]) := by
  constructor
  · intro timely
    exact exists_of_learnNewMembers_dead sound named membership timely unknown
  · intro fails
    rw [Classical.not_imp] at fails
    have learned : learnDeadMember discovery signed = .panic := by
      simp [learnDeadMember, named, membership, fails.1, Option.not_isSome_iff_eq_none.mp fails.2]
    rw [learnNewMembers_dead, learned, panic_bind]

theorem learnIfNewest_returnsIff (codec : GossipCodec) (sound : Sound discovery)
    (named : signed.getAliveMsg = some alive) (membership : alive.membership = some member) :
    ReturnsIff (HarmlessOffline discovery signed) (fun result => Evolves discovery result.2)
      (learnIfNewest codec discovery signed) := by
  have checked := sound.checkValid_returnsIff named
  have learned : ReturnsIff (key member.pkiId ∉ discovery.id2Member →
          member.pkiId.bytes ≠ discovery.self.pkiId.bytes → alive.timestamp.isSome = true)
        (Evolves discovery)
        (learnNewMembers codec discovery [] (if key member.pkiId ∈ discovery.id2Member then []
          else [signed])) := by
    by_cases known : key member.pkiId ∈ discovery.id2Member
    · rw [if_pos known, learnNewMembers_nil]
      exact ReturnsIff.ok (by simp [known]) sound.evolves_refl
    · rw [if_neg known]
      exact (learnNewMembers_dead_returnsIff codec sound named membership
          known).of_iff (by simp [known])
  simp only [learnIfNewest, named, membership, deref_some, ok_bind]
  rw [HarmlessOffline, forall_about_iff named membership]
  refine checked.bind_of_known id ?_ ?_
  · intro newest _ _
    exact ReturnsIff.ite_ok sound.evolves_refl (learned.bind_ok fun _ evolves => evolves)
  · intro newest origin refuses _ _
    rcases origin refuses with ⟨_, _, refused⟩
    exact (timestamp_of_invalidated refused named).2.2

/-! ## Membership responses -/

/-- Every online peer that is reached is harmless when it is. -/
def HarmlessAlive (codec : GossipCodec) (mcs : MessageCryptoService) :
    List Envelope → GossipDiscovery → Prop
  | [], _ => True
  | envelope :: rest, discovery =>
    match codec.toGossipMessage envelope with
    | none => True
    | some signed =>
      match signed.getAliveMsg with
      | none => True
      | some _ =>
        Harmless mcs discovery signed ∧
          ∀ next, handleIfValid codec mcs discovery signed = .ok next →
            HarmlessAlive codec mcs rest next

/--
Every offline peer that is reached is an alive message, and one that is authentic
is harmless when it is reached.
-/
def HarmlessDead (codec : GossipCodec) (mcs : MessageCryptoService) :
    List Envelope → GossipDiscovery → Prop
  | [], _ => True
  | envelope :: rest, discovery =>
    match codec.toGossipMessage envelope with
    | none => True
    | some signed =>
      match validateAliveMsg mcs discovery.idMapper signed with
      | (false, idMapper) =>
        signed.getAliveMsg.isSome = true ∧ HarmlessDead codec mcs rest { discovery with idMapper }
      | (true, idMapper) =>
        HarmlessOffline { discovery with idMapper } signed ∧ ∀ next,
            learnIfNewest codec { discovery with idMapper } signed = .ok (true, next) →
              HarmlessDead codec mcs rest next

theorem handleAlive_returnsIff (codec : GossipCodec) (mcs : MessageCryptoService)
    (sound : Sound discovery) (envelopes : List Envelope) :
    ReturnsIff (HarmlessAlive codec mcs envelopes discovery)
      (fun result => Evolves discovery result.2) (handleAlive codec mcs envelopes discovery) := by
  induction envelopes generalizing discovery with
  | nil => exact ReturnsIff.ok trivial sound.evolves_refl
  | cons envelope _ ih =>
    unfold handleAlive HarmlessAlive
    cases codec.toGossipMessage envelope with
    | none => exact ReturnsIff.ok trivial sound.evolves_refl
    | some signed =>
      cases named : signed.getAliveMsg with
      | none =>
        simp only [named, if_true]
        exact ReturnsIff.ok trivial sound.evolves_refl
      | some _ =>
        simp only [named, reduceCtorEq, if_false]
        exact (handleIfValid_returnsIff codec mcs sound named).bind
            fun _ _ evolves => (ih evolves.sound).imp fun _ more => evolves.trans more

theorem handleDead_returnsIff (codec : GossipCodec) (mcs : MessageCryptoService)
    (sound : Sound discovery) (envelopes : List Envelope) :
    ReturnsIff (HarmlessDead codec mcs envelopes discovery)
      (Evolves discovery) (handleDead codec mcs envelopes discovery) := by
  induction envelopes generalizing discovery with
  | nil => exact ReturnsIff.ok trivial sound.evolves_refl
  | cons envelope _ ih =>
    unfold handleDead HarmlessDead
    cases codec.toGossipMessage envelope with
    | none => exact ReturnsIff.ok trivial sound.evolves_refl
    | some signed =>
      rcases validated : validateAliveMsg mcs discovery.idMapper signed with ⟨valid, idMapper⟩
      have evolves := sound.with_idMapper idMapper
      cases valid with
      | false =>
        simp only [validated, if_true]
        refine ((ReturnsIff.deref signed.getAliveMsg).bind fun _ _ _ =>
            (ih evolves.sound).imp fun _ more => evolves.trans more).of_iff ?_
        refine and_congr_right fun present => ?_
        rcases Option.isSome_iff_exists.mp present with ⟨alive, named⟩
        simp [named]
      | true =>
        rcases exists_member_of_validateAliveMsg (congrArg Prod.fst validated) with
          ⟨alive, _, named, membership⟩
        simp only [validated, Bool.true_eq_false, if_false]
        have learned := learnIfNewest_returnsIff codec evolves.sound named membership
        refine (learned.bind fun _ _ more => ReturnsIff.ite_ok (evolves.trans more)
            ((ih more.sound).imp fun _ rest => (evolves.trans more).trans rest)).of_iff ?_
        simp [Prod.forall]

/-! ## Messages from the gossip layer -/

/--
What the component reads from a message without a check is there: the messages
in it that are reached are harmless.
-/
def HarmlessMessage (codec : GossipCodec) (mcs : MessageCryptoService)
    (discovery : GossipDiscovery) (signed : SignedGossipMessage) : Prop :=
  match signed.message.content with
  | some (.aliveMsg _) => Harmless mcs discovery signed
  | some (.memReq request) =>
    match request.selfInformation.bind codec.toGossipMessage with
    | none => True
    | some selfInfo => Harmless mcs discovery selfInfo
  | some (.memRes response) =>
    HarmlessAlive codec mcs response.alive discovery ∧ ∀ next,
        handleAlive codec mcs response.alive discovery = .ok (true, next) →
          HarmlessDead codec mcs response.dead next
  | some .other => True
  | none => True

section

variable (sound : Sound discovery) (forwarded : Forwarded codec mcs signed)
include sound forwarded

theorem handleMsgFromComm_aliveMsg_returnsIff
    (content : signed.message.content = some (.aliveMsg alive)) :
    ReturnsIff (Harmless mcs discovery signed) (fun result => Evolves discovery result.1)
      (handleMsgFromComm codec mcs discovery signed) := by
  have named : signed.getAliveMsg = some alive := by
    simp [SignedGossipMessage.getAliveMsg, GossipMessage.getAliveMsg, content]
  have hasMember : (memberOf signed).isSome = true := by
    rw [memberOf, named]
    exact forwarded.member_of_aliveMsg content
  have stored := sound.addToStore_returnsIff named hasMember
  unfold handleMsgFromComm
  simp only [content]
  refine stored.bind_of_known Prod.fst ?_ ?_
  · rintro ⟨_, _⟩ _ ⟨_, same, sound, _⟩
    cases same
    have evolves : Evolves discovery _ := ⟨sound, fun _ => .of_same rfl rfl⟩
    have handled := handleAliveMessage_returnsIff codec mcs sound signed
    exact ReturnsIff.ite_ok evolves (handled.bind_ok fun _ more => evolves.trans more)
  · rintro result ⟨_, _, _, origin⟩ refuses
    rcases origin refuses with ⟨_, _, refused⟩
    exact timely_of_invalidated refused

/-- A forwarded message is handled without a panic exactly if it is harmless. -/
theorem handleMsgFromComm_returnsIff :
    ReturnsIff (HarmlessMessage codec mcs discovery signed)
      (fun result => Evolves discovery result.1)
      (handleMsgFromComm codec mcs discovery signed) := by
  cases content : signed.message.content with
  | none =>
    unfold handleMsgFromComm HarmlessMessage
    simp only [content]
    exact ReturnsIff.ok trivial sound.evolves_refl
  | some kind =>
    cases kind with
    | other =>
      unfold handleMsgFromComm HarmlessMessage
      simp only [content]
      exact ReturnsIff.ok trivial sound.evolves_refl
    | aliveMsg _ =>
      unfold HarmlessMessage
      simp only [content]
      exact handleMsgFromComm_aliveMsg_returnsIff sound forwarded content
    | memReq _ =>
      rcases forwarded.selfInfo_of_memReq content with ⟨_, _, _, given, decoded, named, hasMember⟩
      rcases Option.isSome_iff_exists.mp hasMember with ⟨_, membership⟩
      unfold handleMsgFromComm HarmlessMessage
      simp only [content, given, decoded, named, membership, deref_some, ok_bind, Option.bind_some]
      exact (handleIfValid_returnsIff codec mcs sound named).bind_ok fun _ evolves => evolves
    | memRes response =>
      unfold handleMsgFromComm HarmlessMessage
      simp only [content]
      have handled := handleAlive_returnsIff codec mcs sound response.alive
      refine ReturnsIff.of_iff ?_ (handled.bind fun result _ evolves =>
          ReturnsIff.ite_ok evolves ((handleDead_returnsIff codec mcs evolves.sound _).bind_ok
            fun _ more => evolves.trans more))
      simp [Prod.forall]

end

end

/-! ## Runs -/

section

variable (codec : GossipCodec) (mcs : MessageCryptoService)

/--
The steps of the component: a forwarded message, members and stored messages
that expire, identities that others learn and purge, and the numbers and data of
its own alive messages.
-/
inductive Step : GossipDiscovery → GossipDiscovery → Prop where
  | message {discovery next : GossipDiscovery} {effects : List Effect}
      {signed : SignedGossipMessage}
      (forwarded : Forwarded codec mcs signed)
      (handled : handleMsgFromComm codec mcs discovery signed = .ok (next, effects)) :
      Step discovery next
  | expire {discovery : GossipDiscovery} (dead : List Slice) :
      Step discovery (expireDeadMembers discovery dead)
  | messageExpired {discovery next : GossipDiscovery}
      {signed : SignedGossipMessage}
      (stored : signed ∈ discovery.msgStore)
      (forgotten : forgetMember discovery signed = .ok next) :
      Step discovery next
  | messageRemoved {discovery : GossipDiscovery}
      (signed : SignedGossipMessage) :
      Step discovery { discovery with msgStore := discovery.msgStore.erase signed }
  | identities {discovery : GossipDiscovery} (idMapper : Mapper) :
      Step discovery { discovery with idMapper }
  | aliveMessage {discovery : GossipDiscovery} :
      Step discovery { discovery with seqNum := discovery.seqNum + 1 }
  | update {discovery : GossipDiscovery} (metadata : Slice)
      (endpoint : GoString) :
      Step discovery
        { discovery with self := { discovery.self with metadata, endpoint } }

/-- The states that steps lead to. -/
inductive Reachable : GossipDiscovery → Prop where
  | initial (self : NetworkMember) (incTime : UInt64) (idMapper : Mapper) :
      Reachable (newDiscoveryService self incTime idMapper)
  | step {discovery next : GossipDiscovery}
      (reachable : Reachable discovery)
      (taken : Step codec mcs discovery next) :
      Reachable next

variable {codec mcs} {discovery : GossipDiscovery}

theorem Step.keeps (taken : Step codec mcs discovery next) (sound : Sound discovery) :
    Sound next ∧ ∀ name ∈ next.id2Member, NotOlder name discovery next := by
  have evolving (evolves : Evolves discovery next) :
      Sound next ∧ ∀ name ∈ next.id2Member, NotOlder name discovery next :=
    ⟨evolves.sound, fun name _ => evolves.notOlder name⟩
  cases taken with
  | message forwarded handled =>
    exact evolving ((handleMsgFromComm_returnsIff sound forwarded).post_of_ok handled)
  | expire dead => exact evolving (sound.expireDeadMembers dead)
  | messageExpired _ forgotten => exact sound.forgetMember forgotten
  | messageRemoved signed =>
    have fewer : (discovery.msgStore.erase signed).Sublist discovery.msgStore := List.erase_sublist
    refine ⟨{ sound with stored := ?_, distinct := ?_ }, fun _ _ => .of_same rfl rfl⟩
    · exact fun stored member => sound.stored stored (fewer.subset member)
    · exact sound.distinct.sublist fewer
  | identities idMapper => exact evolving (sound.with_idMapper idMapper)
  | aliveMessage | update _ _ => exact ⟨{ sound with }, fun _ _ => .of_same rfl rfl⟩

theorem Reachable.sound (reachable : Reachable codec mcs discovery) : Sound discovery := by
  induction reachable with
  | initial self incTime idMapper => exact .newDiscoveryService self incTime idMapper
  | step _ taken sound => exact (taken.keeps sound).1

/--
In every state that the component reaches, it returns from a forwarded message
exactly if the message is harmless there.
-/
theorem forwarded_message_handled_iff {discovery : GossipDiscovery} {signed : SignedGossipMessage}
    (reachable : Reachable codec mcs discovery) (forwarded : Forwarded codec mcs signed) :
    (∃ next effects, handleMsgFromComm codec mcs discovery signed = .ok (next, effects)) ↔
      HarmlessMessage codec mcs discovery signed := by
  rw [← (handleMsgFromComm_returnsIff reachable.sound forwarded).exists_iff, Prod.exists]

/--
In every state that the component reaches the tables are consistent, and a message
that has what is read without a check is handled: neither panic about a member in
none or in both of the tables is reached, whatever the message lists.  While a
member stays known the time recorded of it does not go back, and a dead one is
alive only with a newer time.
-/
theorem membership_consistent (reachable : Reachable codec mcs discovery) :
    Consistent discovery ∧ Matching discovery ∧
      (∀ signed, Forwarded codec mcs signed → HarmlessMessage codec mcs discovery signed →
        handleMsgFromComm codec mcs discovery signed ≠ .panic) ∧
      ∀ name later, Relation.ReflTransGen (fun first next => Step codec mcs first next ∧
          name ∈ next.id2Member) discovery later → NotOlder name discovery later := by
  have sound := reachable.sound
  refine ⟨sound.consistent, sound.matching, ?_, ?_⟩
  · intro signed forwarded harmless panics
    rcases (handleMsgFromComm_returnsIff sound forwarded).1 harmless with ⟨_, returned, _⟩
    rw [panics] at returned
    cases returned
  · intro name later run
    suffices holds : Sound later ∧ NotOlder name discovery later from holds.2
    induction run with
    | refl => exact ⟨sound, .of_same rfl rfl⟩
    | tail _ taken ih =>
      rcases taken.1.keeps ih.1 with ⟨sound, notOlder⟩
      exact ⟨sound, ih.2.trans (notOlder name taken.2)⟩

end

/-! ## A response with an empty envelope -/

namespace Sample

open Protos (field)

/-- The content of an alive message of peer `number`, in its encoding. -/
def aliveBytes (number : UInt8) : Bytes :=
  [0x18, 1] ++ field 5
      (field 1 (field 1 [0x70, number] ++ field 3 [number]) ++
        field 2 [0x08, 5, 0x10, 1] ++ field 4 [0xC0, number])

def aliveMessage (number : UInt8) : GossipMessage :=
  ⟨0, .empty, some (.aliveMsg ⟨some ⟨⟨[0x70, number]⟩, none, some [number]⟩, some ⟨5, 1⟩,
    some [0xC0, number]⟩)⟩

/-- The encodings of the alive messages of peers 1 and 2 and of no content. -/
def codec : GossipCodec where
  unmarshalGossipMessage bytes := if bytes = [] then
      some ⟨0, .undefined, none⟩
    else if bytes = aliveBytes 1 then
      some (aliveMessage 1)
    else if bytes = aliveBytes 2 then some (aliveMessage 2)
    else none
  marshalGossipMessage message := if message = aliveMessage 1 then
      aliveBytes 1
    else if message = aliveMessage 2 then aliveBytes 2
    else []
  unmarshalSecret bytes :=
    match bytes with
    | [] => some .empty
    | _ => none
  marshalSecret _ := []

/-- Certificates and signatures that name the peer. -/
def mcs : MessageCryptoService where
  validateIdentity identity := identity.head? = some 0xC0
  getPKIidOfCert identity := some identity.tail
  sign _ := some (some [0x51, 9])
  verify identity signature _ := signature = 0x51 :: identity.tail

def envelope (number : UInt8) : Envelope :=
  ⟨some (aliveBytes number), some [0x51, number], none⟩

def envelopeBytes (number : UInt8) : Bytes :=
  field 1 (aliveBytes number) ++ field 2 [0x51, number]

/-- Peer 1 is online and peer 2 is not. -/
def response : SignedGossipMessage :=
  { envelope := ⟨some ([0x08, 3, 0x18, 1] ++
        field 7 (field 1 (envelopeBytes 1) ++ field 2 (envelopeBytes 2))), none, none⟩
    message := ⟨3, .empty, some (.memRes ⟨[envelope 1], [envelope 2]⟩)⟩ }

/-- The offline peers of the response are one envelope with nothing in it. -/
def emptyResponse : SignedGossipMessage :=
  { envelope := ⟨some [0x08, 3, 0x18, 1, 0x3A, 2, 0x12, 0], none, none⟩
    message := ⟨3, .empty, some (.memRes ⟨[], [⟨none, none, none⟩]⟩)⟩ }

def discovery : GossipDiscovery :=
  newDiscoveryService ⟨⟨[0x70, 9]⟩, none, some [9], ⟨[0x71, 9]⟩⟩ 5 ∅

theorem forwarded_response : Forwarded codec mcs response :=
  ⟨∅, some [9], ∅, rfl⟩

theorem exists_learned : ∃ result, handleMsgFromComm codec mcs discovery response = .ok result ∧
    key (some [1]) ∈ result.1.aliveLastTS ∧ key (some [2]) ∈ result.1.deadLastTS := by
  decide +kernel

end Sample

theorem forwarded_message_handled_iff_response :
    HarmlessMessage Sample.codec Sample.mcs Sample.discovery Sample.response := by
  have reachable : Reachable Sample.codec Sample.mcs Sample.discovery := .initial _ _ _
  apply (forwarded_message_handled_iff reachable Sample.forwarded_response).mp
  rcases Sample.exists_learned with ⟨⟨next, effects⟩, run, _⟩
  exact ⟨next, effects, run⟩

theorem membership_consistent_response :
    ∃ result, handleMsgFromComm Sample.codec Sample.mcs Sample.discovery Sample.response =
        .ok result ∧ key (some [2]) ∈ result.1.deadLastTS ∧
      Consistent result.1 ∧ Matching result.1 := by
  rcases Sample.exists_learned with ⟨result, run, _, dead⟩
  have reachable : Reachable Sample.codec Sample.mcs result.1 :=
    .step (.initial _ _ _) (.message Sample.forwarded_response run)
  rcases membership_consistent reachable with ⟨consistent, matching, _⟩
  exact ⟨result, run, dead, consistent, matching⟩

/--
A membership response in which an offline peer is an empty envelope is forwarded
and makes a new component panic.
-/
theorem empty_envelope_panics :
    Reachable Sample.codec Sample.mcs Sample.discovery ∧
      Forwarded Sample.codec Sample.mcs Sample.emptyResponse ∧
      handleMsgFromComm Sample.codec Sample.mcs Sample.discovery Sample.emptyResponse = .panic := by
  refine ⟨.initial _ _ _, ⟨∅, some [9], ∅, rfl⟩, ?_⟩
  rfl

end Fabric.Gossip.DiscoverySafety
