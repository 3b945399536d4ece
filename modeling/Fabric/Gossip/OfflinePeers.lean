import Fabric.Gossip.DiscoverySafety

/-!
# The offline peers of a membership response

The component enters the offline peers of a response that it does not know.  It
returns at the first one that is refused for a stored message, so the peers that
are listed after it are not entered.
-/

namespace Fabric.Gossip.OfflinePeers

open Library Outcome ByteString Message Identity Discovery DiscoverySafety

/-- The envelopes are those of messages that are authentic one after the other. -/
inductive DeadList (codec : GossipCodec) (mcs : MessageCryptoService) :
    Mapper → List Envelope → List SignedGossipMessage → Prop where
  | nil {idMapper : Mapper} : DeadList codec mcs idMapper [] []
  | cons {idMapper : Mapper} {envelope : Envelope} {envelopes : List Envelope}
      {signed : SignedGossipMessage} {messages : List SignedGossipMessage}
      (decodes : codec.toGossipMessage envelope = some signed)
      (authentic : (validateAliveMsg mcs idMapper signed).1 = true)
      (rest : DeadList codec mcs (validateAliveMsg mcs idMapper signed).2 envelopes messages) :
      DeadList codec mcs idMapper (envelope :: envelopes) (signed :: messages)

/-- The message is about an unknown peer and not refused for a stored one. -/
structure Qualifies (discovery : GossipDiscovery) (signed : SignedGossipMessage)
    (name : GoString) : Prop where
  named : nameOf signed = some name
  newest : checkValid discovery signed = .ok true
  unknown : name ∉ discovery.id2Member
  other : name ≠ key discovery.self.pkiId

/--
The dead peers are those from before and those with a message that qualifies,
wherever it is listed.
-/
def Learned (discovery next : GossipDiscovery) (messages : List SignedGossipMessage) : Prop :=
  ∀ (name : GoString) message, next.deadMembership[name]? = some message ↔
    discovery.deadMembership[name]? = some message ∨
      message ∈ messages ∧ Qualifies discovery message name

/-- The component has handled some offline peers since a state. -/
structure Reached (base discovery : GossipDiscovery) (done : List SignedGossipMessage) :
    Prop where
  sound : Sound discovery
  self : discovery.self = base.self
  msgStore : discovery.msgStore = base.msgStore
  known : ∀ name, name ∈ discovery.id2Member ↔
      name ∈ base.id2Member ∨ ∃ signed ∈ done, nameOf signed = some name
  learned : Learned base discovery done

section

variable {codec : GossipCodec} {mcs : MessageCryptoService} {base discovery next : GossipDiscovery}
  {done messages : List SignedGossipMessage} {signed : SignedGossipMessage}

theorem Reached.step {newest : Bool} {idMapper : Mapper} (reached : Reached base discovery done)
    {alive : AliveMessage} {member : Member} (named : signed.getAliveMsg = some alive)
    (membership : alive.membership = some member)
    (fresh : ∀ earlier ∈ done, nameOf earlier ≠ nameOf signed)
    (learns : learnIfNewest codec { discovery with idMapper } signed = .ok (newest, next)) :
    checkValid base signed = .ok newest ∧ next.idMapper = idMapper ∧
      (newest = false → Learned base next done) ∧
      (newest = true → Reached base next (done ++ [signed])) := by
  have evolves := reached.sound.with_idMapper idMapper
  have later := (learnIfNewest_returnsIff codec evolves.sound named membership).post_of_ok
      learns
  have about := nameOf_of_membership named membership
  have known : key member.pkiId ∈ discovery.id2Member ↔ key member.pkiId ∈ base.id2Member := by
    rw [reached.known, or_iff_left]
    rintro ⟨earlier, listed, same⟩
    exact fresh earlier listed (same.trans about.symm)
  simp only [learnIfNewest, named, membership, deref_some, ok_bind, bind_ok_iff] at learns
  rcases learns with ⟨valid, checked, learns⟩
  have checked : checkValid base signed = .ok valid := by
    rw [checkValid, ← reached.msgStore]
    exact checked
  cases valid with
  | false =>
    cases learns
    exact ⟨checked, rfl, fun _ => reached.learned, by simp⟩
  | true =>
    simp only [Bool.true_eq_false, if_false, bind_ok_iff, Outcome.ok.injEq, Prod.mk.injEq]
      at learns
    rcases learns with ⟨_, learns, rfl, rfl⟩
    have learned (name : GoString) (message : SignedGossipMessage) :
        (base.deadMembership[name]? = some message ∨
            message ∈ done ++ [signed] ∧ Qualifies base message name) ↔
          discovery.deadMembership[name]? = some message ∨
            message = signed ∧ Qualifies base signed name := by
      rw [reached.learned]
      grind
    by_cases isKnown : key member.pkiId ∈ discovery.id2Member
    · rw [if_pos isKnown, learnNewMembers_nil] at learns
      cases learns
      refine ⟨checked, rfl, by simp, fun _ =>
        ⟨later.sound, reached.self, reached.msgStore, ?_, ?_⟩⟩
      · grind [Reached]
      · intro name message
        rw [learned, or_iff_left]
        rintro ⟨_, ⟨named, _, unknown, _⟩⟩
        grind
    rw [if_neg isKnown] at learns
    by_cases itself : member.pkiId.bytes = discovery.self.pkiId.bytes
    · rcases @exists_of_learnNewMembers_itself _ _ { discovery with idMapper } _ named membership
          codec itself with ⟨_, learns'⟩
      cases learns.symm.trans learns'
      refine ⟨checked, rfl, by simp, fun _ =>
        ⟨later.sound, reached.self, reached.msgStore, ?_, ?_⟩⟩
      · grind [Reached]
      · intro name message
        rw [learned, or_iff_left]
        rintro ⟨_, ⟨named, _, _, other⟩⟩
        rw [← (key_eq_key_iff _ _), reached.self] at itself
        grind
    · have timely := (learnNewMembers_dead_returnsIff codec evolves.sound named membership
          isKnown).condition_of_ok learns itself
      rcases Option.isSome_iff_exists.mp timely with ⟨time, timestamp⟩
      rcases @exists_of_learnNewMembers_offline _ _ _ { discovery with idMapper } _ named membership
          codec timestamp itself with ⟨_, learns'⟩
      cases learns.symm.trans learns'
      refine ⟨checked, rfl, by simp, fun _ =>
        ⟨later.sound, reached.self, reached.msgStore, ?_, ?_⟩⟩
      · grind [Reached]
      · have empty : discovery.deadMembership[key member.pkiId]? = none := by
          apply Std.ExtTreeMap.getElem?_eq_none
          rw [reached.sound.matching.dead]
          exact mt (reached.sound.consistent.deadKnown _) isKnown
        have qualifies : Qualifies base signed (key member.pkiId) := by
          refine ⟨about, checked, known.not.mp isKnown, ?_⟩
          rw [← reached.self]
          exact (key_eq_key_iff _ _).not.2 itself
        intro name message
        rw [learned]
        have named_of (qualifies : Qualifies base signed name) := qualifies.named
        by_cases key member.pkiId = name <;> grind

/-- The messages before the first one that is refused. -/
def beforeRefused (discovery : GossipDiscovery) (messages : List SignedGossipMessage) :
    List SignedGossipMessage :=
  messages.takeWhile fun signed => checkValid discovery signed = .ok true

theorem Reached.run {idMapper : Mapper} {envelopes : List Envelope}
    (listed : DeadList codec mcs idMapper envelopes messages)
    (reached : Reached base discovery done) (mapper : discovery.idMapper = idMapper)
    (distinct : (done ++ messages).Pairwise fun first later => nameOf first ≠ nameOf later)
    (handled : handleDead codec mcs envelopes discovery = .ok next) :
    Learned base next (done ++ beforeRefused base messages) := by
  induction listed generalizing discovery done with
  | nil =>
    cases handled
    rw [beforeRefused, List.takeWhile_nil, List.append_nil]
    exact reached.learned
  | @cons idMapper _ _ signed messages decodes authentic _ ih =>
    rcases exists_member_of_validateAliveMsg authentic with ⟨_, _, named, membership⟩
    simp only [handleDead, decodes, mapper, authentic, Bool.true_eq_false, if_false,
      bind_ok_iff] at handled
    rcases handled with ⟨⟨newest, middle⟩, learns, handled⟩
    have fresh : ∀ earlier ∈ done, nameOf earlier ≠ nameOf signed := fun earlier isDone =>
      (List.pairwise_append.mp distinct).2.2 earlier isDone signed List.mem_cons_self
    rcases reached.step named membership fresh learns with ⟨checked, mapper, refused, entered⟩
    cases newest with
    | false =>
      cases handled
      rw [beforeRefused, List.takeWhile_cons_of_neg (by simp [checked]), List.append_nil]
      exact refused rfl
    | true =>
      rw [List.append_cons] at distinct
      have learned := ih (entered rfl) mapper distinct handled
      rw [beforeRefused, List.takeWhile_cons_of_pos (by simp [checked]), List.append_cons]
      exact learned

end

/-! ## A peer that is listed after one that is refused -/

namespace Sample

open DiscoverySafety.Sample

/-- The alive message of peer `number` as it is received. -/
def signed (number : UInt8) : SignedGossipMessage :=
  { envelope := envelope number, message := aliveMessage number }

end Sample

open DiscoverySafety.Sample Sample

end Fabric.Gossip.OfflinePeers
