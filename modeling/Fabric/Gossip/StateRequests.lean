import Fabric.Gossip.StateTransfer

/-!
# Requesting missing blocks

A peer asks for missing blocks batch by batch.  The next batch starts after the
greatest number of the blocks that a response brought, whatever was asked for,
and ends at a minimum that is computed from the sign of a difference.  Both ends
are asked for.

Adding the received blocks to the buffer has no influence on the loop: a failure
is only reported.
-/

namespace Fabric.Gossip.StateRequests

open Library WordLoop
open Message StateTransfer

/-! ## The loop -/

def defAntiEntropyMaxRetries : Nat := 3

/-- What an attempt to get an answer meets with. -/
inductive Event where
  | noPeer
  | timeout
  | stop
  | response (sameNonce : Bool) (payloads : List Payload)

/-- The outcome of an attempt; a response is kept with its greatest number. -/
inductive Attempt where
  | givesUp
  | again
  | received (payloads : List Payload) (index : UInt64)

/-- What happens in a run, with the lower end before each successful response. -/
inductive Entry where
  | request (request : RemoteStateRequest)
  | received (prev : UInt64) (payloads : List Payload) (index : UInt64)

section

variable (verifyBlock : Payload → Bool) (last : UInt64)

/-- The greatest number of verified payloads. -/
def maxSeqNum (max : UInt64) : List Payload → Option UInt64
  | [] => some max
  | payload :: rest =>
    if verifyBlock payload = false then none
    else maxSeqNum (if max < payload.seqNum then payload.seqNum else max) rest

/-- The greatest number of a response with verified blocks. -/
def handleStateResponse (payloads : List Payload) : Option UInt64 :=
  if payloads = [] then none else maxSeqNum verifyBlock 0 payloads

/-- What becomes of one try. -/
def attempt (tryCounts : Nat) (event : Event) : Attempt :=
  if defAntiEntropyMaxRetries < tryCounts then .givesUp
  else
    match event with
    | .noPeer | .stop => .givesUp
    | .timeout | .response false _ => .again
    | .response true payloads =>
      match handleStateResponse verifyBlock payloads with
      | none => .again
      | some index => .received payloads index

/-- The request for the batch that starts at a number. -/
def stateRequest (prev : UInt64) : RemoteStateRequest :=
  { startSeqNum := prev, endSeqNum := StateTransfer.min last (prev + defAntiEntropyBatchSize) }

/-- The run of the loop as far as the events go. -/
def requestBlocksInRange (prev : UInt64) (tryCounts : Nat) (events : List Event) : List Entry :=
  if last < prev then []
  else
    .request (stateRequest last prev) ::
      match events with
      | [] => []
      | event :: rest =>
        match attempt verifyBlock tryCounts event with
        | .givesUp => []
        | .again => requestBlocksInRange prev (tryCounts + 1) rest
        | .received payloads index =>
          .received prev payloads index :: requestBlocksInRange (index + 1) 0 rest

/-- The number of successful responses. -/
def successes (run : List Entry) : Nat :=
  run.countP fun
    | .received _ _ _ => true
    | .request _ => false

/--
Every request of a run is for at most so many blocks, every successful response
raises the lower end, and there are no more of them than blocks.
-/
structure CatchesUp (limit : Nat) (start : UInt64) (run : List Entry) : Prop where
  spans : ∀ request, .request request ∈ run →
      request.endSeqNum.toNat < request.startSeqNum.toNat + limit
  raises : ∀ prev payloads index, .received prev payloads index ∈ run → prev < index + 1
  count : successes run ≤ last.toNat + 1 - start.toNat

/--
Every successful response brings a block from the lower end before it on, and
none with the last number.
-/
def Serves (run : List Entry) : Prop :=
  ∀ prev payloads index, .received prev payloads index ∈ run →
    (∃ payload ∈ payloads, prev ≤ payload.seqNum) ∧
      ∀ payload ∈ payloads, payload.seqNum ≠ maxWord

end

variable {verifyBlock : Payload → Bool} {last prev : UInt64} {events : List Event} {tryCounts : Nat}

theorem lt_add_one_iff {index : UInt64} : prev < index + 1 ↔ prev ≤ index ∧ index ≠ maxWord := by
  have left := prev.toNat_lt
  have right := index.toNat_lt
  rw [UInt64.lt_iff_toNat_lt, UInt64.le_iff_toNat_le, ne_eq, ← UInt64.toNat_inj, toNat_maxWord,
    UInt64.toNat_add, UInt64.toNat_one]
  omega

theorem maxSeqNum_eq_some {payloads : List Payload} {max index : UInt64}
    (found : maxSeqNum verifyBlock max payloads = some index) :
    max ≤ index ∧ (∀ payload ∈ payloads, payload.seqNum ≤ index) ∧
      (index = max ∨ ∃ payload ∈ payloads, payload.seqNum = index) := by
  induction payloads generalizing max with
  | nil =>
    cases found
    exact ⟨UInt64.le_refl _, nofun, .inl rfl⟩
  | cons payload rest ih =>
    rw [maxSeqNum] at found
    split_ifs at found with _ larger
    · rcases ih found with ⟨above, bounds, attained⟩
      refine ⟨UInt64.le_of_lt (UInt64.lt_of_lt_of_le larger above),
        List.forall_mem_cons.mpr ⟨above, bounds⟩, ?_⟩
      rcases attained with rfl | ⟨other, member, same⟩
      · exact .inr ⟨payload, .head _, rfl⟩
      · exact .inr ⟨other, .tail _ member, same⟩
    · rcases ih found with ⟨above, bounds, attained⟩
      have below := UInt64.le_trans (UInt64.not_lt.mp larger) above
      refine ⟨above, List.forall_mem_cons.mpr ⟨below, bounds⟩, attained.imp id ?_⟩
      rintro ⟨other, member, same⟩
      exact ⟨other, .tail _ member, same⟩

/-- A response raises the lower end exactly if the numbers of its payloads do. -/
theorem lt_add_one_iff_payloads {payloads : List Payload} {index : UInt64}
    (found : handleStateResponse verifyBlock payloads = some index) :
    prev < index + 1 ↔ (∃ payload ∈ payloads, prev ≤ payload.seqNum) ∧
      ∀ payload ∈ payloads, payload.seqNum ≠ maxWord := by
  rw [handleStateResponse] at found
  split_ifs at found with none
  rcases maxSeqNum_eq_some found with ⟨_, bounds, attained⟩
  have greatest : ∃ payload ∈ payloads, payload.seqNum = index := by
    rcases attained with rfl | attained
    · rcases List.exists_mem_of_ne_nil payloads none with ⟨payload, member⟩
      exact ⟨payload, member, UInt64.le_antisymm (bounds payload member) UInt64.zero_le⟩
    · exact attained
  rcases greatest with ⟨greatest, member, rfl⟩
  rw [lt_add_one_iff]
  constructor
  · rintro ⟨above, notLast⟩
    refine ⟨⟨greatest, member, above⟩, ?_⟩
    intro payload listed isLast
    have bound := UInt64.le_iff_toNat_le.mp (bounds payload listed)
    rw [isLast, toNat_maxWord] at bound
    apply notLast
    rw [← UInt64.toNat_inj, toNat_maxWord]
    have := greatest.seqNum.toNat_lt
    omega
  · rintro ⟨⟨payload, listed, above⟩, notLast⟩
    exact ⟨UInt64.le_trans above (bounds payload listed), notLast greatest member⟩

theorem handleStateResponse_of_attempt {event : Event} {payloads : List Payload} {index : UInt64}
    (tried : attempt verifyBlock tryCounts event = .received payloads index) :
    handleStateResponse verifyBlock payloads = some index := by
  unfold attempt at tried
  split_ifs at tried
  rcases event with _ | _ | _ | ⟨_ | _, received⟩
  all_goals try cases tried
  dsimp only at tried
  cases handled : handleStateResponse verifyBlock received with
  | none =>
    rw [handled] at tried
    cases tried
  | some _ =>
    rw [handled] at tried
    cases tried
    exact handled

theorem handleStateResponse_of_mem {lower index : UInt64} {payloads : List Payload}
    (member : .received lower payloads index ∈
        requestBlocksInRange verifyBlock last prev tryCounts events) :
    handleStateResponse verifyBlock payloads = some index := by
  induction events generalizing prev tryCounts with
  | nil =>
    rw [requestBlocksInRange] at member
    split_ifs at member
    · cases member
    · simp at member
  | cons event rest ih =>
    rw [requestBlocksInRange] at member
    split_ifs at member
    · cases member
    simp only [List.mem_cons, reduceCtorEq, false_or] at member
    cases tried : attempt verifyBlock tryCounts event with
    | givesUp =>
      rw [tried] at member
      cases member
    | again =>
      rw [tried] at member
      exact ih member
    | received _ _ =>
      rw [tried] at member
      rcases List.mem_cons.mp member with same | later
      · cases same
        exact handleStateResponse_of_attempt tried
      · exact ih later

theorem stateRequest_spans_iff (within : prev ≤ last) :
    ((stateRequest last prev).endSeqNum.toNat < prev.toNat + 10 ↔ last.toNat < prev.toNat + 10) ∧
      ((stateRequest last prev).endSeqNum.toNat < prev.toNat + 11 ↔
        last.toNat < prev.toNat + (2 ^ 63 + 10)) := by
  have bound := last.toNat_lt
  have order := UInt64.le_iff_toNat_le.mp within
  have next : (prev + defAntiEntropyBatchSize).toNat = (prev.toNat + 10) % 2 ^ 64 :=
    UInt64.toNat_add _ _
  have sign := toNat_sub_lt_iff last (prev + defAntiEntropyBatchSize)
  simp only [stateRequest, min_eq]
  split
  next small =>
    rw [sign] at small
    omega
  next large =>
    rw [sign] at large
    omega

/-- While the lower end rises, every request starts between the first one and the end. -/
theorem requests_of_raises (raises : ∀ lower payloads index,
      .received lower payloads index ∈
          requestBlocksInRange verifyBlock last prev tryCounts events →
        lower < index + 1) :
    (∀ request, .request request ∈ requestBlocksInRange verifyBlock last prev tryCounts events →
        ∃ lower, prev ≤ lower ∧ lower ≤ last ∧ request = stateRequest last lower) ∧
      successes (requestBlocksInRange verifyBlock last prev tryCounts events) ≤
        last.toNat + 1 - prev.toNat := by
  induction events generalizing prev tryCounts with
  | nil =>
    rw [requestBlocksInRange]
    split
    · exact ⟨nofun, Nat.zero_le _⟩
    next within =>
      refine ⟨?_, Nat.zero_le _⟩
      rintro _ (_ | ⟨_, ⟨⟩⟩)
      exact ⟨prev, UInt64.le_refl _, UInt64.not_lt.mp within, rfl⟩
  | cons event rest ih =>
    rw [requestBlocksInRange] at raises ⊢
    split at raises
    next beyond =>
      rw [if_pos beyond]
      exact ⟨nofun, Nat.zero_le _⟩
    next within =>
      rw [if_neg within]
      have within := UInt64.not_lt.mp within
      have first : ∃ lower, prev ≤ lower ∧ lower ≤ last ∧
            stateRequest last prev = stateRequest last lower :=
        ⟨prev, UInt64.le_refl _, within, rfl⟩
      cases tried : attempt verifyBlock tryCounts event with
      | givesUp =>
        refine ⟨?_, Nat.zero_le _⟩
        rintro _ (_ | ⟨_, ⟨⟩⟩)
        exact first
      | again =>
        rw [tried] at raises
        rcases ih fun lower payloads index member =>
            raises lower payloads index (.tail _ member) with
          ⟨starts, count⟩
        refine ⟨?_, count⟩
        rintro _ (_ | ⟨_, member⟩)
        · exact first
        · exact starts _ member
      | received payloads index =>
        rw [tried] at raises
        have higher := raises prev payloads index (.tail _ (.head _))
        rcases ih fun lower payloads index member =>
            raises lower payloads index (.tail _ (.tail _ member)) with
          ⟨starts, count⟩
        constructor
        · rintro _ (_ | ⟨_, _ | ⟨_, member⟩⟩)
          · exact first
          · rcases starts _ member with ⟨lower, above, inside⟩
            exact ⟨lower, UInt64.le_trans (UInt64.le_of_lt higher) above, inside⟩
        · rw [UInt64.lt_iff_toNat_lt] at higher
          rw [UInt64.le_iff_toNat_le] at within
          simp only [successes, List.countP_cons] at count ⊢
          simp
          omega

theorem catchesUp_iff {limit bound : Nat} {start : UInt64}
    (spans : ∀ prev, prev ≤ last → ((stateRequest last prev).endSeqNum.toNat < prev.toNat + limit ↔
          last.toNat < prev.toNat + bound)) :
    CatchesUp last limit start (requestBlocksInRange verifyBlock last start 0 events) ↔
      (start ≤ last → last.toNat < start.toNat + bound) ∧
        Serves (requestBlocksInRange verifyBlock last start 0 events) := by
  constructor
  · intro catches
    constructor
    · intro within
      apply (spans start within).mp
      apply catches.spans (stateRequest last start)
      rw [requestBlocksInRange.eq_def, if_neg (UInt64.not_lt.mpr within)]
      exact .head _
    · intro prev payloads index member
      exact (lt_add_one_iff_payloads (handleStateResponse_of_mem member)).mp
        (catches.raises prev payloads index member)
  · rintro ⟨near, serves⟩
    have raises := fun prev payloads index member =>
      (lt_add_one_iff_payloads (handleStateResponse_of_mem member)).mpr
        (serves prev payloads index member)
    rcases requests_of_raises raises with ⟨starts, count⟩
    refine ⟨?_, raises, count⟩
    intro request member
    rcases starts request member with ⟨lower, above, inside, rfl⟩
    have reached := near (UInt64.le_trans above inside)
    have above := UInt64.le_iff_toNat_le.mp above
    exact (spans lower inside).mpr (by omega)

/--
A run catches up exactly if its range fits into one batch and its responses
serve it; where the batch size is the distance between the two ends, exactly if
the end is in reach of the minimum and the responses serve it.
-/
theorem requestBlocksInRange_catchesUp_iff (verifyBlock : Payload → Bool) (start last : UInt64)
    (events : List Event) :
    (CatchesUp last defAntiEntropyBatchSize.toNat start
          (requestBlocksInRange verifyBlock last start 0 events) ↔
        (start ≤ last → last.toNat < start.toNat + 10) ∧
          Serves (requestBlocksInRange verifyBlock last start 0 events)) ∧
      (CatchesUp last (defAntiEntropyBatchSize.toNat + 1) start
          (requestBlocksInRange verifyBlock last start 0 events) ↔
        (start ≤ last → last.toNat < start.toNat + (2 ^ 63 + 10)) ∧
          Serves (requestBlocksInRange verifyBlock last start 0 events)) :=
  ⟨catchesUp_iff fun _ within => (stateRequest_spans_iff within).1,
    catchesUp_iff fun _ within => (stateRequest_spans_iff within).2⟩

/--
A request for the first eleven blocks is for more than a batch, and an old block
that is sent again takes the peer back.
-/
theorem request_exceeds_batch_and_old_block_lowers :
    ¬ CatchesUp 10 10 0 (requestBlocksInRange (fun _ => true) 10 0 0 []) ∧
      ¬ CatchesUp 9 10 5
        (requestBlocksInRange (fun _ => true) 9 5 0 [.response true [⟨2, none⟩]]) := by
  constructor
  · intro catches
    exact absurd (catches.spans _ (.head _)) (by decide)
  · intro catches
    exact absurd (catches.raises 5 _ 2 (.tail _ (.head _))) (by decide)

end Fabric.Gossip.StateRequests
