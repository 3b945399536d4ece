import Fabric.Gossip.StateProvider

/-!
# Back-pressure of the payload buffer

Blocks reach the buffer from the ordering service, by gossip and in responses to
state requests.  A blocking call waits until there are few payloads in the
buffer, whichever they are.  Only the expected payload makes room, though, and a
call that brings it waits like any other.

A call looks at the size of the buffer and stores its payload in two steps, so
calls and the delivery loop interleave between them.  Once more than twice
`defMaxBlockDistance` payloads are stored and the expected one is not among
them, everyone waits.  In runs in which other payloads are stored only below
that bound, the expected payload never waits.
-/

namespace Fabric.Gossip.BackPressure

open Std (ExtTreeMap)
open Library Outcome
open Protos (Block Codec)
open Message Payloads
open Gossip.StateProvider (Committer Provider admitPayload height)

/-! ## Calls -/

/-- Where a payload comes from. -/
inductive Source where
  | deliver
  | gossip
  | stateResponse
deriving DecidableEq

/-- Whether the calls of a source wait for room in the buffer. -/
def blockingMode (nonBlockingCommitMode : Bool) : Source → Bool
  | .deliver => !nonBlockingCommitMode
  | .gossip => false
  | .stateResponse => true

/-- The number of payloads above which blocking calls wait. -/
def maxBuffered : Nat :=
  StateProvider.defMaxBlockDistance.toNat * 2

/-- A call waits for room, or it is about to store its payload. -/
inductive Stage where
  | checking
  | pushing
deriving DecidableEq

/-- A call that is in progress. -/
structure Call where
  payload : Payload
  stage : Stage
deriving DecidableEq

/-- A provider and the calls that have not returned yet. -/
structure Intake where
  provider : Provider
  calls : List Call

/-- A turn of a node. -/
inductive Turn where
  | call (source : Source) (payload : Option Payload)
  | check (payload : Payload)
  | push (payload : Payload)
  | loop (turn : StateProvider.Turn)

def Intake.buffer (intake : Intake) : PayloadsBuffer :=
  intake.provider.payloads.buffer

/-- The stage in which a call starts. -/
def Stage.first (blocking : Bool) : Stage :=
  if blocking then .checking else .pushing

section

variable (codec : Codec) (committer : Committer) (nonBlockingCommitMode : Bool)

/--
The steps of the calls and of the delivery loop.  A call that is refused does
not show; a call for which there is no room looks again later.
-/
inductive Step : Intake → Turn → Intake → Prop where
  | call {intake : Intake} {source : Source} {payload : Option Payload}
      {ledgerHeight : Option UInt64} {admitted : Payload}
      (read : ledgerHeight = none ∨ ledgerHeight = some (height intake.provider.ledger))
      (admits : admitPayload payload ledgerHeight (blockingMode nonBlockingCommitMode source) =
          .ok admitted) :
      Step intake (.call source payload)
        { intake with
          calls := intake.calls ++ [⟨admitted,
                Stage.first (blockingMode nonBlockingCommitMode source)⟩] }
  | check {intake : Intake} {payload : Payload} {before after : List Call}
      (calls : intake.calls = before ++ ⟨payload, .checking⟩ :: after)
      (room : intake.buffer.size ≤ maxBuffered) :
      Step intake (.check payload) { intake with calls := before ++ ⟨payload, .pushing⟩ :: after }
  | push {intake : Intake} {payload : Payload} {before after : List Call}
      (calls : intake.calls = before ++ ⟨payload, .pushing⟩ :: after) :
      Step intake (.push payload)
        { provider :=
            { intake.provider with payloads := intake.provider.payloads.push payload }
          calls := before ++ after }
  | loop {intake : Intake} {turn : StateProvider.Turn} {provider : Provider}
      (own : ∀ payload blockingMode, turn ≠ .add payload blockingMode)
      (step : StateProvider.Step codec committer intake.provider turn provider) :
      Step intake (.loop turn) { intake with provider := provider }

/-- A peer that starts with a ledger, before any call. -/
def start (ledger : List Block) : Intake :=
  ⟨StateProvider.start ledger, []⟩

/-- The states that turns lead to. -/
inductive ReachableBy (allowed : Intake → Turn → Prop) (ledger : List Block) : Intake → Prop where
  | start : ReachableBy allowed ledger (start ledger)
  | step {intake later : Intake} {turn : Turn}
      (reachable : ReachableBy allowed ledger intake)
      (meets : allowed intake turn)
      (step : Step codec committer nonBlockingCommitMode intake turn later) :
      ReachableBy allowed ledger later

end

/-! ## Circular waits -/

/-- A call waits for room with the payload for which the loop waits. -/
structure Deadlocked (intake : Intake) : Prop where
  full : maxBuffered < intake.buffer.size
  missing : intake.buffer.next ∉ intake.buffer.buf
  waiting : intake.provider.payloads.loop = .waiting
  blocked : ∃ payload, payload.seqNum = intake.buffer.next ∧ ⟨payload, .checking⟩ ∈ intake.calls

/-- A payload that is not refused is expected, or the buffer is below its bound. -/
def Spared (intake : Intake) : Turn → Prop
  | .push payload =>
    ¬ (payload.seqNum < intake.buffer.next ∨ payload.seqNum ∈ intake.buffer.buf) →
      payload.seqNum = intake.buffer.next ∨ intake.buffer.size < maxBuffered
  | _ => True

/-- The payloads besides the expected one do not exceed the bound. -/
def Bounded (buffer : PayloadsBuffer) : Prop := (buffer.buf.erase buffer.next).size ≤ maxBuffered

section

variable {codec : Codec} {committer : Committer} {nonBlockingCommitMode : Bool}
  {initial : List Block} {intake later : Intake} {turn : Turn}
  {buf : ExtTreeMap UInt64 Payload} {seqNum : UInt64}

theorem size_erase_of_not_mem (absent : seqNum ∉ buf) : (buf.erase seqNum).size = buf.size := by
  rw [ExtTreeMap.size_erase, if_neg]
  exact fun present => absent (ExtTreeMap.mem_iff_contains.mpr present)

theorem size_insert_of_not_mem (absent : seqNum ∉ buf) (payload : Payload) :
    (buf.insert seqNum payload).size = buf.size + 1 := by
  rw [ExtTreeMap.size_insert, if_neg]
  exact fun present => absent (ExtTreeMap.mem_iff_contains.mpr present)

variable {payload : Payload}

theorem bounded_push {system : System} (bounded : Bounded system.buffer)
    (spared : ¬ (payload.seqNum < system.buffer.next ∨ payload.seqNum ∈ system.buffer.buf) →
      payload.seqNum = system.buffer.next ∨ system.buffer.size < maxBuffered) :
    Bounded (system.push payload).buffer := by
  rw [System.push]
  split
  next buffer pushed =>
    rw [PayloadsBuffer.push] at pushed
    split_ifs at pushed with refused
    cases pushed
    show ((system.buffer.buf.insert payload.seqNum payload).erase
        system.buffer.next).size ≤ maxBuffered
    rcases spared refused with expected | below
    · have absent : payload.seqNum ∉ system.buffer.buf := fun member => refused (.inr member)
      rw [Bounded, ← expected, size_erase_of_not_mem absent] at bounded
      rw [← expected, ExtTreeMap.size_erase,
        if_pos ExtTreeMap.contains_insert_self, size_insert_of_not_mem absent]
      exact bounded
    · have grown : (system.buffer.buf.insert payload.seqNum payload).size ≤
            system.buffer.buf.size + 1 :=
        ExtTreeMap.size_insert_le
      have shrunk : ((system.buffer.buf.insert payload.seqNum payload).erase
              system.buffer.next).size ≤
            (system.buffer.buf.insert payload.seqNum payload).size :=
        ExtTreeMap.size_erase_le
      have below : system.buffer.buf.size < maxBuffered := below
      omega
  next => exact bounded

theorem bounded_pop {buffer later : PayloadsBuffer}
    (bounded : Bounded buffer) (popped : buffer.pop = some (payload, later)) :
    Bounded later := by
  rw [PayloadsBuffer.pop] at popped
  split at popped
  · cases popped
  · cases popped
    exact ExtTreeMap.size_erase_le.trans bounded

theorem bounded_step (bounded : Bounded intake.buffer) (spared : Spared intake turn)
    (step : Step codec committer nonBlockingCommitMode intake turn later) :
    Bounded later.buffer := by
  cases step with
  | call read admits | check calls _ => exact bounded
  | push calls => exact bounded_push bounded spared
  | loop own step =>
    cases step with
    | add read admits => exact absurd rfl (own _ _)
    | receive running received =>
      cases received
      exact bounded
    | pop running idle draining found => exact bounded_pop bounded found
    | drained running idle draining _ | commit running decoded _ | panic decoded _ => exact bounded
    | stop stopped =>
      cases stopped
      exact bounded

theorem bounded_of_reachable
    (reachable : ReachableBy codec committer nonBlockingCommitMode Spared initial intake) :
    Bounded intake.buffer := by
  induction reachable with
  | start =>
    have empty : (start initial).buffer.buf = ∅ := rfl
    rw [Bounded, empty, ExtTreeMap.erase_empty, ExtTreeMap.size_empty]
    exact Nat.zero_le _
  | step reachable meets step bounded => exact bounded_step bounded meets step

/--
If payloads other than the expected one are only stored while the buffer is
below its bound, the expected one never waits for room while the loop waits for
it.
-/
theorem intake_not_deadlocked
    (reachable : ReachableBy codec committer nonBlockingCommitMode Spared initial intake) :
    ¬ Deadlocked intake := by
  intro deadlocked
  have bounded := bounded_of_reachable reachable
  rw [Bounded, size_erase_of_not_mem deadlocked.missing] at bounded
  exact absurd deadlocked.full (Nat.not_lt.mpr bounded)

end

/-! ## A missing block -/

namespace Sample

open StateProvider.Sample (genesis codec committer)

def numbered (seqNum : Nat) : Payload :=
  ⟨UInt64.ofNat seqNum, none⟩

/-- The payloads after the second block, up to a number, are in the buffer. -/
structure Ahead (count : Nat) (intake : Intake) : Prop where
  calls : intake.calls = []
  waiting : intake.provider.payloads.loop = .waiting
  next : intake.buffer.next = 1
  size : intake.buffer.size = count
  numbers : ∀ seqNum ∈ intake.buffer.buf, 2 ≤ seqNum.toNat ∧ seqNum.toNat < count + 2

theorem push_numbered {buffer : PayloadsBuffer} {count : Nat} (next : buffer.next = 1)
    (few : count ≤ maxBuffered)
    (numbers : ∀ seqNum ∈ buffer.buf, 2 ≤ seqNum.toNat ∧ seqNum.toNat < count + 2) :
    ∃ later, buffer.push (numbered (count + 2)) = .ok later ∧
      later.next = 1 ∧ later.size = buffer.size + 1 ∧
      ∀ seqNum ∈ later.buf, 2 ≤ seqNum.toNat ∧ seqNum.toNat < count + 3 := by
  have bound : maxBuffered = 200 := by decide
  have number : (numbered (count + 2)).seqNum.toNat = count + 2 := by
    apply UInt64.toNat_ofNat_of_lt'
    show count + 2 < 2 ^ 64
    omega
  have absent : (numbered (count + 2)).seqNum ∉ buffer.buf := by
    intro member
    have range := numbers _ member
    omega
  have due : ¬ ((numbered (count + 2)).seqNum < buffer.next ∨
        (numbered (count + 2)).seqNum ∈ buffer.buf) := by
    rintro (early | member)
    · rw [next, UInt64.lt_iff_toNat_lt, number, UInt64.toNat_one] at early
      omega
    · exact absent member
  have stores : ∃ later, buffer.push (numbered (count + 2)) = .ok later ∧
        later.buf = buffer.buf.insert (numbered (count + 2)).seqNum (numbered (count + 2)) := by
    rw [PayloadsBuffer.push, dif_neg due]
    exact ⟨_, rfl, rfl⟩
  rcases stores with ⟨later, pushed, stored⟩
  refine ⟨later, pushed, ?_, ?_, ?_⟩
  · exact (PayloadsBuffer.push_ok pushed).1.trans next
  · rw [PayloadsBuffer.size, stored, size_insert_of_not_mem absent]
    rfl
  intro seqNum member
  rcases (PayloadsBuffer.push_ok pushed).2 seqNum |>.mp member with
    rfl | earlier
  · omega
  · have range := numbers seqNum earlier
    omega

theorem admitPayload_blocking (payload : Payload) (ledgerHeight : UInt64) :
    admitPayload (some payload) (some ledgerHeight) true = .ok payload := by
  simp only [admitPayload, bind_ok_iff, ofOption_ok_iff, require_ok_iff]
  exact ⟨payload, rfl, ledgerHeight, rfl, (), .inl trivial, rfl⟩

theorem reaches_ahead {allowed : Intake → Turn → Prop} (count : Nat)
    (few : count ≤ maxBuffered + 1)
    (allows : ∀ intake turn, (∀ payload, turn = .push payload → intake.buffer.size < count) →
      allowed intake turn) :
    ∃ intake, ReachableBy codec committer false allowed [genesis] intake ∧
        Ahead count intake := by
  induction count with
  | zero =>
    refine ⟨_, .start, rfl, rfl, rfl, ?_, ?_⟩
    · exact ExtTreeMap.size_empty
    · intro seqNum member
      exact absurd member ExtTreeMap.not_mem_empty
  | succ count ih =>
    have room : count ≤ maxBuffered := Nat.le_of_succ_le_succ few
    rcases ih (room.trans (Nat.le_succ _)) (fun intake turn small => allows intake turn
        fun payload pushes => (small payload pushes).trans (Nat.lt_succ_self count)) with
      ⟨intake, reachable, ahead⟩
    rcases push_numbered ahead.next room ahead.numbers with ⟨buffer, pushed, next, size, numbers⟩
    have call : Step codec committer false intake
          (.call .deliver (some (numbered (count + 2)))) _ :=
      .call (.inr rfl) (admitPayload_blocking _ _)
    have called := reachable.step (allows _ _ fun _ pushes => by cases pushes) call
    have calls : intake.calls ++ [⟨numbered (count + 2),
              Stage.first (blockingMode false .deliver)⟩] =
          [] ++ ⟨numbered (count + 2), .checking⟩ :: [] := by
      rw [ahead.calls]
      rfl
    have checked := called.step (allows _ _ fun _ pushes => by cases pushes)
        (.check calls (ahead.size.trans_le room))
    have stored := checked.step (allows _ _ fun _ _ => ahead.size.trans_lt (Nat.lt_succ_self count))
        (.push rfl)
    have pushedTo : (intake.provider.payloads.push (numbered (count + 2))).buffer =
          buffer := by
      have pushed : intake.provider.payloads.buffer.push (numbered (count + 2)) =
            .ok buffer := pushed
      rw [System.push, pushed]
    refine ⟨_, stored, rfl, ?_, ?_, ?_, ?_⟩
    · exact (System.loop_push _ _).trans ahead.waiting
    · show (System.push _ _).buffer.next = 1
      rw [pushedTo]
      exact next
    · show (System.push _ _).buffer.size = _
      rw [pushedTo, size, ahead.size]
    · show ∀ seqNum ∈ (System.push _ _).buffer.buf, _
      rw [pushedTo]
      exact numbers

end Sample

open StateProvider.Sample (genesis codec committer)

/-- A call that brings the expected payload to a buffer that is at its bound. -/
theorem intake_not_deadlocked_first :
    ∃ intake, ReachableBy codec committer false Spared [genesis] intake ∧
        intake.buffer.size = maxBuffered ∧
        intake.calls = [⟨Sample.numbered 1, .checking⟩] ∧ ¬ Deadlocked intake := by
  have spares : ∀ intake turn,
      (∀ payload, turn = .push payload → intake.buffer.size < maxBuffered) → Spared intake turn := by
    intro intake turn small
    cases turn with
    | push payload => exact fun _ => .inr (small payload rfl)
    | call | check | loop => trivial
  rcases Sample.reaches_ahead maxBuffered (Nat.le_succ _) spares with ⟨intake, before, ahead⟩
  have call : Step codec committer false intake (.call .stateResponse (some (Sample.numbered 1))) _ :=
    .call (.inr rfl) (Sample.admitPayload_blocking _ _)
  have spared : Spared intake (.call .stateResponse (some (Sample.numbered 1))) := trivial
  have reachable := before.step spared call
  exact ⟨_, reachable, ahead.size, by rw [ahead.calls]; rfl, intake_not_deadlocked reachable⟩

/--
The block after the genesis block is missing while as many others arrive as the
buffer takes; then it comes with a response to a state request.
-/
theorem intake_deadlocks :
    ∃ intake, ReachableBy codec committer false (fun _ _ => True) [genesis] intake ∧
        Deadlocked intake := by
  rcases Sample.reaches_ahead (maxBuffered + 1) le_rfl (fun _ _ _ => trivial) with
    ⟨intake, reachable, ahead⟩
  have call : Step codec committer false intake (.call .stateResponse (some (Sample.numbered 1))) _ :=
    .call (.inr rfl) (Sample.admitPayload_blocking _ _)
  refine ⟨_, reachable.step trivial call, ?_⟩
  refine ⟨?_, ?_, ahead.waiting, Sample.numbered 1, ahead.next.symm, ?_⟩
  · exact ahead.size.symm ▸ Nat.lt_succ_self _
  · intro member
    have range := (ahead.numbers intake.buffer.next member).1
    rw [ahead.next] at range
    exact absurd range (by decide)
  · exact List.mem_append_right _ (List.mem_singleton_self _)

end Fabric.Gossip.BackPressure
