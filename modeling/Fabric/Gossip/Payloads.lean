import Fabric.Gossip.Message
import Fabric.Library.Log

/-!
# The buffer of payloads

Payloads arrive in any order and are handed on in the order of their numbers.
The buffer holds those that cannot be handed on yet, and the number that is
expected next.  When the expected payload arrives, a notification is sent to
the loop that hands payloads on; it is sent by a process of its own and stays
outstanding until the loop receives it.  The loop then takes payloads out of
the buffer until the expected one is missing, and waits again.

Storing a payload and taking one out exclude each other.  The calls that store
payloads and the steps of the loop are interleaved in any way.
-/

namespace Fabric.Gossip.Payloads

open Std (ExtTreeMap)
open Library Message

/-! ## Buffers -/

/-- A buffer, whose payloads are stored under their numbers and still due. -/
structure PayloadsBuffer where
  next : UInt64
  buf : ExtTreeMap UInt64 Payload
  keyed : ∀ {seqNum : UInt64} {payload : Payload},
    buf[seqNum]? = some payload → payload.seqNum = seqNum
  ahead : ∀ {seqNum : UInt64}, seqNum ∈ buf → next ≤ seqNum

/-- Why a payload is not stored. -/
inductive PushError where
  | alreadyProcessed (seqNum : UInt64)
deriving DecidableEq

theorem add_one_le_of_lt {lower upper : UInt64} (order : lower < upper) : lower + 1 ≤ upper := by
  have below := UInt64.lt_iff_toNat_lt.mp order
  have size := upper.toNat_lt
  rw [UInt64.le_iff_toNat_le, UInt64.toNat_add, UInt64.toNat_one]
  omega

namespace PayloadsBuffer

def new (next : UInt64) : PayloadsBuffer where
  next := next
  buf := ∅
  keyed := by simp
  ahead := by simp

variable (buffer : PayloadsBuffer)

/-- Stores a payload that is new and not yet taken. -/
def push (payload : Payload) : Outcome PushError PayloadsBuffer :=
  if refused : payload.seqNum < buffer.next ∨ payload.seqNum ∈ buffer.buf then
    .error (.alreadyProcessed payload.seqNum)
  else
    .ok
      { next := buffer.next
        buf := buffer.buf.insert payload.seqNum payload
        keyed := by
          intro seqNum stored found
          rw [ExtTreeMap.getElem?_insert] at found
          split at found
          next same =>
            cases found
            exact Std.LawfulEqCmp.eq_of_compare same
          next => exact buffer.keyed found
        ahead := by
          intro seqNum member
          rcases ExtTreeMap.mem_insert.mp member with same | stored
          · rw [← Std.LawfulEqCmp.eq_of_compare same]
            exact UInt64.not_lt.mp fun late => refused (.inl late)
          · exact buffer.ahead stored }

/-- Takes the next payload. -/
def pop : Option (Payload × PayloadsBuffer) :=
  match buffer.buf[buffer.next]? with
  | none => none
  | some result =>
    some (result,
        { next := buffer.next + 1
          buf := buffer.buf.erase buffer.next
          keyed := by
            intro seqNum stored found
            rw [ExtTreeMap.getElem?_erase] at found
            split at found
            · cases found
            · exact buffer.keyed found
          ahead := by
            intro seqNum member
            rw [ExtTreeMap.mem_erase] at member
            have due := buffer.ahead member.2
            have other : buffer.next ≠ seqNum := by
              rintro rfl
              exact member.1 Std.ReflCmp.compare_self
            exact add_one_le_of_lt (UInt64.lt_of_le_of_ne due other) })

def size : Nat := buffer.buf.size

variable {buffer} {later : PayloadsBuffer} {payload : Payload}

theorem push_ok (pushed : buffer.push payload = .ok later) :
    later.next = buffer.next ∧ ∀ seqNum, seqNum ∈ later.buf ↔
        payload.seqNum = seqNum ∨ seqNum ∈ buffer.buf := by
  rw [push] at pushed
  split at pushed
  · cases pushed
  · cases pushed
    refine ⟨rfl, ?_⟩
    intro seqNum
    rw [ExtTreeMap.mem_insert, Std.LawfulEqCmp.compare_eq_iff_eq]

theorem pop_eq_some (popped : buffer.pop = some (payload, later)) :
    buffer.buf[buffer.next]? = some payload ∧ payload.seqNum = buffer.next ∧
      later.next = buffer.next + 1 := by
  rw [pop] at popped
  split at popped
  · cases popped
  next _ found =>
    cases popped
    exact ⟨found, buffer.keyed found, rfl⟩

theorem pop_eq_none_iff : buffer.pop = none ↔ buffer.next ∉ buffer.buf := by
  rw [pop, ExtTreeMap.mem_iff_isSome_getElem?]
  split <;> simp_all

end PayloadsBuffer

/-! ## The loop -/

/-- What the loop that drains a buffer is doing. -/
inductive Loop where
  | waiting
  | draining
  | stopped
deriving DecidableEq

/--
A buffer and the loop that drains it, with the notifications that are
outstanding and the payloads that were taken out so far.
-/
structure System where
  buffer : PayloadsBuffer
  loop : Loop
  notifications : Nat
  popped : List Payload

/-- A turn of a buffer or of the loop. -/
inductive Turn where
  | push (payload : Payload)
  | receive
  | pop
  | stop

def System.start (next : UInt64) : System :=
  ⟨PayloadsBuffer.new next, .waiting, 0, []⟩

/-- A call to store a payload; one that fails changes nothing. -/
def System.push (system : System) (payload : Payload) : System :=
  match system.buffer.push payload with
  | .ok buffer =>
    { system with
      buffer := buffer
      notifications := if payload.seqNum = system.buffer.next then
          system.notifications + 1
        else
          system.notifications }
  | _ => system

@[simp]
theorem System.next_push (system : System) (payload : Payload) :
    (system.push payload).buffer.next = system.buffer.next := by
  rw [System.push]
  split
  next buffer pushed => exact (PayloadsBuffer.push_ok pushed).1
  next => rfl

@[simp]
theorem System.loop_push (system : System) (payload : Payload) :
    (system.push payload).loop = system.loop := by
  rw [System.push]
  split <;> rfl

@[simp]
theorem System.popped_push (system : System) (payload : Payload) :
    (system.push payload).popped = system.popped := by
  rw [System.push]
  split <;> rfl

/-- The steps of a buffer and of its loop. -/
inductive Step : System → Turn → System → Prop where
  | push {system : System} (payload : Payload) : Step system (.push payload) (system.push payload)
  | receive {system : System} {notifications : Nat}
      (waiting : system.loop = .waiting)
      (outstanding : system.notifications = notifications + 1) :
      Step system .receive { system with loop := .draining, notifications := notifications }
  | pop {system : System} {payload : Payload} {buffer : PayloadsBuffer}
      (draining : system.loop = .draining)
      (found : system.buffer.pop = some (payload, buffer)) :
      Step system .pop
        { system with
          buffer := buffer
          popped := system.popped ++ [payload] }
  | drained {system : System}
      (draining : system.loop = .draining)
      (missing : system.buffer.pop = none) :
      Step system .pop { system with loop := .waiting }
  | stop {system : System} (waiting : system.loop = .waiting) :
      Step system .stop { system with loop := .stopped }

/-- The states that turns lead to. -/
inductive Reachable (initial : UInt64) : System → Prop where
  | start : Reachable initial (System.start initial)
  | step {system later : System} {turn : Turn}
      (reachable : Reachable initial system)
      (step : Step system turn later) : Reachable initial later

/-! ## Order -/

/-- The payloads have been taken out one number after the other. -/
structure InOrder (initial : UInt64) (system : System) : Prop where
  next : system.buffer.next = initial + UInt64.ofNat system.popped.length
  popped : ∀ (position : Nat) (payload : Payload), system.popped[position]? = some payload →
      payload.seqNum = initial + UInt64.ofNat position

/-- A loop that waits for the expected payload will be notified. -/
def WakesUp (system : System) : Prop :=
  system.loop = .waiting → system.buffer.next ∈ system.buffer.buf → 0 < system.notifications

section

variable {initial : UInt64} {system later : System} {turn : Turn}

theorem InOrder.step (order : InOrder initial system) (step : Step system turn later) :
    InOrder initial later := by
  cases step with
  | push payload => exact ⟨by simpa using order.next, by simpa using order.popped⟩
  | receive waiting _ => exact ⟨order.next, order.popped⟩
  | pop draining found =>
    rcases PayloadsBuffer.pop_eq_some found with ⟨_, number, next⟩
    constructor
    · simp only [next, order.next, List.length_append,
        List.length_singleton, UInt64.ofNat_add, UInt64.add_assoc]
      rfl
    · intro position payload present
      rcases Log.getElem?_concat_eq_some_iff.mp present with
        old | ⟨rfl, rfl⟩
      · exact order.popped position payload old
      · rw [number, order.next]
  | drained draining _ | stop waiting => exact ⟨order.next, order.popped⟩

theorem WakesUp.push (wakes : WakesUp system) (payload : Payload) :
    WakesUp (system.push payload) := by
  rw [System.push]
  split
  next buffer pushed =>
    rcases PayloadsBuffer.push_ok pushed with ⟨kept, stored⟩
    intro waiting member
    rw [kept, stored] at member
    by_cases expected : payload.seqNum = system.buffer.next
    · simp [expected]
    · have earlier := member.resolve_left expected
      simpa [expected] using wakes waiting earlier
  next => exact wakes

theorem WakesUp.step (wakes : WakesUp system) (step : Step system turn later) : WakesUp later := by
  cases step with
  | push payload => exact wakes.push payload
  | receive waiting _ => rintro ⟨⟩
  | pop draining _ =>
    intro waiting
    rw [draining] at waiting
    cases waiting
  | drained draining missing =>
    intro _ member
    exact absurd member (PayloadsBuffer.pop_eq_none_iff.mp missing)
  | stop waiting => rintro ⟨⟩

end

/-! ## Runs -/

section

variable {initial : UInt64} {system : System}

theorem inOrder_of_reachable (reachable : Reachable initial system) : InOrder initial system := by
  induction reachable with
  | start =>
    constructor
    · simp [System.start, PayloadsBuffer.new]
    · simp [System.start]
  | step reachable step order => exact order.step step

theorem wakesUp_of_reachable (reachable : Reachable initial system) : WakesUp system := by
  induction reachable with
  | start =>
    intro _ member
    simp [System.start, PayloadsBuffer.new] at member
  | step reachable step wakes => exact wakes.step step

section

variable (order : InOrder initial system)
  (bounded : initial.toNat + system.popped.length ≤ UInt64.size)
include order bounded

/-- Before the numbers wrap around, they are those of the positions. -/
theorem InOrder.toNat_seqNum
    {position : Nat} {payload : Payload} (present : system.popped[position]? = some payload) :
    payload.seqNum.toNat = initial.toNat + position := by
  have inside := Log.lt_length_of_getElem? present
  simp only [UInt64.size] at bounded
  rw [order.popped position payload present, UInt64.toNat_add, UInt64.toNat_ofNat']
  omega

theorem InOrder.nodup : (system.popped.map Payload.seqNum).Nodup := by
  rw [List.nodup_iff_getElem?_ne_getElem?]
  intro _ _ before inside
  rw [List.length_map] at inside
  have left := List.getElem?_eq_getElem (Nat.lt_trans before inside)
  have right := List.getElem?_eq_getElem inside
  rw [List.getElem?_map, List.getElem?_map, left, right]
  intro same
  have numbers := congrArg UInt64.toNat (Option.some.inj same)
  rw [order.toNat_seqNum bounded left, order.toNat_seqNum bounded right] at numbers
  omega

end

/--
However calls and steps interleave, payloads are taken out in the order of
their numbers, in the arithmetic of words, and without a repetition before the
numbers wrap around; what is stored is still due; and the loop does not wait
for a payload that is there unless a notification is outstanding.
-/
theorem payloads_in_order (reachable : Reachable initial system) :
    (∀ (position : Nat) (payload : Payload), system.popped[position]? = some payload →
        payload.seqNum = initial + UInt64.ofNat position) ∧
      (initial.toNat + system.popped.length ≤ UInt64.size →
        (system.popped.map Payload.seqNum).Nodup ∧ ∀ (position : Nat) (payload : Payload),
            system.popped[position]? = some payload →
              payload.seqNum.toNat = initial.toNat + position) ∧
      (∀ (seqNum : UInt64) (payload : Payload), system.buffer.buf[seqNum]? = some payload →
          system.buffer.next ≤ payload.seqNum) ∧
      (system.loop = .waiting → system.buffer.next ∈ system.buffer.buf →
          0 < system.notifications) := by
  have order := inOrder_of_reachable reachable
  refine ⟨order.popped, ?_, ?_, wakesUp_of_reachable reachable⟩
  · intro bounded
    exact ⟨order.nodup bounded, fun _ _ => order.toNat_seqNum bounded⟩
  · intro seqNum payload stored
    rw [system.buffer.keyed stored]
    apply system.buffer.ahead
    rw [ExtTreeMap.mem_iff_isSome_getElem?, stored]
    rfl

end

/-! The payload after the expected one arrives first. -/

namespace Sample

def first : Payload := ⟨5, some [1]⟩

def second : Payload := ⟨6, some [2]⟩

/-- Both payloads have arrived, and the loop still waits. -/
def arrived : System := ((System.start 5).push second).push first

theorem reaches_arrived : Reachable 5 arrived := by
  have started : Reachable 5 (System.start 5) := .start
  exact (started.step (.push second)).step (.push first)

end Sample

theorem payloads_in_order_arrived :
    Reachable 5 Sample.arrived ∧ Sample.arrived.loop = .waiting ∧
      Sample.arrived.buffer.next ∈ Sample.arrived.buffer.buf ∧
      0 < Sample.arrived.notifications := by
  have waiting : Sample.arrived.loop = .waiting := by decide +kernel
  have member : Sample.arrived.buffer.next ∈ Sample.arrived.buffer.buf := by
    decide +kernel
  exact ⟨Sample.reaches_arrived, waiting, member,
      (payloads_in_order Sample.reaches_arrived).2.2.2 waiting member⟩

end Fabric.Gossip.Payloads
