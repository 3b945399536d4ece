import Fabric.Gossip.Payloads

/-!
# Committing payloads in order

The delivery loop takes payloads out of the buffer, decodes the blocks in them
and commits these to the ledger.  The buffer counts a payload as done when it
is taken out, before it is known whether there is a block in it.

A payload that does not decode to a block with a header and data is dropped.
The number that the buffer expects then runs ahead of the height of the ledger,
and the block can no longer be supplied.  In runs without such payloads the two
agree whenever the loop waits.
-/

namespace Fabric.Gossip.StateProvider

open Library Outcome ByteString
open Protos (Block BlockHeader BlockData Codec)
open Message Payloads

/-! ## Adding payloads -/

def defMaxBlockDistance : UInt64 := 100

/-- Why a payload is not added. -/
inductive AddError where
  | nilPayload
  | ledgerHeight
  | tooFar (height seqNum : UInt64)
  | push (reason : PushError)
deriving DecidableEq

/--
The payload that is to be stored, given what the ledger reported as its height.
A blocking call waits for room in the buffer; another one refuses payloads that
are far ahead.
-/
def admitPayload (payload : Option Payload) (ledgerHeight : Option UInt64)
    (blockingMode : Bool) : Outcome AddError Payload := do
  let payload ← ofOption .nilPayload payload
  let height ← ofOption .ledgerHeight ledgerHeight
  require (blockingMode = true ∨ payload.seqNum - height < defMaxBlockDistance)
    (.tooFar height payload.seqNum)
  .ok payload

/-! ## Committing blocks -/

/-- What commits blocks, apart from the check of their numbers. -/
structure Committer where
  accepts : List Block → Block → Bool

def height (ledger : List Block) : UInt64 := UInt64.ofNat ledger.length

/-- Commit a block, which must have the number of the next block. -/
def Committer.commit (committer : Committer) (ledger : List Block) (block : Block) :
    Outcome Unit (List Block) := do
  let header ← deref block.header
  require (committer.accepts ledger block = true) ()
  require (header.number = height ledger) ()
  .ok (ledger ++ [block])

/-- The block in a payload, with a header and data. -/
def rawBlock (codec : Codec) (payload : Payload) : Option Block :=
  (codec.unmarshalBlock payload.data.bytes).filter fun block =>
    block.data.isSome && block.header.isSome

/-! ## The delivery loop -/

/-- The buffer with its loop, the ledger and the block to be committed. -/
structure Provider where
  payloads : System
  ledger : List Block
  committing : Option Block
  panicked : Bool

/-- A turn of a provider. -/
inductive Turn where
  | add (payload : Option Payload) (blockingMode : Bool)
  | receive
  | pop
  | commit
  | stop

section

variable (codec : Codec) (committer : Committer)

/--
The steps of the callers and of the delivery loop.  The height that a caller has
read may be an older one.  A commit that fails panics.
-/
inductive Step : Provider → Turn → Provider → Prop where
  | add {provider : Provider} {payload : Option Payload}
      {ledgerHeight : Option UInt64} {blockingMode : Bool}
      {admitted : Payload}
      (read : ∀ height ∈ ledgerHeight, height ≤ StateProvider.height provider.ledger)
      (admits : admitPayload payload ledgerHeight blockingMode = .ok admitted) :
      Step provider (.add payload blockingMode)
        { provider with payloads := provider.payloads.push admitted }
  | receive {provider : Provider} {payloads : System}
      (running : provider.panicked = false)
      (received : Payloads.Step provider.payloads .receive payloads) :
      Step provider .receive { provider with payloads }
  | pop {provider : Provider} {payload : Payload} {buffer : PayloadsBuffer}
      (running : provider.panicked = false)
      (idle : provider.committing = none)
      (draining : provider.payloads.loop = .draining)
      (found : provider.payloads.buffer.pop = some (payload, buffer)) :
      Step provider .pop
        { provider with
          payloads :=
            { provider.payloads with
              buffer := buffer
              popped := provider.payloads.popped ++ [payload] }
          committing := rawBlock codec payload }
  | drained {provider : Provider}
      (running : provider.panicked = false)
      (idle : provider.committing = none)
      (draining : provider.payloads.loop = .draining)
      (missing : provider.payloads.buffer.pop = none) :
      Step provider .pop
        { provider with payloads := { provider.payloads with loop := .waiting } }
  | commit {provider : Provider} {block : Block} {ledger : List Block}
      (running : provider.panicked = false)
      (decoded : provider.committing = some block)
      (commits : committer.commit provider.ledger block = .ok ledger) :
      Step provider .commit { provider with ledger := ledger, committing := none }
  | panic {provider : Provider} {block : Block}
      (decoded : provider.committing = some block)
      (fails : ∀ ledger, committer.commit provider.ledger block ≠ .ok ledger) :
      Step provider .commit { provider with panicked := true }
  | stop {provider : Provider} {payloads : System}
      (stopped : Payloads.Step provider.payloads .stop payloads) :
      Step provider .stop { provider with payloads }

/-- A provider that starts with a ledger. -/
def start (ledger : List Block) : Provider :=
  ⟨System.start (height ledger), ledger, none, false⟩

/-- The states that turns lead to. -/
inductive ReachableBy (allowed : Provider → Turn → Prop) (ledger : List Block) :
    Provider → Prop where
  | start : ReachableBy allowed ledger (start ledger)
  | step {provider later : Provider} {turn : Turn}
      (reachable : ReachableBy allowed ledger provider)
      (meets : allowed provider turn)
      (step : Step codec committer provider turn later) :
      ReachableBy allowed ledger later

end

variable {allowed : Provider → Turn → Prop}

section

variable {codec : Codec} {committer : Committer} {initial : List Block} {provider later : Provider}
  {turn : Turn}

/-! ## The height and the expected number -/

variable {ledger grown : List Block} {block : Block}

theorem exists_of_commit (commits : committer.commit ledger block = .ok grown) :
    grown = ledger ++ [block] ∧ ∃ header,
        block.header = some header ∧ header.number = height ledger := by
  simp only [Committer.commit, bind_ok_iff, deref_ok_iff, require_ok_iff,
    Outcome.ok.injEq] at commits
  rcases commits with ⟨header, hasHeader, _, _, _, numbered, rfl⟩
  exact ⟨rfl, header, hasHeader, numbered⟩

/-- The payload to be taken out next holds a block with a header and data. -/
def Decodes (codec : Codec) (provider : Provider) : Turn → Prop
  | .pop =>
    ∀ payload ∈ provider.payloads.buffer.buf[provider.payloads.buffer.next]?,
      (rawBlock codec payload).isSome = true
  | _ => True

/-- The blocks after the initial ones are numbered by their positions. -/
def CommitsInOrder (initial ledger : List Block) : Prop :=
  initial <+: ledger ∧ ∀ (position : Nat) (block : Block),
      initial.length ≤ position → ledger[position]? = some block → ∃ header,
          block.header = some header ∧ header.number = UInt64.ofNat position

/-- The expected number is the height, plus one if a block is on its way. -/
structure Follows (provider : Provider) : Prop where
  idle : provider.committing = none → provider.payloads.buffer.next = height provider.ledger
  committing : ∀ block ∈ provider.committing,
      provider.payloads.buffer.next = height provider.ledger + 1
  waiting : provider.payloads.loop = .waiting → provider.committing = none

theorem Follows.step (follows : Follows provider) (meets : Decodes codec provider turn)
    (step : Step codec committer provider turn later) : Follows later := by
  cases step with
  | add _ _ =>
    exact ⟨by simpa using follows.idle, by simpa using follows.committing,
        by simpa using follows.waiting⟩
  | receive running received =>
    cases received with
    | receive waiting _ => exact ⟨follows.idle, follows.committing, by rintro ⟨⟩⟩
  | pop running idle draining found =>
    rcases PayloadsBuffer.pop_eq_some found with ⟨stored, _, next⟩
    rcases Option.isSome_iff_exists.mp (meets _ stored) with ⟨block, decoded⟩
    have expected := follows.idle idle
    refine ⟨?_, ?_, ?_⟩
    · simp [decoded]
    · intro block _
      change _ = height provider.ledger + 1
      rw [← expected]
      exact next
    · intro waiting
      rw [draining] at waiting
      cases waiting
  | drained running idle draining _ => exact ⟨follows.idle, follows.committing, fun _ => idle⟩
  | commit running decoded commits =>
    rcases exists_of_commit commits with ⟨rfl, _⟩
    refine ⟨?_, by simp, fun _ => rfl⟩
    intro _
    change _ = height (provider.ledger ++ [_])
    simp only [height, List.length_append, List.length_singleton, UInt64.ofNat_add]
    exact follows.committing _ decoded
  | panic decoded _ => exact ⟨follows.idle, follows.committing, follows.waiting⟩
  | stop stopped =>
    cases stopped with
    | stop waiting => exact ⟨follows.idle, follows.committing, by rintro ⟨⟩⟩

theorem CommitsInOrder.commit (ordered : CommitsInOrder initial ledger)
    (commits : committer.commit ledger block = .ok grown) :
    CommitsInOrder initial grown := by
  rcases exists_of_commit commits with ⟨rfl, header, hasHeader, numbered⟩
  rcases ordered with ⟨extends_, ordered⟩
  refine ⟨extends_.trans (List.prefix_append _ _), ?_⟩
  intro position found after present
  rcases Log.getElem?_concat_eq_some_iff.mp present with old | ⟨rfl, rfl⟩
  · exact ordered position found after old
  · exact ⟨header, hasHeader, numbered⟩

/-- Blocks are committed one number after the other in every run. -/
theorem commitsInOrder_of_reachable
    (reachable : ReachableBy codec committer allowed initial provider) :
    CommitsInOrder initial provider.ledger := by
  induction reachable with
  | start =>
    refine ⟨List.prefix_rfl, ?_⟩
    intro _ _ after present
    have inside := Log.lt_length_of_getElem? present
    exact absurd inside (Nat.not_lt.mpr after)
  | step reachable _ step ih =>
    cases step with
    | commit running decoded commits => exact ih.commit commits
    | add _ _ | receive running _ => exact ih
    | pop running idle draining _ | drained running idle draining _ | panic decoded _ | stop _ =>
      exact ih

theorem follows_of_reachable
    (reachable : ReachableBy codec committer (Decodes codec) initial provider) :
    Follows provider := by
  induction reachable with
  | start =>
    refine ⟨fun _ => rfl, ?_, fun _ => rfl⟩
    intro _ member
    cases member
  | step reachable meets step ih => exact ih.step meets step

/-- The next block of the ledger can be stored, if it is not there already. -/
def CanBeSupplied (provider : Provider) : Prop :=
  ∀ payload : Payload, payload.seqNum = height provider.ledger →
      payload.seqNum ∉ provider.payloads.buffer.buf →
        ∃ buffer, provider.payloads.buffer.push payload = .ok buffer

theorem canBeSupplied_of_next (expected : provider.payloads.buffer.next = height provider.ledger) :
    CanBeSupplied provider := by
  intro payload number missing
  have due : ¬ payload.seqNum < provider.payloads.buffer.next := by
    rw [expected, number]
    exact UInt64.lt_irrefl _
  rw [PayloadsBuffer.push, dif_neg (by simp [due, missing])]
  exact ⟨_, rfl⟩

/--
As long as the payloads that are taken out hold blocks, these are committed one
number after the other, and whenever the loop waits the buffer expects the next
block of the ledger, which can still be supplied.
-/
theorem next_eq_height_when_waiting
    (reachable : ReachableBy codec committer (Decodes codec) initial provider) :
    CommitsInOrder initial provider.ledger ∧ (provider.payloads.loop = .waiting →
        provider.payloads.buffer.next = height provider.ledger ∧ CanBeSupplied provider) := by
  refine ⟨commitsInOrder_of_reachable reachable, ?_⟩
  intro waiting
  have follows := follows_of_reachable reachable
  have expected := follows.idle (follows.waiting waiting)
  exact ⟨expected, canBeSupplied_of_next expected⟩

end

namespace Sample

/-! A peer that has the first block of a channel and is sent the second one. -/

def genesis : Block := ⟨some ⟨0, none, none⟩, some ⟨[]⟩, none⟩

def second : Block := ⟨some ⟨1, none, none⟩, some ⟨[]⟩, none⟩

def encodedSecond : Bytes := [10, 2, 8, 1, 18, 0]

/-- No bytes at all are a block without any part. -/
def codec : Codec :=
  { Codec.rejecting with
    unmarshalBlock := fun bytes =>
      if bytes = [] then
        some ⟨none, none, none⟩
      else if bytes = encodedSecond then some second
      else none }

def committer : Committer := ⟨fun _ _ => true⟩

def empty : Payload := ⟨1, none⟩

def proper : Payload := ⟨1, some encodedSecond⟩

section

variable {payload : Payload}

/-- The payload is the only one in the buffer, and it is expected. -/
def isAlone (payload : Payload) : Bool :=
  decide (((System.start 1).push payload).notifications = 1 ∧
      (((System.start 1).push payload).buffer.pop.map fun result =>
        (result.1, result.2.pop.isNone)) = some (payload, true))

theorem reaches_popped
    (adds : ∀ provider payload blockingMode, allowed provider (.add payload blockingMode))
    (receives : ∀ provider, allowed provider .receive)
    (pops : ∀ provider, provider.payloads.buffer.buf[provider.payloads.buffer.next]? =
          some payload →
        allowed provider .pop)
    (alone : isAlone payload = true) :
    ∃ buffer : PayloadsBuffer, buffer.next = 2 ∧ buffer.pop = none ∧
        ReachableBy codec committer allowed [genesis] ⟨⟨buffer, .draining, 0, [payload]⟩, [genesis],
            rawBlock codec payload, false⟩ := by
  rcases of_decide_eq_true alone with ⟨notified, drains⟩
  rcases Option.map_eq_some_iff.mp drains with ⟨⟨taken, buffer⟩, found, same⟩
  rcases Prod.mk.inj same with ⟨expected, missing⟩
  change taken = payload at expected
  rw [expected] at found
  rcases PayloadsBuffer.pop_eq_some found with ⟨stored, _, next⟩
  refine ⟨buffer, next.trans (by simp [System.start, PayloadsBuffer.new]),
    Option.isNone_iff_eq_none.mp missing, ?_⟩
  have started : ReachableBy codec committer allowed [genesis] (start [genesis]) := .start
  have read : ∀ reported ∈ some (1 : UInt64), reported ≤ height [genesis] := by
    simp [height]
  have added := started.step (adds _ (some payload) true) (.add read
        (show admitPayload (some payload) (some 1) true = .ok payload from rfl))
  have received := added.step (receives _)
      (.receive rfl (.receive (by simp [start, System.start]) notified))
  have popped := received.step (pops _ stored) (.pop rfl rfl rfl found)
  simpa [start, System.start] using popped

end

end Sample

/-- The second block of a channel is committed. -/
theorem next_eq_height_when_waiting_second :
    ∃ provider, ReachableBy Sample.codec Sample.committer (Decodes Sample.codec)
          [Sample.genesis] provider ∧
        provider.ledger = [Sample.genesis, Sample.second] ∧
        provider.payloads.loop = .waiting ∧
        provider.payloads.buffer.next = height provider.ledger := by
  have decodes : ∀ provider : Provider,
        provider.payloads.buffer.buf[provider.payloads.buffer.next]? = some Sample.proper →
          Decodes Sample.codec provider .pop := by
    intro provider stored payload member
    rw [stored] at member
    cases member
    decide
  rcases Sample.reaches_popped (fun _ _ _ => trivial) (fun _ => trivial) decodes (by decide +kernel)
    with ⟨buffer, _, missing, popped⟩
  have committed := popped.step (show Decodes Sample.codec _ .commit from trivial) (.commit rfl rfl
        (show Sample.committer.commit [Sample.genesis] Sample.second =
          .ok [Sample.genesis, Sample.second] from rfl))
  have drained := committed.step ?_ (.drained rfl rfl rfl missing)
  · exact ⟨_, drained, rfl, rfl, ((next_eq_height_when_waiting drained).2 rfl).1⟩
  · intro payload stored
    have absent := PayloadsBuffer.pop_eq_none_iff.mp missing
    rw [Std.ExtTreeMap.mem_iff_isSome_getElem?] at absent
    exact absurd (Option.isSome_of_mem stored) absent

/--
After an empty payload in its place, the second block is no longer expected
and can no longer be supplied.
-/
theorem next_ne_height_when_waiting :
    ∃ provider, ReachableBy Sample.codec Sample.committer (fun _ _ => True)
          [Sample.genesis] provider ∧
        provider.payloads.loop = .waiting ∧
        provider.payloads.buffer.next ≠ height provider.ledger ∧
        provider.payloads.buffer.push Sample.proper = .error (.alreadyProcessed 1) := by
  rcases @Sample.reaches_popped (fun _ _ => True) Sample.empty (fun _ _ _ => trivial)
      (fun _ => trivial) (fun _ _ => trivial) (by decide +kernel)
    with ⟨buffer, next, missing, popped⟩
  refine ⟨_, popped.step trivial (.drained rfl rfl rfl missing), rfl, ?_, ?_⟩
  · show buffer.next ≠ height [Sample.genesis]
    rw [next]
    decide
  · have late : Sample.proper.seqNum < buffer.next := by
      rw [next]
      decide
    rw [PayloadsBuffer.push, dif_pos (.inl late)]
    rfl

end Fabric.Gossip.StateProvider
