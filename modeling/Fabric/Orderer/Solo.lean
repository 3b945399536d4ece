import Fabric.Orderer.ConfigOrder

/-!
# The solo consensus loop

A single orderer takes messages in the order in which they arrive.  The batch
timer runs while messages are pending, and pending messages are cut when it
expires.  As in `Orderer.Channel`, committers only change the configuration, and
the ledger takes every block.
-/

namespace Fabric.Orderer.Solo

open Library Protos BlockCutter Channel ConfigOrder

/-! ## The loop -/

/-- What the loop of a channel waits for. -/
inductive Event where
  | message (msg : Envelope)
  | timeout
deriving DecidableEq

/-- A channel and whether its timer runs. -/
structure Chain (Config Update : Type) where
  support : ChainSupport Config Update
  timer : Bool

section

variable {Config Update : Type} (rules : Rules Config Update)

/-- Handles a message. -/
def processMessage (chain : Chain Config Update) (msg : Envelope) :
    Outcome Empty (Chain Config Update) := do
  let filtered ← runFilters rules chain.support.config msg
  let (result, cutter) := order rules chain.support msg filtered
  let support := { chain.support with cutter := cutter }
  if result.validTx && result.messageBatches.isEmpty && !chain.timer then
    .ok ⟨support, true⟩
  else
    let written ← writeBatches rules support none result.messageBatches result.committerBatches
    .ok ⟨written, chain.timer && result.messageBatches.isEmpty⟩

/-- Cuts what is pending. -/
def processTimeout (chain : Chain Config Update) : Outcome Empty (Chain Config Update) :=
  let ((batch, committers), cutter) := cut chain.support.cutter
  let support := { chain.support with cutter := cutter }
  if batch.isEmpty then
    .ok ⟨support, false⟩
  else do
    let written ← writeBlock rules support batch committers none
    .ok ⟨written, false⟩

/-- One round of the loop.  A timer that is not running never expires. -/
def main (chain : Chain Config Update) : Event → Outcome Empty (Chain Config Update)
  | .message msg => processMessage rules chain msg
  | .timeout =>
    if chain.timer then processTimeout rules chain else .ok chain

def newChain (config : Config) (ledger : List WrittenBlock) : Chain Config Update :=
  ⟨⟨config, ledger, Receiver.new⟩, false⟩

/-- What the orderer has written when it stops after some blocks. -/
def writeSome (chain : Chain Config Update) (msg : Envelope) (count : Nat) :
    Outcome Empty (ChainSupport Config Update) := do
  let filtered ← runFilters rules chain.support.config msg
  let (result, cutter) := order rules chain.support msg filtered
  writeBatches rules { chain.support with cutter := cutter } none
    (result.messageBatches.take count) (result.committerBatches.take count)

/--
The chains that arise from a genesis block.  The orderer may stop at any time,
also between two blocks, and then loses the pending messages.
-/
inductive Reachable (config : Config) : Chain Config Update → Prop where
  | initial : Reachable config (newChain config [])
  | round
      {chain later : Chain Config Update} {event : Event}
      (reachable : Reachable config chain)
      (runs : main rules chain event = .ok later) :
      Reachable config later
  | restart
      {chain : Chain Config Update} (reachable : Reachable config chain) :
      Reachable config (newChain chain.support.config chain.support.ledger)
  | restartBetweenBlocks
      {chain : Chain Config Update} {msg : Envelope} {count : Nat}
      {written : ChainSupport Config Update}
      (reachable : Reachable config chain)
      (writes : writeSome rules chain msg count = .ok written) :
      Reachable config (newChain written.config written.ledger)

/-! ## Rounds -/

variable {rules} {initial : Config} {chain : Chain Config Update} {msg : Envelope}

theorem processMessage_rejected {reason : Unit}
    (rejected : rules.apply chain.support.config msg = .error reason) :
    processMessage rules chain msg = .ok chain := by
  simp [processMessage, runFilters, rejected, order, ordered, writeBatches]

section

variable (current : Current rules initial chain.support)
include current

theorem processMessage_accepted {committer : Committer Update}
    (passes : rules.apply chain.support.config msg = .ok committer) :
    ∃ later, processMessage rules chain msg = .ok later ∧ Current rules initial later.support := by
  rcases current.exists_writeBatches passes none with ⟨_, writes, after⟩
  simp only [processMessage, runFilters, passes, Outcome.ok_bind]
  split
  next waits =>
    -- Without a batch, writing the batches leaves only the new cutter.
    have none : (order rules chain.support msg (some committer)).1.messageBatches = [] := by
      simp only [Bool.and_eq_true, List.isEmpty_iff] at waits
      exact waits.1.2
    rw [none, writeBatches] at writes
    cases writes
    exact ⟨_, rfl, after⟩
  next =>
    rw [writes]
    exact ⟨_, rfl, after⟩

theorem processTimeout_current :
    ∃ later, processTimeout rules chain = .ok later ∧ Current rules initial later.support := by
  cases empty : chain.support.cutter.pendingBatch.isEmpty with
  | true =>
    refine ⟨newChain _ _, ?_, current_new current.1⟩
    simp only [processTimeout, cut, empty, if_true, newChain]
  | false =>
    rcases current.cut none with ⟨written, writes, after⟩
    refine ⟨⟨written, false⟩, ?_, after⟩
    simp only [processTimeout, cut, empty, Bool.false_eq_true, if_false]
    rw [writes]
    rfl

/--
A round of the loop panics only if a filter panics; otherwise the ledger leads
again to the configuration.
-/
theorem main_current (event : Event) :
    (∃ later, main rules chain event = .ok later ∧ Current rules initial later.support) ∨
      ∃ msg, event = .message msg ∧ rules.apply chain.support.config msg = .panic := by
  cases event with
  | message msg =>
    cases answer : rules.apply chain.support.config msg with
    | ok _ => exact Or.inl (processMessage_accepted current answer)
    | error _ => exact Or.inl ⟨chain, processMessage_rejected answer, current⟩
    | panic => exact Or.inr ⟨msg, rfl, answer⟩
  | timeout =>
    left
    rw [main]
    split
    · exact processTimeout_current current
    · exact ⟨chain, rfl, current⟩

end

/-! ## Runs -/

theorem Reachable.current (reachable : Reachable rules initial chain) :
    Current rules initial chain.support := by
  induction reachable with
  | initial => exact current_new .nil
  | round reachable runs ih =>
    rename_i event
    rcases main_current ih event with ⟨_, ran, current⟩ | ⟨_, rfl, panics⟩
    · rw [runs] at ran
      cases ran
      exact current
    · simp [main, processMessage, runFilters, panics] at runs
  | restart reachable ih => exact current_new ih.1
  | restartBetweenBlocks reachable writes ih =>
    rcases Outcome.bind_ok_iff.mp writes with ⟨_, filters, writes⟩
    exact current_new (ih.leadsTo_of_take filters writes)

end

end Fabric.Orderer.Solo
