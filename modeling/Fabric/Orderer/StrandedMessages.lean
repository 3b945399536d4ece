import Fabric.Orderer.KafkaAgreement
import Fabric.Orderer.Solo

/-!
# Pending messages and the batch timer

Pending messages are written when the batch timer expires, so it has to run
while messages are pending.  Both consensus loops decide about the timer from
the number of batches that the block cutter returns: they start it if there is
none and stop it if there is one.  A message that does not fit into the pending
batch has that batch cut and stays pending itself; the timer is stopped, and
nothing has the message written until another one comes.
-/

namespace Fabric.Orderer.StrandedMessages

open Library Outcome ByteString Protos BlockCutter Channel
open Config.GroupValues (BatchSize)

/-! ## The block cutter -/

variable {Config Update : Type}

section

/--
The message has the pending batch cut and stays pending: it may share a batch,
does not fit into the pending one, and a batch may have more than one message.
-/
def Overflows (batchSize : BatchSize) (r : Receiver (Committer Update))
    (msg : Envelope) (committer : Committer Update) : Prop :=
  standsAlone Committer.isIsolated batchSize (msg, committer) = false ∧
    batchSize.preferredMaxBytes < r.pendingBatchSizeBytes + messageSizeBytes msg ∧
    1 < batchSize.maxMessageCount

/-- The batches that were cut and what is pending after an accepted message. -/
structure Ordering (result : OrderedResult (Committer Update))
    (r : Receiver (Committer Update)) (overflows : Prop) : Prop where
  valid : result.validTx = true
  kept : result.messageBatches = [] → r.pendingBatch ≠ []
  cutAll : ¬ overflows → result.messageBatches ≠ [] → r.pendingBatch = []
  overflow : overflows → result.messageBatches.length = 1 ∧ r.pendingBatch ≠ []

variable {overflows : Prop}

theorem Ordering.fits {result : OrderedResult (Committer Update)}
    {r : Receiver (Committer Update)} (ordering : Ordering result r overflows)
    (none : result.messageBatches = []) : ¬ overflows := by
  intro exceeds
  have one := (ordering.overflow exceeds).1
  rw [none] at one
  cases one

section

variable (batchSize : BatchSize) (r : Receiver (Committer Update)) (msg : Envelope)
  (committer : Committer Update)
include batchSize r msg committer

theorem ordering_orderedShared :
    Ordering (orderedShared batchSize r msg committer).1 (orderedShared batchSize r msg committer).2
      (batchSize.preferredMaxBytes < r.pendingBatchSizeBytes + messageSizeBytes msg ∧
        1 < batchSize.maxMessageCount) := by
  have one : UInt32.ofNat 1 = 1 := rfl
  by_cases exceeds : batchSize.preferredMaxBytes < r.pendingBatchSizeBytes + messageSizeBytes msg
  · by_cases several : 1 < batchSize.maxMessageCount
    · have more : ¬ batchSize.maxMessageCount ≤ 1 := UInt32.not_le.mpr several
      constructor <;> simp [orderedShared, Progress.cutIf, exceeds, several, cut, enqueue,
          Receiver.new, more]
    · have single : batchSize.maxMessageCount ≤ 1 := UInt32.not_lt.mp several
      constructor <;> simp [orderedShared, Progress.cutIf, exceeds, several, cut, enqueue,
          Receiver.new, single]
  · by_cases reached : batchSize.maxMessageCount ≤ UInt32.ofNat (r.pendingBatch ++ [msg]).length
    · constructor <;> simp only [orderedShared, Progress.cutIf, exceeds, decide_false,
          Bool.false_eq_true, if_false, enqueue, reached, decide_true,
          if_true, cut, Receiver.new, false_and, List.nil_append] <;> simp
    · constructor <;> simp only [orderedShared, Progress.cutIf, exceeds, decide_false,
          Bool.false_eq_true, if_false, enqueue, reached] <;> simp

theorem ordering_ordered :
    Ordering (ordered Committer.isIsolated batchSize r msg (some committer)).1
      (ordered Committer.isIsolated batchSize r msg (some committer)).2
      (Overflows batchSize r msg committer) := by
  rw [ordered]
  split_ifs with alone
  · have batches : (orderedAlone r msg committer).1.messageBatches ≠ [] := by
      simp [orderedAlone]
    refine ⟨rfl, fun none => absurd none batches, ?_, ?_⟩
    · intro _ _
      cases pending : r.pendingBatch with
      | nil => simp [orderedAlone, Progress.cutIf, pending]
      | cons _ _ => simp [orderedAlone, Progress.cutIf, pending, cut, Receiver.new]
    · rintro ⟨shared, _⟩
      rw [standsAlone, alone] at shared
      cases shared
  · have shared : standsAlone Committer.isIsolated batchSize (msg, committer) =
          false := by
      rw [standsAlone]
      exact Bool.eq_false_iff.mpr alone
    rcases ordering_orderedShared batchSize r msg committer with ⟨valid, kept, cutAll, overflow⟩
    refine ⟨valid, kept, ?_, ?_⟩
    · intro fits
      exact cutAll fun exceeds => fits ⟨shared, exceeds⟩
    · rintro ⟨_, exceeds⟩
      exact overflow exceeds

end

variable {rules : Rules Config Update} {Reason : Type} {support : ChainSupport Config Update}

theorem cutter_of_writeBlock {written : ChainSupport Config Update} {metadata : Option Int}
    {messages : List Envelope} {committers : List (Committer Update)}
    (writes : (writeBlock rules support messages committers metadata :
        Outcome Reason _) = .ok written) :
    written.cutter = support.cutter := by
  rw [writeBlock, bind_ok_iff] at writes
  rcases writes with ⟨_, _, same⟩
  cases same
  rfl

variable {committers : List (List (Committer Update))} {batches : List (List Envelope)} {offset :
  Option Int}

theorem cutter_of_writeBatches {written : ChainSupport Config Update}
    (writes : (writeBatches rules support offset batches committers :
        Outcome Reason _) = .ok written) :
    written.cutter = support.cutter := by
  induction batches generalizing support offset committers with
  | nil =>
    cases writes
    rfl
  | cons _ batches ih =>
    cases committers with
    | nil => cases writes
    | cons _ _ =>
      rw [writeBatches, bind_ok_iff] at writes
      rcases writes with ⟨_, wrote, writes⟩
      rw [ih writes, cutter_of_writeBlock wrote]

theorem writeBatches_ne_error {reason : Reason} :
    writeBatches rules support offset batches committers ≠ .error reason := by
  induction batches generalizing support offset committers with
  | nil => simp [writeBatches]
  | cons _ batches ih =>
    cases committers with
    | nil => simp [writeBatches]
    | cons _ _ =>
      rw [writeBatches]
      apply bind_ne_error
      · exact bind_ne_error (deref_ne_error _ _) (by simp)
      · exact fun _ _ => ih

end

/-! ## The solo loop -/

section

variable (rules : Rules Config Update)

/-- The batch timer runs while messages are pending and only then. -/
def Timed (chain : Solo.Chain Config Update) : Prop :=
  chain.support.cutter.pendingBatch ≠ [] ↔ chain.timer = true

/-- A message is accepted and has to wait for the batch after the next one. -/
def Strands (chain : Solo.Chain Config Update) : Solo.Event → Prop
  | .timeout => False
  | .message msg =>
    ∃ committer, rules.apply chain.support.config msg = .ok committer ∧
      Overflows (rules.batchSize chain.support.config) chain.support.cutter msg committer

/-- The chains that are reached by rounds in which no message is stranded. -/
inductive SoloRun : Solo.Chain Config Update → Prop where
  | start (config : Config) (ledger : List WrittenBlock) : SoloRun (Solo.newChain config ledger)
  | round {chain later : Solo.Chain Config Update} {event : Solo.Event}
      (before : SoloRun chain)
      (passes : ¬ Strands rules chain event)
      (runs : Solo.main rules chain event = .ok later) :
      SoloRun later

variable {rules} {chain later : Solo.Chain Config Update}

theorem timed_newChain (config : Config) (ledger : List WrittenBlock) :
    Timed (Solo.newChain config ledger : Solo.Chain Config Update) :=
  iff_of_false (fun pending => pending rfl) Bool.false_ne_true

theorem timed_of_processTimeout
    (runs : Solo.processTimeout rules chain = .ok later) : Timed later := by
  cases empty : chain.support.cutter.pendingBatch.isEmpty with
  | true =>
    simp only [Solo.processTimeout, cut, empty, if_true] at runs
    cases runs
    exact timed_newChain _ _
  | false =>
    simp only [Solo.processTimeout, cut, empty, Bool.false_eq_true, if_false, bind_ok_iff] at runs
    rcases runs with ⟨_, writes, same⟩
    cases same
    rw [Timed, cutter_of_writeBlock writes]
    exact iff_of_false (fun pending => pending rfl) Bool.false_ne_true

theorem timed_of_processMessage_iff {msg : Envelope} {committer : Committer Update}
    (accepted : rules.apply chain.support.config msg = .ok committer)
    (runs : Solo.processMessage rules chain msg = .ok later) :
    Timed later ↔ ¬ Overflows (rules.batchSize chain.support.config)
        chain.support.cutter msg committer := by
  have ordering := ordering_ordered (rules.batchSize chain.support.config)
      chain.support.cutter msg committer
  simp only [Solo.processMessage, runFilters, accepted, ok_bind] at runs
  change Ordering (order rules chain.support msg (some committer)).1
    (order rules chain.support msg (some committer)).2 _ at ordering
  generalize order rules chain.support msg (some committer) = outcome at runs ordering
  rcases outcome with ⟨result, cutter⟩
  rw [ordering.valid, Bool.true_and] at runs
  cases batches : result.messageBatches with
  | nil =>
    -- without a batch the timer runs afterwards
    have pending := ordering.kept batches
    have fits := ordering.fits batches
    refine iff_of_true ?_ fits
    rw [batches] at runs
    cases running : chain.timer with
    | false =>
      simp only [running, List.isEmpty_nil, Bool.not_false, Bool.and_self, if_true] at runs
      cases runs
      exact iff_of_true pending rfl
    | true =>
      simp only [running, List.isEmpty_nil, Bool.not_true, Bool.and_false,
        Bool.false_eq_true, if_false, writeBatches, ok_bind]
        at runs
      cases runs
      exact iff_of_true pending rfl
  | cons batch _ =>
    have some : result.messageBatches ≠ [] := by
      rw [batches]
      exact List.cons_ne_nil _ _
    have none : result.messageBatches.isEmpty = false := List.isEmpty_eq_false_iff.mpr some
    rw [none, Bool.false_and, if_neg Bool.false_ne_true, bind_ok_iff] at runs
    rcases runs with ⟨_, writes, same⟩
    cases same
    rw [Timed, Bool.and_false, cutter_of_writeBatches writes]
    constructor
    · intro stopped exceeds
      exact Bool.false_ne_true (stopped.mp (ordering.overflow exceeds).2)
    · intro fits
      refine iff_of_false ?_ Bool.false_ne_true
      exact fun pending => pending (ordering.cutAll fits some)

theorem timed_of_main_iff (timed : Timed chain) {event : Solo.Event}
    (runs : Solo.main rules chain event = .ok later) :
    Timed later ↔ ¬ Strands rules chain event := by
  cases event with
  | timeout =>
    refine iff_of_true ?_ id
    rw [Solo.main] at runs
    split_ifs at runs
    · exact timed_of_processTimeout runs
    · cases runs
      exact timed
  | message msg =>
    rw [Solo.main] at runs
    cases answer : rules.apply chain.support.config msg with
    | ok committer =>
      rw [timed_of_processMessage_iff answer runs, Strands]
      simp only [answer, Outcome.ok.injEq, exists_eq_left']
    | error _ =>
      rw [Solo.processMessage_rejected answer] at runs
      cases runs
      refine iff_of_true timed ?_
      rintro ⟨committer, accepted, _⟩
      rw [answer] at accepted
      cases accepted
    | panic =>
      rw [Solo.processMessage, runFilters, answer] at runs
      cases runs

theorem SoloRun.timed (run : SoloRun rules chain) : Timed chain := by
  induction run with
  | start config ledger => exact timed_newChain config ledger
  | round _ passes runs ih => exact (timed_of_main_iff ih runs).mpr passes

end

/-! ## The Kafka loop -/

section

open Kafka KafkaAgreement

variable {Node Config Update : Type}

/-- A time-to-cut message for a block will still be read. -/
def Posted (partition : List KafkaMessage) (nextOffset number : Nat) : Prop :=
  ∃ offset, nextOffset ≤ offset ∧ partition[offset]? = some (.timeToCut number)

/--
While messages are pending the batch timer runs, or a time-to-cut message for
the next block will be read; the timer runs only while messages are pending.
-/
def Served (partition : List KafkaMessage) : OrdererState Config Update → Prop
  | .running chain nextOffset =>
    (chain.support.cutter.pendingBatch ≠ [] → chain.timer = true ∨
        Posted partition nextOffset (chain.lastCutBlockNumber + 1)) ∧
    (chain.timer = true → chain.support.cutter.pendingBatch ≠ [])
  | _ => True

def AllServed (system : System Node Config Update) : Prop :=
  ∀ node, Served system.partition (system.orderers node)

section

variable [DecidableEq Node] (rules : Rules Config Update) (codec : Codec)

/-- An accepted message has the pending batch cut and stays pending. -/
def OverflowsBy (chain : Kafka.Chain Config Update) : KafkaMessage → Prop
  | .regular payload =>
    ∃ env committer, codec.unmarshalEnvelope payload.bytes = some env ∧
        rules.apply chain.support.config env = .ok committer ∧
        Overflows (rules.batchSize chain.support.config) chain.support.cutter env committer
  | _ => False

/--
The steps that leave messages behind.  An orderer reads a message that has the
pending batch cut and stays pending, or fails to post the time-to-cut message of
its timer, and no such message for the block that comes next will be read.
-/
inductive StrandingStep (system : System Node Config Update) :
    System Node Config Update → Prop where
  | overflow
      {node : Node} {chain after : Kafka.Chain Config Update}
      {nextOffset : Nat} {message : KafkaMessage}
      (running : system.orderers node = .running chain nextOffset)
      (next : system.partition[nextOffset]? = some message)
      (overflows : OverflowsBy rules codec chain message)
      (runs : processMessage rules codec chain nextOffset message = .ok after)
      (unposted : ¬ Posted system.partition (nextOffset + 1) (chain.lastCutBlockNumber + 2)) :
      StrandingStep system (system.set node (.running after (nextOffset + 1)))
  | timerFailsToPost
      {node : Node} {chain : Kafka.Chain Config Update} {nextOffset : Nat}
      (running : system.orderers node = .running chain nextOffset)
      (expired : chain.timer = true)
      (unposted : ¬ Posted system.partition nextOffset (chain.lastCutBlockNumber + 1)) :
      StrandingStep system (system.set node (.running { chain with timer := false } nextOffset))

/-- The systems that are reached by steps that leave no message behind. -/
inductive KafkaRun (config : Config) : System Node Config Update → Prop where
  | initial : KafkaRun config ⟨[], fun _ => .stopped config []⟩
  | step {system later : System Node Config Update}
      (before : KafkaRun config system)
      (step : Step rules codec system later)
      (passes : ¬ StrandingStep rules codec system later) :
      KafkaRun config later

end

variable {rules : Rules Config Update} {codec : Codec} {config : Config}
  {partition : List KafkaMessage} {chain after : Kafka.Chain Config Update} {nextOffset : Nat}
  {number : Nat}

theorem Posted.append (posted : Posted partition nextOffset number) (more : List KafkaMessage) :
    Posted (partition ++ more) nextOffset number := by
  rcases posted with ⟨offset, later, found⟩
  refine ⟨offset, later, ?_⟩
  rw [List.getElem?_append_left (List.getElem?_eq_some_iff.mp found).1]
  exact found

variable {message : KafkaMessage}

theorem Posted.next (posted : Posted partition nextOffset number)
    (here : partition[nextOffset]? = some message) (other : message ≠ .timeToCut number) :
    Posted partition (nextOffset + 1) number := by
  rcases posted with ⟨offset, later, found⟩
  refine ⟨offset, ?_, found⟩
  rcases Nat.eq_or_lt_of_le later with rfl | above
  · rw [here] at found
    exact absurd (Option.some.inj found) other
  · exact above

theorem Served.append {orderer : OrdererState Config Update}
    (served : Served partition orderer) (more : List KafkaMessage) :
    Served (partition ++ more) orderer := by
  cases orderer with
  | stopped present ledger | failed present ledger => trivial
  | running _ _ =>
    refine ⟨fun pending => ?_, served.2⟩
    exact (served.1 pending).imp_right fun posted => posted.append more

variable {payload : Slice} {env : Envelope}

/-- The timer runs after an accepted message exactly if no batch was cut. -/
theorem exists_ordering_of_processMessage {committer : Committer Update}
    (decoded : codec.unmarshalEnvelope payload.bytes = some env)
    (accepted : rules.apply chain.support.config env = .ok committer)
    (runs : processMessage rules codec chain nextOffset (.regular payload) = .ok after) :
    ∃ result : OrderedResult (Committer Update), Ordering result after.support.cutter
          (Overflows (rules.batchSize chain.support.config) chain.support.cutter env committer) ∧
        after.lastCutBlockNumber = chain.lastCutBlockNumber + result.messageBatches.length ∧
        after.timer = result.messageBatches.isEmpty := by
  have ordering := ordering_ordered (rules.batchSize chain.support.config)
      chain.support.cutter env committer
  change Ordering (order rules chain.support env (some committer)).1
    (order rules chain.support env (some committer)).2 _ at ordering
  simp only [processMessage, processRegular, decoded, ofOption,
    runFilters, accepted, ok_bind] at runs
  generalize order rules chain.support env (some committer) = outcome at runs ordering
  rcases outcome with ⟨result, cutter⟩
  refine ⟨result, ?_⟩
  rw [ordering.valid, Bool.true_and] at runs
  cases batches : result.messageBatches with
  | nil =>
    rw [batches] at runs
    cases running : chain.timer with
    | false =>
      simp only [running, List.isEmpty_nil, Bool.not_false, Bool.and_self, if_true, handle] at runs
      cases runs
      exact ⟨ordering, rfl, rfl⟩
    | true =>
      simp only [running, List.isEmpty_nil, Bool.not_true, Bool.and_false, Bool.false_eq_true,
        if_false, writeBatches, ok_bind, handle] at runs
      cases runs
      exact ⟨ordering, rfl, rfl⟩
  | cons batch rest =>
    rw [batches] at runs
    simp only [List.isEmpty_cons, Bool.false_and, Bool.false_eq_true,
      if_false, Bool.and_false] at runs
    rcases wrote : (writeBatches rules
          { config := chain.support.config
            ledger := chain.support.ledger
            cutter := cutter }
          (some (firstOffset result nextOffset)) (batch :: rest)
          result.committerBatches :
          Outcome ProcessError (ChainSupport Config Update)) with
      _ | reason | _
    · rw [wrote] at runs
      cases runs
      refine ⟨?_, rfl, rfl⟩
      rw [cutter_of_writeBatches wrote]
      exact ordering
    · exact absurd wrote writeBatches_ne_error
    · rw [wrote] at runs
      cases runs

theorem served_of_accepted_iff {committer : Committer Update}
    (decoded : codec.unmarshalEnvelope payload.bytes = some env)
    (accepted : rules.apply chain.support.config env = .ok committer)
    (runs : processMessage rules codec chain nextOffset (.regular payload) = .ok after) :
    Served partition (.running after (nextOffset + 1)) ↔
      (Overflows (rules.batchSize chain.support.config) chain.support.cutter env committer →
        Posted partition (nextOffset + 1) (chain.lastCutBlockNumber + 2)) := by
  rcases exists_ordering_of_processMessage decoded accepted runs with
    ⟨result, ordering, number, timer⟩
  rw [Served, number, timer]
  cases batches : result.messageBatches with
  | nil =>
    have pending := ordering.kept batches
    refine iff_of_true ⟨fun _ => Or.inl rfl, fun _ => pending⟩ ?_
    exact fun exceeds => absurd exceeds (ordering.fits batches)
  | cons _ _ =>
    rw [← batches]
    have some : result.messageBatches ≠ [] := by
      rw [batches]
      exact List.cons_ne_nil _ _
    constructor
    · intro served exceeds
      rcases ordering.overflow exceeds with ⟨one, pending⟩
      rcases served.1 pending with running | posted
      · exact absurd (List.isEmpty_iff.mp running) some
      · rw [one] at posted
        exact posted
    · intro posted
      refine ⟨?_, fun running => absurd (List.isEmpty_iff.mp running) some⟩
      intro pending
      by_cases exceeds : Overflows (rules.batchSize chain.support.config)
            chain.support.cutter env committer
      · rw [(ordering.overflow exceeds).1]
        exact Or.inr (posted exceeds)
      · exact absurd (ordering.cutAll exceeds some) pending

section

variable (served : Served partition (.running chain nextOffset))
include served

theorem Served.next (here : partition[nextOffset]? = some message)
    (other : message ≠ .timeToCut (chain.lastCutBlockNumber + 1)) :
    Served partition (.running chain (nextOffset + 1)) := by
  refine ⟨fun pending => ?_, served.2⟩
  exact (served.1 pending).imp_right fun posted => posted.next here other

theorem served_of_processTimeToCut {ttcNumber : Nat}
    (here : partition[nextOffset]? = some (.timeToCut ttcNumber))
    (runs : processTimeToCut rules chain nextOffset ttcNumber = .ok after) :
    Served partition (.running after (nextOffset + 1)) := by
  by_cases matching : ttcNumber = chain.lastCutBlockNumber + 1
  · simp only [processTimeToCut, if_pos matching, cut] at runs
    cases empty : chain.support.cutter.pendingBatch.isEmpty with
    | true =>
      simp only [empty, if_true] at runs
      cases runs
    | false =>
      simp only [empty, Bool.false_eq_true, if_false, bind_ok_iff] at runs
      rcases runs with ⟨_, writes, same⟩
      cases same
      refine ⟨?_, by simp⟩
      rw [cutter_of_writeBlock writes]
      exact fun pending => absurd rfl pending
  · rw [processTimeToCut, if_neg matching] at runs
    split_ifs at runs
    cases runs
    apply served.next here
    intro same
    exact matching (KafkaMessage.timeToCut.inj same)

/-- A message that is read leaves no message behind unless it overflows. -/
theorem served_of_processMessage_iff (here : partition[nextOffset]? = some message)
    (runs : processMessage rules codec chain nextOffset message = .ok after) :
    Served partition (.running after (nextOffset + 1)) ↔ (OverflowsBy rules codec chain message →
        Posted partition (nextOffset + 1) (chain.lastCutBlockNumber + 2)) := by
  cases message with
  | connect =>
    cases runs
    exact iff_of_true (served.next here nofun) nofun
  | timeToCut _ => exact iff_of_true (served_of_processTimeToCut served here runs) nofun
  | regular payload =>
    cases decoded : codec.unmarshalEnvelope payload.bytes with
    | none =>
      rw [KafkaReplay.processMessage_undecodable chain nextOffset decoded] at runs
      cases runs
      refine iff_of_true (served.next here nofun) ?_
      rintro ⟨env, committer, other, _⟩
      rw [decoded] at other
      cases other
    | some env =>
      cases answer : rules.apply chain.support.config env with
      | ok committer =>
        rw [served_of_accepted_iff decoded answer runs, OverflowsBy]
        simp only [decoded, Option.some.injEq, answer,
          Outcome.ok.injEq, exists_and_left, exists_eq_left']
      | error _ =>
        rw [KafkaReplay.processMessage_rejected nextOffset decoded answer] at runs
        cases runs
        refine iff_of_true (served.next here nofun) ?_
        rintro ⟨other, committer, same, accepted, _⟩
        cases decoded.symm.trans same
        cases answer.symm.trans accepted
      | panic =>
        rw [KafkaReplay.processMessage_panics nextOffset decoded answer] at runs
        cases runs

end

variable {system later : System Node Config Update}

theorem AllServed.post (served : AllServed system) (message : KafkaMessage) :
    AllServed (system.post message) :=
  fun node => (served node).append [message]

variable [DecidableEq Node]

theorem allServed_set_iff (served : AllServed system) (node : Node)
    (orderer : OrdererState Config Update) :
    AllServed (system.set node orderer) ↔ Served system.partition orderer := by
  constructor
  · intro all
    have here := all node
    simp only [System.set, Function.update_self] at here
    exact here
  · intro here other
    by_cases same : other = node
    · subst same
      simp only [System.set, Function.update_self]
      exact here
    · simp only [System.set, Function.update_of_ne same]
      exact served other

theorem not_allServed_of_strandingStep (served : AllServed system)
    (strands : StrandingStep rules codec system later) :
    ¬ AllServed later := by
  cases strands with
  | @overflow node chain after nextOffset message running next overflows runs
      unposted =>
      have here := served node
      rw [running] at here
      rw [allServed_set_iff served, served_of_processMessage_iff here next runs]
      exact fun posted => unposted (posted overflows)
  | @timerFailsToPost node chain nextOffset running expired unposted =>
    have here := served node
    rw [running] at here
    rw [allServed_set_iff served]
    intro stopped
    rcases stopped.1 (here.2 expired) with running | posted
    · cases running
    · exact unposted posted

theorem allServed_of_step (reachable : Kafka.Reachable rules codec config system)
    (served : AllServed system) (step : Step rules codec system later)
    (passes : ¬ StrandingStep rules codec system later) :
    AllServed later := by
  cases step with
  | start _ =>
    rw [allServed_set_iff (served.post _)]
    exact ⟨fun pending => absurd rfl pending, by simp [newChain]⟩
  | connect running | enqueue running _ => exact served.post _
  | @consume node chain nextOffset message running next =>
    have here := served node
    rw [running] at here
    rw [allServed_set_iff served, Kafka.consume]
    rcases runs : processMessage rules codec chain nextOffset message with
      _ | _ | _
    · rw [served_of_processMessage_iff here next runs]
      intro overflows
      by_contra unposted
      apply passes
      rw [Kafka.consume, runs]
      exact .overflow running next overflows runs unposted
    · trivial
    · trivial
  | stopBetweenBlocks running next _ _ =>
    rw [allServed_set_iff served]
    trivial
  | @timerPosts node chain nextOffset running expired =>
    -- An orderer never reads beyond the end of the partition.
    have bound : nextOffset ≤ system.partition.length := by
      rcases (invariant_of_reachable reachable).running running with ⟨_, follows, _⟩
      cases follows with
      | synced bound _ => exact bound
      | ahead next _ _ _ _ _ => exact Nat.le_of_lt (lt_length next)
    rw [allServed_set_iff (served.post _)]
    refine ⟨fun _ => Or.inr ?_, by simp⟩
    refine ⟨system.partition.length, bound, ?_⟩
    show (system.partition ++ [_])[system.partition.length]? = _
    rw [List.getElem?_concat_length]
  | @timerFailsToPost node chain nextOffset running expired =>
    rw [allServed_set_iff served]
    refine ⟨fun _ => Or.inr ?_, by simp⟩
    by_contra unposted
    exact passes (.timerFailsToPost running expired unposted)
  | stop running =>
    rw [allServed_set_iff served]
    trivial

theorem KafkaRun.reachable (run : KafkaRun rules codec config system) :
    Kafka.Reachable rules codec config system := by
  induction run with
  | initial => exact .initial
  | step _ step _ ih => exact ih.step step

theorem KafkaRun.allServed (run : KafkaRun rules codec config system) : AllServed system := by
  induction run with
  | initial => exact fun _ => trivial
  | step before step passes ih => exact allServed_of_step before.reachable ih step passes

end

/-! ## Both loops -/

/--
In a run without rounds that strand a message, the batch timer runs while
messages are pending and only then; on Kafka it may also be that a time-to-cut
message for the next block will be read.  The next round keeps this exactly if it
strands no message either.
-/
theorem no_message_stranded {Node Config Update : Type} [DecidableEq Node]
    (rules : Rules Config Update) (codec : Codec) :
    (∀ chain : Solo.Chain Config Update, SoloRun rules chain → Timed chain ∧
        ∀ event later, Solo.main rules chain event = .ok later →
          (Timed later ↔ ¬ Strands rules chain event)) ∧
    (∀ (config : Config) (system : Kafka.System Node Config Update),
      KafkaRun rules codec config system →
      AllServed system ∧ ∀ later, Kafka.Step rules codec system later →
          (AllServed later ↔ ¬ StrandingStep rules codec system later)) := by
  constructor
  · intro chain run
    refine ⟨run.timed, ?_⟩
    intro event later runs
    exact timed_of_main_iff run.timed runs
  · intro config system run
    refine ⟨run.allServed, ?_⟩
    intro later step
    constructor
    · intro served strands
      exact not_allServed_of_strandingStep run.allServed strands served
    · exact allServed_of_step run.reachable run.allServed step

namespace Sample

/-- Batches of several messages and of ten bytes. -/
def rules : Rules Unit Empty where
  batchSize _ := ⟨5, 100, 10⟩
  apply _ _ := .ok .noop
  commit _ update := nomatch update
  commits := by
    intro _ _ update
    cases update

def message (mark : UInt8) : Envelope :=
  ⟨some [mark, 0, 0, 0, 0, 0], none⟩

def afterFirst : Solo.Chain Unit Empty :=
  ⟨⟨(), [], ⟨[message 1], 6, [.noop]⟩⟩, true⟩

def afterSecond : Solo.Chain Unit Empty :=
  ⟨⟨(), [⟨[message 1], none⟩], ⟨[message 2], 6, [.noop]⟩⟩, false⟩

end Sample

/--
Two messages that do not fit into one batch: the second has the first one cut
and is left pending without a timer.
-/
theorem message_stranded_by_overflow :
    Solo.main Sample.rules (Solo.newChain () []) (.message (Sample.message 1)) =
        .ok Sample.afterFirst ∧
      Solo.main Sample.rules Sample.afterFirst (.message (Sample.message 2)) =
        .ok Sample.afterSecond ∧
      Sample.afterSecond.support.cutter.pendingBatch ≠ [] ∧
      Sample.afterSecond.timer = false :=
  ⟨rfl, rfl, nofun, rfl⟩

/--
The first of the two messages is served by the timer and the second one strands;
an orderer that has just started has nothing pending.
-/
theorem no_message_stranded_sample :
    (SoloRun Sample.rules Sample.afterFirst ∧ Timed Sample.afterFirst ∧
      Sample.afterFirst.timer = true ∧
      Strands Sample.rules Sample.afterFirst (.message (Sample.message 2))) ∧
    ∃ system : Kafka.System Bool Unit Empty, KafkaRun Sample.rules Codec.rejecting () system ∧
        system.partition = [.connect] ∧ AllServed system := by
  have stranded := @no_message_stranded Bool Unit Empty _ Sample.rules Codec.rejecting
  constructor
  · have passes : ¬ Strands Sample.rules (Solo.newChain () []) (.message (Sample.message 1)) := by
      rintro ⟨_, _, _, exceeds, _⟩
      exact absurd exceeds (by decide)
    have run : SoloRun Sample.rules Sample.afterFirst := .round (.start () []) passes rfl
    have timed := stranded.1 _ run
    have second := timed.2 (.message (Sample.message 2)) Sample.afterSecond rfl
    refine ⟨run, timed.1, rfl, ?_⟩
    by_contra passes
    have timer : Sample.afterSecond.timer = true := (second.mpr passes).mp nofun
    cases timer
  · have stopped : ∀ later, ¬ StrandingStep Sample.rules Codec.rejecting
          (⟨[], fun _ => .stopped () []⟩ : Kafka.System Bool Unit Empty)
          later := by
      intro later strands
      cases strands with
      | overflow running | timerFailsToPost running => cases running
    have run := KafkaRun.step .initial
        (.start (show Kafka.System.orderers _ true = _ from rfl)) (stopped _)
    exact ⟨_, run, rfl, (stranded.2 _ _ run).1⟩

end Fabric.Orderer.StrandedMessages
