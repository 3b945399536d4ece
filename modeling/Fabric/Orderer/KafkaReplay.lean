import Fabric.Orderer.Kafka

/-!
# Replaying a partition

An orderer that consumes a partition from its first message without ever
stopping goes through a sequence of states that depends on the partition alone.
These states are the reference for the orderers that stop and resume.
-/

namespace Fabric.Orderer.KafkaReplay

open Library ByteString Protos BlockCutter Channel Kafka

variable {Config Update : Type} {receivedOffset : Nat} {message : KafkaMessage}

section

variable {rules : Rules Config Update} {codec : Codec} {chain : Chain Config Update}
  {items kept : Items (Committer Update)} {chunks : List (Items (Committer Update))}
  {payload : Slice} {env : Envelope} {committer : Committer Update} {later : Config}

/-! ## Processing a message -/

/-- The offset of the first block, in terms of items. -/
def offsetOf (chunks : List (Items (Committer Update)))
    (kept : Items (Committer Update)) (receivedOffset : Nat) : Int :=
  if !kept.isEmpty || chunks.length == 2 then (receivedOffset : Int) - 1 else receivedOffset

theorem firstOffset_eq_offsetOf
    {outcome : OrderedResult (Committer Update) × Receiver (Committer Update)}
    (orders : OrdersItem outcome chunks kept) (receivedOffset : Nat) :
    firstOffset outcome.1 receivedOffset = offsetOf chunks kept receivedOffset := by
  simp [firstOffset, offsetOf, orders.pending, orders.messageBatches]

theorem processMessage_undecodable (chain : Chain Config Update) (receivedOffset : Nat)
    (undecodable : codec.unmarshalEnvelope payload.bytes = none) :
    processMessage rules codec chain receivedOffset (.regular payload) = .ok chain := by
  simp [processMessage, processRegular, undecodable, Outcome.ofOption, Outcome.handle]

theorem processMessage_rejected {reason : Unit} (receivedOffset : Nat)
    (decoded : codec.unmarshalEnvelope payload.bytes = some env)
    (rejected : rules.apply chain.support.config env = .error reason) :
    processMessage rules codec chain receivedOffset (.regular payload) = .ok chain := by
  simp [processMessage, processRegular, decoded, Outcome.ofOption,
    runFilters, rejected, order, ordered, writeBatches, Outcome.handle]

theorem processMessage_panics (receivedOffset : Nat)
    (decoded : codec.unmarshalEnvelope payload.bytes = some env)
    (panics : rules.apply chain.support.config env = .panic) :
    processMessage rules codec chain receivedOffset (.regular payload) = .panic := by
  simp [processMessage, processRegular, decoded, Outcome.ofOption,
    runFilters, panics, Outcome.handle]

theorem processMessage_accepted (holding : Holding rules chain.support items) (receivedOffset : Nat)
    (decoded : codec.unmarshalEnvelope payload.bytes = some env)
    (passes : rules.apply chain.support.config env = .ok committer)
    (committed : commitOne rules chain.support.config committer = some later)
    (split : orderItem Committer.isIsolated (rules.batchSize chain.support.config)
          items (env, committer) =
        (chunks, kept)) :
    processMessage rules codec chain receivedOffset (.regular payload) = .ok
        { support :=
            { config := later
              ledger := chain.support.ledger ++
                  blocksOf (some (offsetOf chunks kept receivedOffset)) chunks
              cutter := (order rules chain.support env (some committer)).2 }
          lastCutBlockNumber := chain.lastCutBlockNumber + chunks.length
          timer := chunks.isEmpty } := by
  have orders := orders_of_split holding split
  have offset := firstOffset_eq_offsetOf orders receivedOffset
  have allCommitted := holding.commitAll_chunks (cuts_of_orderItem split) committed
  simp only [processMessage, processRegular, decoded, Outcome.ofOption, runFilters, passes,
    Outcome.ok_bind, orders.validTx, orders.messageBatches, orders.committerBatches, offset,
    Bool.true_and, List.isEmpty_map, List.length_map]
  cases empty : chunks.isEmpty with
  | true =>
    have none := List.isEmpty_iff.mp empty
    subst none
    cases allCommitted
    cases running : chain.timer <;> simp [blocksOf, writeBatches, Outcome.handle]
  | false =>
    simp only [Bool.false_and, Bool.false_eq_true, if_false, Bool.and_false]
    rw [writeBatches_ok
      { chain.support with cutter := (order rules chain.support env (some committer)).2 }
      chunks _ allCommitted]
    rfl

theorem processTimeToCut_matching
    (holding : Holding rules chain.support items) (receivedOffset : Nat) (nonempty : items ≠ []) :
    processTimeToCut rules chain receivedOffset (chain.lastCutBlockNumber + 1) = .ok
        { support :=
            { config := chain.support.config
              ledger := chain.support.ledger ++ [⟨items.map Prod.fst, some receivedOffset⟩]
              cutter := Receiver.new }
          lastCutBlockNumber := chain.lastCutBlockNumber + 1
          timer := false } := by
  simp [processTimeToCut, cut, holding.holds.messages,
    holding.holds.committers, nonempty, writeBlock, holding.commitAll_items]

theorem processTimeToCut_stale
    (chain : Chain Config Update) (receivedOffset : Nat) {ttcNumber : Nat}
    (stale : ttcNumber ≤ chain.lastCutBlockNumber) :
    processTimeToCut rules chain receivedOffset ttcNumber = .ok chain := by
  have different : ttcNumber ≠ chain.lastCutBlockNumber + 1 := by omega
  have notLarger : ¬ chain.lastCutBlockNumber + 1 < ttcNumber := by omega
  simp [processTimeToCut, different, notLarger]

/-! ## What a message can do -/

/-- A message that leaves the ledger and the pending messages alone. -/
inductive Ignored (rules : Rules Config Update) (codec : Codec)
    (support : ChainSupport Config Update) : KafkaMessage → Prop where
  | connect : Ignored rules codec support .connect
  | stale
      {ttcNumber : Nat} (stale : ttcNumber ≤ support.ledger.length) :
      Ignored rules codec support (.timeToCut ttcNumber)
  | undecodable
      {payload : Slice}
      (undecodable : codec.unmarshalEnvelope payload.bytes = none) :
      Ignored rules codec support (.regular payload)
  | rejected
      {payload : Slice} {env : Envelope} {reason : Unit}
      (decoded : codec.unmarshalEnvelope payload.bytes = some env)
      (rejected : rules.apply support.config env = .error reason) :
      Ignored rules codec support (.regular payload)
  | panics
      {payload : Slice} {env : Envelope}
      (decoded : codec.unmarshalEnvelope payload.bytes = some env)
      (panics : rules.apply support.config env = .panic) :
      Ignored rules codec support (.regular payload)

/-- A regular message that passes the filters, and what it does. -/
structure Accepted
    (rules : Rules Config Update) (codec : Codec) (support : ChainSupport Config Update)
    (items : Items (Committer Update)) (receivedOffset : Nat)
    (payload : Slice) (env : Envelope) (committer : Committer Update)
    (chunks : List (Items (Committer Update))) (kept : Items (Committer Update))
    (later : ChainSupport Config Update) : Prop where
  decoded : codec.unmarshalEnvelope payload.bytes = some env
  passes : rules.apply support.config env = .ok committer
  committed : commitOne rules support.config committer = some later.config
  split : orderItem Committer.isIsolated (rules.batchSize support.config) items (env, committer) =
      (chunks, kept)
  ledger : later.ledger = support.ledger ++
        blocksOf (some (offsetOf chunks kept receivedOffset)) chunks

theorem Accepted.config_eq {support later : ChainSupport Config Update}
    (accepted : Accepted rules codec support items receivedOffset payload env committer
        chunks kept later)
    (shared : committer.isIsolated = false) :
    later.config = support.config := by
  have committed := accepted.committed
  rw [isIsolated_eq_false_iff.mp shared, commitOne_noop] at committed
  exact (Option.some.inj committed).symm

/-- The effect of a message on the resources of a channel. -/
inductive Delivered
    (rules : Rules Config Update) (codec : Codec) (support : ChainSupport Config Update)
    (items : Items (Committer Update)) (receivedOffset : Nat) :
    KafkaMessage → ChainSupport Config Update → Items (Committer Update) → Prop where
  | ignored
      {message : KafkaMessage}
      (ignored : Ignored rules codec support message) :
      Delivered rules codec support items receivedOffset message support items
  | accepted
      {payload : Slice} {env : Envelope} {committer : Committer Update}
      {chunks : List (Items (Committer Update))}
      {kept : Items (Committer Update)}
      {later : ChainSupport Config Update}
      (accepted : Accepted rules codec support items receivedOffset payload env
          committer chunks kept later) :
      Delivered rules codec support items receivedOffset (.regular payload) later kept
  | cut
      (nonempty : items ≠ []) :
      Delivered rules codec support items receivedOffset (.timeToCut (support.ledger.length + 1))
        ⟨support.config, support.ledger ++ [⟨items.map Prod.fst, some receivedOffset⟩],
          Receiver.new⟩
        []

/-- The message is no time-to-cut message that would be an error. -/
def InTime (support : ChainSupport Config Update) : KafkaMessage → Prop
  | .timeToCut ttcNumber =>
    ttcNumber ≤ support.ledger.length + 1 ∧
      (ttcNumber = support.ledger.length + 1 → support.cutter.pendingBatch ≠ [])
  | _ => True

/-- A running chain over the given resources. -/
structure Tracks (chain : Chain Config Update) (support : ChainSupport Config Update) : Prop where
  support_eq : chain.support = support
  lastCut : chain.lastCutBlockNumber = support.ledger.length
  pending : chain.timer = true → support.cutter.pendingBatch ≠ []

/--
The message leads any chain over the resources to the later ones, or it makes
a filter panic and leaves them as they are.
-/
def Leads (rules : Rules Config Update) (codec : Codec)
    (support : ChainSupport Config Update) (receivedOffset : Nat)
    (message : KafkaMessage) (later : ChainSupport Config Update) : Prop :=
  ∀ chain, Tracks chain support → (∃ next,
      processMessage rules codec chain receivedOffset message = .ok next ∧ Tracks next later) ∨
      (processMessage rules codec chain receivedOffset message = .panic ∧
        later = support ∧ ∃ payload, message = .regular payload)

variable {support : ChainSupport Config Update}

theorem Leads.of_ok (same : ∀ chain : Chain Config Update, Tracks chain support →
        processMessage rules codec chain receivedOffset message = .ok chain) :
    Leads rules codec support receivedOffset message support := by
  intro chain tracks
  exact Or.inl ⟨chain, same chain tracks, tracks⟩

theorem length_blocksOf (offset : Option Int) (chunks : List (Items (Committer Update))) :
    (blocksOf offset chunks).length = chunks.length := by
  induction chunks generalizing offset with
  | nil => rfl
  | cons _ chunks ih => simp [blocksOf, ih]

theorem pendingBatch_ne_nil_iff
    {cutter : Receiver (Committer Update)} (holds : Holds cutter items) :
    cutter.pendingBatch ≠ [] ↔ items ≠ [] := by
  simp [holds.messages]

theorem leads_accepted (holding : Holding rules support items) (receivedOffset : Nat)
    (decoded : codec.unmarshalEnvelope payload.bytes = some env)
    (passes : rules.apply support.config env = .ok committer)
    (committed : commitOne rules support.config committer = some later)
    (split : orderItem Committer.isIsolated (rules.batchSize support.config) items
          (env, committer) =
        (chunks, kept)) :
    Leads rules codec support receivedOffset (.regular payload) ⟨later, support.ledger ++
          blocksOf (some (offsetOf chunks kept receivedOffset)) chunks,
        (order rules support env (some committer)).2⟩ := by
  have orders := orders_of_split holding split
  rintro _ ⟨rfl, lastCut, _⟩
  refine Or.inl ⟨_, processMessage_accepted holding receivedOffset decoded passes committed
      split, rfl, ?_, ?_⟩
  · simp [lastCut, length_blocksOf]
  · intro timer
    have empty : chunks = [] := List.isEmpty_iff.mp timer
    subst empty
    rw [pendingBatch_ne_nil_iff orders.receiver]
    cases cuts_of_orderItem split
    simp

theorem exists_delivered (holding : Holding rules support items)
    (inTime : InTime support message) (receivedOffset : Nat) :
    ∃ later kept, Holding rules later kept ∧
        Delivered rules codec support items receivedOffset message later kept ∧
        Leads rules codec support receivedOffset message later := by
  cases message with
  | connect => exact ⟨support, items, holding, .ignored .connect, .of_ok fun _ _ => rfl⟩
  | timeToCut ttcNumber =>
    rcases inTime with ⟨bound, pending⟩
    rcases Nat.lt_or_eq_of_le bound with _ | rfl
    · have stale : ttcNumber ≤ support.ledger.length := by omega
      refine ⟨support, items, holding, .ignored (.stale stale), .of_ok ?_⟩
      intro chain tracks
      rw [← tracks.lastCut] at stale
      exact processTimeToCut_stale chain receivedOffset stale
    · have nonempty := (pendingBatch_ne_nil_iff holding.holds).mp (pending rfl)
      refine ⟨_, _, ?_, .cut nonempty, ?_⟩
      · exact Holding.nil holds_new
      · rintro chain ⟨rfl, lastCut, _⟩
        rw [← lastCut]
        refine Or.inl ⟨_, processTimeToCut_matching holding receivedOffset nonempty, rfl, ?_, ?_⟩
        · simp [lastCut]
        · simp
  | regular payload =>
    cases decoded : codec.unmarshalEnvelope payload.bytes with
    | none =>
      exact ⟨support, items, holding, .ignored (.undecodable decoded), .of_ok fun chain _ =>
          processMessage_undecodable chain receivedOffset decoded⟩
    | some env =>
      cases passes : rules.apply support.config env with
      | panic =>
        refine ⟨support, items, holding, .ignored (.panics decoded passes), ?_⟩
        rintro chain ⟨rfl, _, _⟩
        exact Or.inr ⟨processMessage_panics receivedOffset decoded passes, rfl, payload, rfl⟩
      | error _ =>
        refine ⟨support, items, holding, .ignored (.rejected decoded passes), .of_ok ?_⟩
        rintro chain ⟨rfl, _, _⟩
        exact processMessage_rejected receivedOffset decoded passes
      | ok committer =>
        rcases exists_commitOne passes with ⟨later, committed, _⟩
        rcases split : orderItem Committer.isIsolated (rules.batchSize support.config) items
              (env, committer) with ⟨_, kept⟩
        have leads := leads_accepted holding receivedOffset decoded passes committed split
        have orders := orders_of_split holding split
        refine ⟨_, kept, ?_, .accepted ⟨decoded, passes, committed, split, rfl⟩, leads⟩
        exact holding.after (cuts_of_orderItem split) passes committed orders.receiver

end

/-! ## The states of an orderer that never stops -/

section

variable (rules : Rules Config Update) (codec : Codec)

/-- The resources after a message; errors leave them as they are. -/
def deliverTo (support : ChainSupport Config Update) (receivedOffset : Nat)
    (message : KafkaMessage) : ChainSupport Config Update :=
  match processMessage rules codec ⟨support, support.ledger.length, false⟩
      receivedOffset message with
  | .ok chain => chain.support
  | _ => support

/-- The resources after all messages of a partition. -/
def canonical (config : Config) (log : List KafkaMessage) : ChainSupport Config Update :=
  log.zipIdx.foldl (fun support entry => deliverTo rules codec support entry.2 entry.1)
    ⟨config, [], Receiver.new⟩

/-- No time-to-cut message of the partition is an error. -/
def WellTimed (config : Config) (log : List KafkaMessage) : Prop :=
  ∀ earlier message later, log = earlier ++ message :: later →
      InTime (canonical rules codec config earlier) message

def envelopes (log : List KafkaMessage) : List Envelope :=
  log.filterMap fun
    | .regular payload => codec.unmarshalEnvelope payload.bytes
    | _ => none

variable {rules codec} {config : Config} {log : List KafkaMessage}

theorem Leads.deliverTo_eq {support later : ChainSupport Config Update}
    (leads : Leads rules codec support receivedOffset message later) :
    deliverTo rules codec support receivedOffset message = later := by
  have fresh : Tracks (⟨support, support.ledger.length, false⟩ : Chain Config Update)
        support :=
    ⟨rfl, rfl, by simp⟩
  rcases leads _ fresh with ⟨_, processed, tracks⟩ | ⟨panics, same, _⟩
  · rw [deliverTo, processed]
    exact tracks.support_eq
  · rw [deliverTo, panics, same]

@[simp]
theorem canonical_append_singleton :
    canonical rules codec config (log ++ [message]) =
      deliverTo rules codec (canonical rules codec config log) log.length
        message := by
  simp [canonical, List.zipIdx_append]

variable {more : List KafkaMessage}

theorem WellTimed.of_append (wellTimed : WellTimed rules codec config (log ++ more)) :
    WellTimed rules codec config log := by
  intro earlier message later split
  apply wellTimed earlier message (later ++ more)
  rw [split]
  simp

theorem WellTimed.append_singleton (wellTimed : WellTimed rules codec config log)
    (inTime : InTime (canonical rules codec config log) message) :
    WellTimed rules codec config (log ++ [message]) := by
  intro earlier other later split
  rcases List.eq_nil_or_concat later with rfl | ⟨front, last, rfl⟩
  · rcases List.append_inj' split rfl with ⟨rfl, same⟩
    cases same
    exact inTime
  · apply wellTimed earlier other front
    have reassociated : log ++ [message] = (earlier ++ other :: front) ++ [last] := by
      simp [split]
    exact (List.append_inj' reassociated rfl).1

theorem WellTimed.exists_holding (wellTimed : WellTimed rules codec config log) :
    ∃ items, Holding rules (canonical rules codec config log) items := by
  induction log using List.reverseRecOn with
  | nil => exact ⟨[], Holding.nil holds_new⟩
  | append_singleton log message ih =>
    rcases ih wellTimed.of_append with ⟨items, holding⟩
    rcases exists_delivered holding (wellTimed log message [] rfl) log.length with
      ⟨_, kept, after, _, leads⟩
    rw [canonical_append_singleton, leads.deliverTo_eq]
    exact ⟨kept, after⟩

theorem WellTimed.exists_delivered (wellTimed : WellTimed rules codec config (log ++ [message])) :
    ∃ items kept, Holding rules (canonical rules codec config log) items ∧
        Holding rules (canonical rules codec config (log ++ [message])) kept ∧
        Delivered rules codec (canonical rules codec config log) items log.length message
          (canonical rules codec config (log ++ [message])) kept ∧
        Leads rules codec (canonical rules codec config log) log.length
          message (canonical rules codec config (log ++ [message])) := by
  rcases wellTimed.of_append.exists_holding with ⟨items, holding⟩
  rcases KafkaReplay.exists_delivered holding (wellTimed log message [] rfl) log.length with
    ⟨_, kept, after, delivered, leads⟩
  rw [canonical_append_singleton, leads.deliverTo_eq]
  exact ⟨items, kept, holding, after, delivered, leads⟩

/-! ## The blocks grow and hold the accepted messages -/

section

variable {support later : ChainSupport Config Update} {items kept : Items (Committer Update)}

section

variable (delivered : Delivered rules codec support items receivedOffset message later kept)
include delivered

theorem Delivered.ledger_initial : support.ledger <+: later.ledger := by
  cases delivered with
  | ignored ignored => exact List.prefix_rfl
  | accepted accepted =>
    rw [accepted.ledger]
    exact List.prefix_append _ _
  | cut _ => exact List.prefix_append _ _

/-- Pending messages stay pending as long as no block is cut. -/
theorem Delivered.pending_prefix
    (holding : Holding rules support items) (after : Holding rules later kept)
    (uncut : later.ledger.length = support.ledger.length) :
    support.cutter.pendingBatch <+: later.cutter.pendingBatch := by
  cases delivered with
  | ignored ignored => exact List.prefix_rfl
  | @accepted _ _ _ chunks _ _ accepted =>
    have noChunk : chunks = [] := by
      rw [accepted.ledger, List.length_append, length_blocksOf] at uncut
      apply List.length_eq_zero_iff.mp
      omega
    have complete := (cuts_of_orderItem accepted.split).complete
    rw [noChunk, List.flatten_nil, List.nil_append] at complete
    rw [holding.holds.messages, after.holds.messages, complete, List.map_append]
    exact List.prefix_append _ _
  | cut _ => simp at uncut

/-- The accepted messages are those of the blocks and the pending ones. -/
theorem Delivered.acceptedFrom_append {messages : List Envelope}
    (holding : Holding rules support items) (after : Holding rules later kept)
    (accepted : acceptedFrom rules config messages = (support.config,
          ledgerMessages support.ledger ++ support.cutter.pendingBatch)) :
    acceptedFrom rules config (messages ++ envelopes codec [message]) = (later.config,
        ledgerMessages later.ledger ++ later.cutter.pendingBatch) := by
  rw [holding.holds.messages] at accepted
  rw [after.holds.messages]
  cases delivered with
  | ignored ignored =>
    cases ignored with
    | connect | stale stale => simpa [envelopes] using accepted
    | undecodable undecodable => simpa [envelopes, undecodable] using accepted
    | rejected decoded rejected =>
      simp [envelopes, decoded, acceptedFrom_append_singleton, accepted, advance, rejected]
    | panics decoded panics =>
      simp [envelopes, decoded, acceptedFrom_append_singleton, accepted, advance, panics]
  | @accepted _ env _ _ _ _ details =>
    have advanced : advance rules support.config env = some later.config := by
      simp [advance, details.passes, details.committed]
    have complete := (cuts_of_orderItem details.split).complete
    have messages : ledgerMessages support.ledger ++ items.map Prod.fst ++ [env] =
          ledgerMessages later.ledger ++ kept.map Prod.fst := by
      rw [details.ledger, ledgerMessages_append, ledgerMessages_blocksOf,
        List.append_assoc, List.append_assoc, ← List.map_append, complete]
      simp
    simp [envelopes, details.decoded, acceptedFrom_append_singleton, accepted, advanced, ← messages]
  | cut _ => simpa [envelopes, ledgerMessages] using accepted

end

end

theorem WellTimed.canonical_initial (wellTimed : WellTimed rules codec config (log ++ more)) :
    (canonical rules codec config log).ledger <+:
        (canonical rules codec config (log ++ more)).ledger ∧
      ((canonical rules codec config (log ++ more)).ledger.length =
          (canonical rules codec config log).ledger.length →
        (canonical rules codec config log).cutter.pendingBatch <+: (canonical rules codec config
            (log ++ more)).cutter.pendingBatch) := by
  induction more using List.reverseRecOn with
  | nil => simp
  | append_singleton more _ ih =>
    rw [← List.append_assoc] at wellTimed ⊢
    rcases wellTimed.exists_delivered with ⟨_, _, holding, after, delivered, _⟩
    rcases ih wellTimed.of_append with ⟨grows, pending⟩
    have last := delivered.ledger_initial
    refine ⟨grows.trans last, ?_⟩
    intro _
    have atLeast := grows.length_le
    have atMost := last.length_le
    apply (pending (by omega)).trans
    exact delivered.pending_prefix holding after (by omega)

theorem WellTimed.acceptedFrom_eq (wellTimed : WellTimed rules codec config log) :
    acceptedFrom rules config (envelopes codec log) = ((canonical rules codec config log).config,
        ledgerMessages (canonical rules codec config log).ledger ++
          (canonical rules codec config log).cutter.pendingBatch) := by
  induction log using List.reverseRecOn with
  | nil => rfl
  | append_singleton log message ih =>
    rcases wellTimed.exists_delivered with ⟨_, _, holding, after, delivered, _⟩
    have split : envelopes codec (log ++ [message]) =
          envelopes codec log ++ envelopes codec [message] := by
      simp [envelopes]
    rw [split]
    exact delivered.acceptedFrom_append holding after (ih wellTimed.of_append)

end

end Fabric.Orderer.KafkaReplay
