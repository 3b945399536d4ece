import Fabric.Orderer.BlockCutter

/-!
# The resources of a channel

Each channel of the ordering service has a configuration, a ledger and a block
cutter.  A consensus loop hands every message to the block cutter, which runs
the filters of the channel on it, and writes the batches that come back as
blocks.  Writing a block first runs the committers of its messages: the one of
a configuration transaction replaces the configuration of the channel.

What the filters decide and what the committers do are given by `Rules`.  They
depend on the configuration, which changes only when a block is written, while
the filters run when a message is ordered.  A filter accepts a message with a
committer, rejects it, or panics.

Committers change the configuration and nothing else here, and the ledger takes
every block.  In the code the committer of a request that names this very channel
appends a genesis block to the same ledger, which then refuses the next block, and
`WriteBlock` panics; such a request is left out here.  `Orderer.HashChain` and
`Orderer.LastConfig` model it.
-/

namespace Fabric.Orderer.Channel

open Library Protos BlockCutter
open Config.GroupValues (BatchSize)

/-! ## Filters and committers -/

/-- What is to be done when the block of a message is written. -/
inductive Committer (Update : Type) where
  | noop
  | isolated (update : Update)
deriving DecidableEq

def Committer.isIsolated {Update : Type} : Committer Update → Bool
  | .noop => false
  | .isolated _ => true

/--
The filters and the committers of a channel.  Committing an update that the
filters have just accepted succeeds.
-/
structure Rules (Config Update : Type) where
  batchSize : Config → BatchSize
  apply : Config → Envelope → Outcome Unit (Committer Update)
  commit : Config → Update → Option Config
  commits : ∀ {config : Config} {env : Envelope} {update : Update},
      apply config env = .ok (.isolated update) → ∃ later, commit config update = some later

section

variable {Config Update : Type} (rules : Rules Config Update)

/-- Run a committer; without a result it panics. -/
def commitOne (config : Config) : Committer Update → Option Config
  | .noop => some config
  | .isolated update => rules.commit config update

@[simp]
theorem commitOne_noop (config : Config) : commitOne rules config .noop = some config :=
  rfl

/-- Run the filters on a message and then the committer if it passes. -/
def advance (config : Config) (env : Envelope) : Option Config :=
  match rules.apply config env with
  | .ok committer => commitOne rules config committer
  | _ => none

/-- The configuration after messages that all pass the filters in turn. -/
def replay (config : Config) (messages : List Envelope) : Option Config :=
  messages.foldlM (advance rules) config

/--
The messages that pass the filters when they are taken one after another, and
the configuration they lead to.
-/
def acceptedFrom (config : Config) (messages : List Envelope) : Config × List Envelope :=
  messages.foldl (fun accepted env =>
      match advance rules accepted.1 env with
      | some later => (later, accepted.2 ++ [env])
      | none => accepted)
    (config, [])

theorem acceptedFrom_append_singleton
    (config : Config) (messages : List Envelope) (env : Envelope) :
    acceptedFrom rules config (messages ++ [env]) =
      match advance rules (acceptedFrom rules config messages).1 env with
      | some later => (later, (acceptedFrom rules config messages).2 ++ [env])
      | none => acceptedFrom rules config messages := by
  simp [acceptedFrom]

variable {committer : Committer Update} {env : Envelope}

theorem exists_commitOne {rules : Rules Config Update} {config : Config}
    (passes : rules.apply config env = .ok committer) :
    ∃ later, commitOne rules config committer = some later ∧
        advance rules config env = some later := by
  have run : ∃ later, commitOne rules config committer = some later := by
    cases committer with
    | noop => exact ⟨config, rfl⟩
    | isolated _ => exact rules.commits passes
  rcases run with ⟨later, committed⟩
  refine ⟨later, committed, ?_⟩
  simp [advance, passes, committed]

/-! ## Writing blocks -/

/-- A block of the channel; consensus metadata may be absent. -/
structure WrittenBlock where
  messages : List Envelope
  ordererMetadata : Option Int
deriving DecidableEq

/-- The configuration, the ledger after the genesis block and the cutter. -/
structure ChainSupport (Config Update : Type) where
  config : Config
  ledger : List WrittenBlock
  cutter : Receiver (Committer Update)

/-- Run the committers of a block, in order. -/
def commitAll (config : Config) (committers : List (Committer Update)) : Option Config :=
  committers.foldlM (commitOne rules) config

/--
Run the committers of a block and append it.  The ledger does not refuse a block
whose number follows, so the panic after a refusal is left out.
-/
def writeBlock {Reason : Type} (support : ChainSupport Config Update)
    (messages : List Envelope) (committers : List (Committer Update)) (metadata : Option Int) :
    Outcome Reason (ChainSupport Config Update) := do
  let config ← Outcome.deref (commitAll rules support.config committers)
  .ok
    { support with
      config := config
      ledger := support.ledger ++ [⟨messages, metadata⟩] }

/--
Write the batches that a call of the block cutter returned, each with its
committers; the offset in the metadata grows from block to block.
-/
def writeBatches {Reason : Type} (support : ChainSupport Config Update) :
    Option Int → List (List Envelope) → List (List (Committer Update)) →
      Outcome Reason (ChainSupport Config Update)
  | _, [], _ => .ok support
  | _, _ :: _, [] => .panic
  | offset, batch :: batches, committers :: rest => do
      let written ← writeBlock rules support batch committers offset
      writeBatches written (offset.map (· + 1)) batches rest

/-- The committer of a message that passes the filters. -/
def runFilters {Reason : Type} (config : Config) (env : Envelope) :
    Outcome Reason (Option (Committer Update)) :=
  match rules.apply config env with
  | .ok committer => .ok (some committer)
  | .error _ => .ok none
  | .panic => .panic

/-- Hand a message to the block cutter. -/
def order (support : ChainSupport Config Update) (env : Envelope)
    (filtered : Option (Committer Update)) :
    OrderedResult (Committer Update) × Receiver (Committer Update) :=
  ordered Committer.isIsolated (rules.batchSize support.config) support.cutter env filtered

def blocksOf : Option Int → List (Items (Committer Update)) → List WrittenBlock
  | _, [] => []
  | offset, chunk :: chunks => ⟨chunk.map Prod.fst, offset⟩ :: blocksOf (offset.map (· + 1)) chunks

def ledgerMessages (ledger : List WrittenBlock) : List Envelope :=
  ledger.flatMap WrittenBlock.messages

@[simp]
theorem ledgerMessages_append (left right : List WrittenBlock) :
    ledgerMessages (left ++ right) = ledgerMessages left ++ ledgerMessages right := by
  simp [ledgerMessages]

@[simp]
theorem ledgerMessages_blocksOf
    (offset : Option Int) (chunks : List (Items (Committer Update))) :
    ledgerMessages (blocksOf offset chunks) = chunks.flatten.map Prod.fst := by
  induction chunks generalizing offset with
  | nil => rfl
  | cons _ chunks ih =>
    have later := ih (offset.map (· + 1))
    simp only [ledgerMessages] at later
    simp [ledgerMessages, blocksOf, later]

@[simp]
theorem commitAll_append (config : Config) (left right : List (Committer Update)) :
    commitAll rules config (left ++ right) = (commitAll rules config left).bind
        fun middle => commitAll rules middle right := by
  simp [commitAll]

@[simp]
theorem commitAll_singleton (config : Config) (committer : Committer Update) :
    commitAll rules config [committer] = commitOne rules config committer := by
  simp [commitAll]

theorem commitAll_of_noop (config : Config) {committers : List (Committer Update)}
    (noop : ∀ committer ∈ committers, committer = .noop) :
    commitAll rules config committers = some config := by
  induction committers with
  | nil => rfl
  | cons committer committers ih =>
    rw [List.forall_mem_cons] at noop
    rw [commitAll, List.foldlM_cons, noop.1]
    exact ih noop.2

theorem isIsolated_eq_false_iff : committer.isIsolated = false ↔ committer = .noop := by
  cases committer <;> simp [Committer.isIsolated]

theorem writeBatches_ok {Reason : Type} {rules : Rules Config Update}
    (support : ChainSupport Config Update) {final : Config}
    (chunks : List (Items (Committer Update))) (offset : Option Int)
    (committed : commitAll rules support.config (chunks.flatten.map Prod.snd) = some final) :
    (writeBatches rules support offset (chunks.map fun chunk => chunk.map Prod.fst)
        (chunks.map fun chunk => chunk.map Prod.snd) :
          Outcome Reason (ChainSupport Config Update)) =
      .ok
        { support with
          config := final
          ledger := support.ledger ++ blocksOf offset chunks } := by
  induction chunks generalizing support offset with
  | nil =>
    cases committed
    simp [writeBatches, blocksOf]
  | cons chunk chunks ih =>
    rw [List.flatten_cons, List.map_append, commitAll_append, Option.bind_eq_some_iff] at committed
    rcases committed with ⟨middle, first, rest⟩
    have step : (writeBlock rules support (chunk.map Prod.fst) (chunk.map Prod.snd) offset :
              Outcome Reason (ChainSupport Config Update)) =
          .ok
            { support with
              config := middle
              ledger := support.ledger ++ [⟨chunk.map Prod.fst, offset⟩] } := by
      rw [writeBlock, first]
      rfl
    simp only [List.map_cons, writeBatches, step, Outcome.ok_bind]
    rw [ih _ _ rest]
    simp [blocksOf]

/-! ## Ordering a message -/

/--
The pending messages of a channel.  None of them has an effect, and all pass
the filters under the present configuration.
-/
structure Holding
    (support : ChainSupport Config Update) (items : Items (Committer Update)) : Prop where
  holds : Holds support.cutter items
  noop : ∀ item ∈ items, item.2 = .noop
  passes : ∀ item ∈ items, rules.apply support.config item.1 = .ok item.2

variable {rules : Rules Config Update} {support : ChainSupport Config Update}
  {items kept : Items (Committer Update)} {item : Item (Committer Update)}
  {chunks : List (Items (Committer Update))} {batchSize : BatchSize} {later : Config}

theorem Holding.nil (holds : Holds support.cutter []) : Holding rules support [] :=
  ⟨holds, by simp, by simp⟩

section

variable (holding : Holding rules support items)
include holding

/-- Cutting the pending messages has no effect on the configuration. -/
theorem Holding.commitAll_items :
    commitAll rules support.config (items.map Prod.snd) = some support.config := by
  apply commitAll_of_noop
  intro _ member
  rcases List.mem_map.mp member with ⟨held, heldMember, rfl⟩
  exact holding.noop held heldMember

theorem Holding.commitAll_chunks (cuts : Cuts Committer.isIsolated batchSize items item chunks kept)
    (committed : commitOne rules support.config item.2 = some later) :
    commitAll rules support.config (chunks.flatten.map Prod.snd) = some later := by
  have flush := holding.commitAll_items
  cases cuts with
  | joins shared =>
    rw [isIsolated_eq_false_iff.mp shared] at committed
    exact committed
  | fills _ => simpa [flush] using committed
  | splits _ _ single =>
    rcases single with ⟨rfl, rfl⟩ | ⟨rfl, rfl, shared⟩
    · simpa [flush] using committed
    · rw [isIsolated_eq_false_iff.mp shared] at committed
      cases committed
      simpa using flush

/-- What the block cutter does with a message that passes the filters. -/
theorem orders_of_split
    (split : orderItem Committer.isIsolated (rules.batchSize support.config) items
          (env, committer) =
        (chunks, kept)) :
    OrdersItem (order rules support env (some committer)) chunks kept := by
  have orders := holding.holds.ordered Committer.isIsolated
      (rules.batchSize support.config) (env, committer)
  rw [split] at orders
  exact orders

theorem Holding.after (cuts : Cuts Committer.isIsolated batchSize items item chunks kept)
    (passes : rules.apply support.config item.1 = .ok item.2)
    (committed : commitOne rules support.config item.2 = some later)
    {ledger : List WrittenBlock} {cutter : Receiver (Committer Update)}
    (holds : Holds cutter kept) :
    Holding rules ⟨later, ledger, cutter⟩ kept := by
  cases cuts with
  | joins shared =>
    have noop := isIsolated_eq_false_iff.mp shared
    rw [noop] at committed
    cases committed
    constructor
    · exact holds
    · simpa [or_imp, forall_and, noop] using fun env committer => holding.noop (env, committer)
    · simpa [or_imp, forall_and, passes] using fun env committer => holding.passes (env, committer)
  | fills _ => exact Holding.nil holds
  | splits _ _ single =>
    rcases single with ⟨rfl, rfl⟩ | ⟨rfl, rfl, shared⟩
    · exact Holding.nil holds
    · have noop := isIsolated_eq_false_iff.mp shared
      rw [noop] at committed
      cases committed
      exact ⟨holds, by simpa using noop, by simpa using passes⟩

end

end

end Fabric.Orderer.Channel
