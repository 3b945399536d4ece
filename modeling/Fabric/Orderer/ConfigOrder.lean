import Fabric.Orderer.Channel

/-!
# Configurations in force

The filters run when a message is ordered, and the configuration changes when
a block is written.  A message is filtered under the configuration in force
for its block if that is the one to which all messages of the earlier blocks
lead.  This holds as long as no message that changes the configuration is ever
left pending.
-/

namespace Fabric.Orderer.ConfigOrder

open Library Protos BlockCutter Channel
open Config.GroupValues (BatchSize)

section

variable {Config Update : Type}

/-! ## Ledgers -/

/--
All messages of a block pass the filters under a configuration, and one that
has an effect is alone in the block.
-/
def PassesUnder (rules : Rules Config Update) (config : Config) (messages : List Envelope) : Prop :=
  ∀ env ∈ messages, ∃ committer, rules.apply config env = .ok committer ∧
        (committer.isIsolated = true → messages = [env])

section

variable (rules : Rules Config Update) (initial : Config) (ledger : List WrittenBlock)

/--
Each block of the ledger passes the filters under the configuration to which
the messages before it lead.
-/
def FilteredInForce : Prop :=
  ∀ before block after, ledger = before ++ block :: after → ∃ config,
        replay rules initial (ledgerMessages before) = some config ∧
          PassesUnder rules config block.messages

/-- The ledger leads to a configuration. -/
structure LeadsTo (config : Config) : Prop where
  filtered : FilteredInForce rules initial ledger
  replayed : replay rules initial (ledgerMessages ledger) = some config

end

variable {rules : Rules Config Update} {initial config middle later : Config}
  {ledger : List WrittenBlock} {support : ChainSupport Config Update}
  {items kept : Items (Committer Update)} {item : Item (Committer Update)}
  {chunks : List (Items (Committer Update))} {batchSize : BatchSize}

theorem LeadsTo.nil : LeadsTo rules initial [] initial := by
  constructor
  · intro _ _ _ split
    simp at split
  · rfl

theorem LeadsTo.append_block (leads : LeadsTo rules initial ledger config) {block : WrittenBlock}
    (passes : PassesUnder rules config block.messages)
    (replayed : replay rules config block.messages = some later) :
    LeadsTo rules initial (ledger ++ [block]) later := by
  constructor
  · intro before found after split
    rcases List.eq_nil_or_concat after with rfl | ⟨front, _, rfl⟩
    · rcases List.append_inj' split rfl with ⟨rfl, same⟩
      cases same
      exact ⟨config, leads.replayed, passes⟩
    · have shorter : ledger = before ++ found :: front := by
        rw [List.concat_eq_append, ← List.cons_append, ← List.append_assoc] at split
        exact (List.append_inj' split rfl).1
      exact leads.filtered before found front shorter
  · rw [ledgerMessages_append, replay, List.foldlM_append]
    change replay rules initial (ledgerMessages ledger) >>= _ = _
    rw [leads.replayed]
    simpa [ledgerMessages, replay] using replayed

/-! ## Batches -/

/-- Batches that may be written one after another. -/
inductive ChunksFollow (rules : Rules Config Update) :
    Config → List (Items (Committer Update)) → Config → Prop where
  | nil {config : Config} : ChunksFollow rules config [] config
  | cons
      {config middle later : Config} {chunk : Items (Committer Update)}
      {chunks : List (Items (Committer Update))}
      (passes : PassesUnder rules config (chunk.map Prod.fst))
      (replayed : replay rules config (chunk.map Prod.fst) = some middle)
      (committed : commitAll rules config (chunk.map Prod.snd) = some middle)
      (rest : ChunksFollow rules middle chunks later) :
      ChunksFollow rules config (chunk :: chunks) later

theorem ChunksFollow.commitAll (follow : ChunksFollow rules config chunks later) :
    commitAll rules config (chunks.flatten.map Prod.snd) = some later := by
  induction follow with
  | nil => rfl
  | cons _ _ committed _ ih =>
    rw [List.flatten_cons, List.map_append, commitAll_append, committed]
    exact ih

theorem ChunksFollow.take (follow : ChunksFollow rules config chunks later) (count : Nat) :
    ∃ middle, ChunksFollow rules config (chunks.take count) middle := by
  induction follow generalizing count with
  | nil => exact ⟨_, by simpa using .nil⟩
  | cons passes replayed committed _ ih =>
    cases count with
    | zero => exact ⟨_, .nil⟩
    | succ count =>
      rcases ih count with ⟨middle, follow⟩
      exact ⟨middle, .cons passes replayed committed follow⟩

theorem LeadsTo.append_blocksOf (leads : LeadsTo rules initial ledger config)
    (follow : ChunksFollow rules config chunks later) (offset : Option Int) :
    LeadsTo rules initial (ledger ++ blocksOf offset chunks) later := by
  induction follow generalizing ledger offset with
  | nil => simpa [blocksOf] using leads
  | cons passes replayed _ _ ih =>
    have next := ih (leads.append_block (show PassesUnder rules _
            (WrittenBlock.mk _ offset).messages from passes) replayed)
        (offset.map (· + 1))
    simpa [blocksOf] using next

/-! ## What the block cutter returns -/

section

variable (noop : ∀ item ∈ items, item.2 = .noop)
  (passes : ∀ item ∈ items, rules.apply config item.1 = .ok item.2)
include noop passes

theorem replay_of_noop : replay rules config (items.map Prod.fst) = some config := by
  induction items with
  | nil => rfl
  | cons item items ih =>
    rw [List.forall_mem_cons] at noop passes
    have unchanged : advance rules config item.1 = some config := by
      rw [advance, passes.1, noop.1]
      rfl
    rw [replay, List.map_cons, List.foldlM_cons, unchanged]
    exact ih noop.2 passes.2

theorem ChunksFollow.shared (rest : ChunksFollow rules config chunks later) :
    ChunksFollow rules config (items :: chunks) later := by
  apply ChunksFollow.cons _ (replay_of_noop noop passes) _ rest
  · intro _ member
    rcases List.mem_map.mp member with ⟨item, itemMember, rfl⟩
    refine ⟨item.2, passes item itemMember, ?_⟩
    rw [noop item itemMember]
    simp [Committer.isIsolated]
  · apply commitAll_of_noop
    intro _ member
    rcases List.mem_map.mp member with ⟨item, itemMember, rfl⟩
    exact noop item itemMember

end

theorem ChunksFollow.single (passes : rules.apply config item.1 = .ok item.2)
    (committed : commitOne rules config item.2 = some later) :
    ChunksFollow rules config [[item]] later := by
  apply ChunksFollow.cons _ _ _ .nil
  · intro _ member
    rw [List.map_singleton, List.mem_singleton] at member
    cases member
    exact ⟨item.2, passes, fun _ => rfl⟩
  · simp [replay, advance, passes, committed]
  · simpa using committed

theorem chunksFollow_of_cuts (holding : Holding rules support items)
    (cuts : Cuts Committer.isIsolated batchSize items item chunks kept)
    (passes : rules.apply support.config item.1 = .ok item.2)
    (committed : commitOne rules support.config item.2 = some later) :
    ChunksFollow rules support.config chunks later := by
  have unchanged (shared : item.2.isIsolated = false) : support.config = later := by
    rw [isIsolated_eq_false_iff.mp shared] at committed
    exact Option.some.inj committed
  cases cuts with
  | joins shared =>
    rw [← unchanged shared]
    exact .nil
  | fills alone =>
    cases effect : item.2.isIsolated with
    | true =>
      rw [alone effect]
      exact .single passes committed
    | false =>
      rw [← unchanged effect]
      apply ChunksFollow.shared _ _ .nil
      · simpa [or_imp, forall_and, isIsolated_eq_false_iff.mp effect] using
          fun env committer => holding.noop (env, committer)
      · simpa [or_imp, forall_and, passes] using
          fun env committer => holding.passes (env, committer)
  | splits _ _ single =>
    apply ChunksFollow.shared holding.noop holding.passes
    rcases single with ⟨rfl, rfl⟩ | ⟨rfl, rfl, shared⟩
    · exact .single passes committed
    · rw [← unchanged shared]
      exact .nil

/-! ## Resources of a channel -/

/-- The ledger leads to the configuration under which messages are pending. -/
def Current (rules : Rules Config Update) (initial : Config)
    (support : ChainSupport Config Update) : Prop :=
  LeadsTo rules initial support.ledger support.config ∧ ∃ items, Holding rules support items

theorem current_new (leads : LeadsTo rules initial ledger config) :
    Current rules initial ⟨config, ledger, Receiver.new⟩ :=
  ⟨leads, [], Holding.nil holds_new⟩

theorem Current.cut {Reason : Type} (current : Current rules initial support)
    (metadata : Option Int) :
    ∃ written, (writeBlock rules { support with cutter := Receiver.new }
          support.cutter.pendingBatch support.cutter.pendingCommitters
          metadata : Outcome Reason (ChainSupport Config Update)) =
        .ok written ∧
      Current rules initial written := by
  rcases current with ⟨leads, items, holding⟩
  have follow : ChunksFollow rules support.config [items] support.config :=
    .shared holding.noop holding.passes .nil
  refine ⟨_, ?_, current_new (leads.append_blocksOf follow metadata)⟩
  rw [holding.holds.messages, holding.holds.committers, writeBlock, holding.commitAll_items]
  rfl

section

variable {env : Envelope} {committer : Committer Update}

theorem exists_batches (holding : Holding rules support items)
    (passes : rules.apply support.config env = .ok committer) :
    ∃ chunks kept later, OrdersItem (order rules support env (some committer)) chunks kept ∧
        ChunksFollow rules support.config chunks later ∧
        ∀ ledger, Holding rules ⟨later, ledger, (order rules support env (some committer)).2⟩
            kept := by
  rcases exists_commitOne passes with ⟨later, committed, _⟩
  rcases split : orderItem Committer.isIsolated (rules.batchSize support.config) items
        (env, committer) with
    ⟨chunks, kept⟩
  have cuts := cuts_of_orderItem split
  have orders := orders_of_split holding split
  exact ⟨chunks, kept, later, orders, chunksFollow_of_cuts holding cuts passes committed,
    fun ledger => holding.after cuts passes committed orders.receiver⟩

section

variable (current : Current rules initial support)
  (passes : rules.apply support.config env = .ok committer)
include current passes

theorem Current.exists_writeBatches {Reason : Type} (offset : Option Int) :
    ∃ written, (writeBatches rules
          { support with cutter := (order rules support env (some committer)).2 }
          offset (order rules support env (some committer)).1.messageBatches
          (order rules support env (some committer)).1.committerBatches :
            Outcome Reason (ChainSupport Config Update)) =
        .ok written ∧
      Current rules initial written := by
  rcases current with ⟨leads, _, holding⟩
  rcases exists_batches holding passes with ⟨chunks, kept, _, orders, follow, after⟩
  refine ⟨_, ?_, leads.append_blocksOf follow offset, kept, after _⟩
  rw [orders.messageBatches, orders.committerBatches]
  exact writeBatches_ok { support with cutter := (order rules support env (some committer)).2 }
    chunks offset follow.commitAll

end

/-- What is written when a channel stops after some of the blocks. -/
theorem Current.leadsTo_of_take {Reason : Type} {filtered : Option (Committer Update)}
    {offset : Option Int} {count : Nat} {written : ChainSupport Config Update}
    (current : Current rules initial support)
    (filters : (runFilters rules support.config env : Outcome Reason _) = .ok filtered)
    (writes : (writeBatches rules
          { support with cutter := (order rules support env filtered).2 }
          offset ((order rules support env filtered).1.messageBatches.take count)
          ((order rules support env filtered).1.committerBatches.take count) :
            Outcome Reason (ChainSupport Config Update)) =
        .ok written) :
    LeadsTo rules initial written.ledger written.config := by
  rw [runFilters] at filters
  cases passes : rules.apply support.config env with
  | ok committer =>
    rw [passes] at filters
    cases filters
    rcases current with ⟨leads, _, holding⟩
    rcases exists_batches holding passes with ⟨chunks, _, _, orders, follow, _⟩
    rcases follow.take count with ⟨_, taken⟩
    rw [orders.messageBatches, orders.committerBatches, ← List.map_take, ← List.map_take,
      writeBatches_ok { support with cutter := (order rules support env (some committer)).2 }
        (chunks.take count) offset taken.commitAll] at writes
    cases writes
    exact leads.append_blocksOf taken offset
  | error _ =>
    rw [passes] at filters
    cases filters
    simp only [order, ordered, List.take_nil, writeBatches, Outcome.ok.injEq] at writes
    cases writes
    exact current.1
  | panic =>
    rw [passes] at filters
    cases filters

end

end

end Fabric.Orderer.ConfigOrder
