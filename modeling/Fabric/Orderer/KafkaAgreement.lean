import Fabric.Orderer.KafkaReplay

/-!
# Agreement of the Kafka orderers

Every orderer follows the states of an orderer that never stops, with one
exception.  A message can complete a batch without being in it; an orderer
that stops right after that block resumes with the same message and an empty
cutter.  It is then one block ahead, and in step again after that message.

From this the ledgers of any two orderers are prefixes of one another, and
the time-to-cut messages that the orderers post are never errors.  As in
`Orderer.Channel`, committers only change the configuration, and the ledger takes
every block.
-/

namespace Fabric.Orderer.KafkaAgreement

open Library ByteString Protos BlockCutter Channel Kafka KafkaReplay

variable {partition : List KafkaMessage} {message : KafkaMessage} {nextOffset : Nat}

section

variable {Config Update : Type} (rules : Rules Config Update) (codec : Codec) (config : Config)

/-- The state of the partition before an offset. -/
def stateAt (partition : List KafkaMessage) (offset : Nat) : ChainSupport Config Update :=
  canonical rules codec config (partition.take offset)

/-- How a running orderer relates to the partition. -/
inductive Follows
    (partition : List KafkaMessage) (chain : Chain Config Update) (nextOffset : Nat) : Prop where
  | synced
      (bound : nextOffset ≤ partition.length)
      (tracks : Tracks chain (stateAt rules codec config partition nextOffset))
  | ahead
      {support : ChainSupport Config Update} {message : KafkaMessage}
      (next : partition[nextOffset]? = some message)
      (inTime : InTime support message)
      (tracks : Tracks chain support)
      (holding : Holding rules support [])
      (grows : support.ledger <+: (stateAt rules codec config partition (nextOffset + 1)).ledger)
      (leads : Leads rules codec support nextOffset message
          (stateAt rules codec config partition (nextOffset + 1)))

/-- An orderer with this configuration and ledger can be started. -/
def Resumes (partition : List KafkaMessage) (present : Config)
    (ledger : List WrittenBlock) : Prop :=
  Follows rules codec config partition (newChain present ledger) (startOffset ledger)

variable {rules codec config} {chain : Chain Config Update} {support : ChainSupport Config Update}
  {items kept : Items (Committer Update)}

theorem stateAt_append (bound : nextOffset ≤ partition.length) (more : List KafkaMessage) :
    stateAt rules codec config (partition ++ more) nextOffset =
      stateAt rules codec config partition nextOffset := by
  rw [stateAt, List.take_append_of_le_length bound]
  rfl

theorem lt_length (next : partition[nextOffset]? = some message) : nextOffset < partition.length :=
  (List.getElem?_eq_some_iff.mp next).1

theorem Follows.append (follows : Follows rules codec config partition chain nextOffset)
    (more : List KafkaMessage) :
    Follows rules codec config (partition ++ more) chain nextOffset := by
  cases follows with
  | synced bound tracks =>
    apply Follows.synced
    · rw [List.length_append]
      omega
    · rw [stateAt_append bound]
      exact tracks
  | ahead next inTime tracks holding grows leads =>
    have bound := lt_length next
    have later : stateAt rules codec config (partition ++ more) (nextOffset + 1) =
          stateAt rules codec config partition (nextOffset + 1) :=
      stateAt_append (Nat.succ_le_of_lt bound) more
    apply Follows.ahead _ inTime tracks holding
    · rw [later]
      exact grows
    · rw [later]
      exact leads
    · rw [List.getElem?_append_left bound]
      exact next

/-- What the message at an offset does to the state of the partition. -/
theorem exists_delivered_at (wellTimed : WellTimed rules codec config partition)
    (next : partition[nextOffset]? = some message) :
    ∃ items kept, Holding rules (stateAt rules codec config partition nextOffset) items ∧
        Holding rules (stateAt rules codec config partition (nextOffset + 1)) kept ∧
        Delivered rules codec (stateAt rules codec config partition nextOffset) items nextOffset
          message (stateAt rules codec config partition (nextOffset + 1))
          kept ∧
        Leads rules codec (stateAt rules codec config partition nextOffset) nextOffset message
          (stateAt rules codec config partition (nextOffset + 1)) := by
  have bound := lt_length next
  have oneMore : partition.take (nextOffset + 1) = partition.take nextOffset ++ [message] := by
    rw [List.take_add_one, next]
    rfl
  have upTo : WellTimed rules codec config (partition.take nextOffset ++ [message]) := by
    rw [← oneMore]
    rw [← List.take_append_drop (nextOffset + 1) partition] at wellTimed
    exact wellTimed.of_append
  have position : (partition.take nextOffset).length = nextOffset :=
    List.length_take_of_le (Nat.le_of_lt bound)
  have delivered := upTo.exists_delivered
  rw [← oneMore, position] at delivered
  exact delivered

theorem stateAt_initial (wellTimed : WellTimed rules codec config partition) (offset : Nat) :
    (stateAt rules codec config partition offset).ledger <+:
        (canonical rules codec config partition).ledger ∧
      ((canonical rules codec config partition).ledger.length =
          (stateAt rules codec config partition offset).ledger.length →
        (stateAt rules codec config partition offset).cutter.pendingBatch <+:
          (canonical rules codec config partition).cutter.pendingBatch) := by
  rw [← List.take_append_drop offset partition] at wellTimed
  have grows := wellTimed.canonical_initial
  rw [List.take_append_drop] at grows
  exact grows

theorem Follows.ledger_initial (follows : Follows rules codec config partition chain nextOffset)
    (wellTimed : WellTimed rules codec config partition) :
    chain.support.ledger <+: (canonical rules codec config partition).ledger := by
  cases follows with
  | synced _ tracks =>
    rw [tracks.support_eq]
    exact (stateAt_initial wellTimed nextOffset).1
  | ahead _ _ tracks _ grows _ =>
    rw [tracks.support_eq]
    exact grows.trans (stateAt_initial wellTimed (nextOffset + 1)).1

/-! ## Resuming after a stop -/

theorem startOffset_append (ledger : List WrittenBlock) (messages : List Envelope) {offset : Int}
    (positive : 0 < offset) :
    startOffset (ledger ++ [⟨messages, some offset⟩]) = (offset + 1).toNat := by
  have nonzero : offset ≠ 0 := by omega
  have notOldest : offset + 1 ≠ offsetOldest := by
    rw [offsetOldest]
    omega
  simp [startOffset, readMetadata, Option.filter_some, nonzero, getLastOffsetPersisted, notOldest]

theorem tracks_newChain (holding : Holding rules support []) :
    Tracks (newChain support.config support.ledger) support := by
  have empty := holding.holds.unique holds_new
  constructor
  · rw [newChain, ← empty]
  · rfl
  · simp [newChain]

section

variable {later : ChainSupport Config Update}
  (reached : stateAt rules codec config partition (nextOffset + 1) = later)
include reached

theorem resumes_synced {ledger : List WrittenBlock} {messages : List Envelope}
    (bound : nextOffset < partition.length) (positive : 0 < nextOffset)
    (after : Holding rules later [])
    (last : later.ledger = ledger ++ [⟨messages, some (nextOffset : Int)⟩]) :
    Resumes rules codec config partition later.config later.ledger := by
  have start : startOffset later.ledger = nextOffset + 1 := by
    rw [last, startOffset_append ledger messages (by omega)]
    omega
  subst reached
  rw [Resumes, start]
  exact Follows.synced bound (tracks_newChain after)

variable {payload : Slice} {env : Envelope} {committer : Committer Update}

/--
A message that completes the pending batch without being in it is read again
after a stop, and then does the rest of what it did.
-/
theorem resumes_ahead {rest : List (Items (Committer Update))} (late : 1 < nextOffset)
    (next : partition[nextOffset]? = some (.regular payload))
    (accepted : Accepted rules codec support items nextOffset payload env committer
        (items :: rest) kept later)
    (after : Holding rules later kept)
    (fresh : orderItem Committer.isIsolated (rules.batchSize support.config) [] (env, committer) =
        (rest, kept))
    (single : rest = [[(env, committer)]] ∧ kept = [] ∨
        rest = [] ∧ kept = [(env, committer)] ∧ committer.isIsolated = false) :
    Resumes rules codec config partition support.config (support.ledger ++
        [⟨items.map Prod.fst, some ((nextOffset : Int) - 1)⟩]) := by
  generalize written : support.ledger ++ [⟨items.map Prod.fst, some ((nextOffset : Int) - 1)⟩] =
      ledger
  have start : startOffset ledger = nextOffset := by
    rw [← written, startOffset_append _ _ (by omega)]
    omega
  have empty : Holding rules (⟨support.config, ledger, Receiver.new⟩ : ChainSupport Config Update)
        [] :=
    Holding.nil holds_new
  have grown : later.ledger = ledger ++ blocksOf (some (offsetOf rest kept nextOffset)) rest := by
    rw [accepted.ledger, ← written]
    rcases single with ⟨rfl, rfl⟩ | ⟨rfl, rfl, _⟩ <;> simp [offsetOf, blocksOf]
  have orders := orders_of_split empty fresh
  have leads := leads_accepted empty nextOffset accepted.decoded accepted.passes
      accepted.committed fresh
  rw [← grown, orders.receiver.unique after.holds] at leads
  subst reached
  rw [Resumes, start]
  apply Follows.ahead next trivial (tracks_newChain empty) empty
  · rw [grown]
    exact List.prefix_append _ _
  · exact leads

variable {chunks : List (Items (Committer Update))}

theorem resumes_accepted
    (accepted : Accepted rules codec support items nextOffset payload env committer
        chunks kept later)
    (after : Holding rules later kept)
    (next : partition[nextOffset]? = some (.regular payload)) (positive : 0 < nextOffset)
    (late : items ≠ [] → 1 < nextOffset)
    (resumes : Resumes rules codec config partition support.config support.ledger) :
    Resumes rules codec config partition later.config later.ledger := by
  have bound := lt_length next
  have ledger := accepted.ledger
  cases cuts_of_orderItem accepted.split with
  | joins shared =>
    rw [blocksOf, List.append_nil] at ledger
    rw [ledger, accepted.config_eq shared]
    exact resumes
  | fills _ => exact resumes_synced reached bound positive after ledger
  | splits nonempty fresh single =>
    have again := resumes_ahead reached (late nonempty) next accepted after fresh single
    rcases single with ⟨rfl, rfl⟩ | ⟨rfl, rfl, shared⟩
    · have last : later.ledger =
            (support.ledger ++ [⟨items.map Prod.fst, some ((nextOffset : Int) - 1)⟩]) ++
              [⟨[env], some (nextOffset : Int)⟩] := by
        rw [ledger]
        simp [offsetOf, blocksOf]
      exact resumes_synced reached bound positive after last
    · rw [ledger, accepted.config_eq shared]
      exact again

variable {written : ChainSupport Config Update} {count : Nat}

omit reached in
theorem writeSome_eq {final : Config}
    (passes : rules.apply chain.support.config env = .ok committer)
    (orders : OrdersItem (order rules chain.support env (some committer)) chunks kept)
    (committed : commitAll rules chain.support.config ((chunks.take count).flatten.map Prod.snd) =
        some final)
    (writes : writeSome rules chain nextOffset env count = .ok written) :
    written.config = final ∧ written.ledger = chain.support.ledger ++
          blocksOf (some (offsetOf chunks kept nextOffset)) (chunks.take count) := by
  simp only [writeSome, runFilters, passes, Outcome.ok_bind, orders.messageBatches,
    orders.committerBatches, ← List.map_take, firstOffset_eq_offsetOf orders nextOffset] at writes
  rw [writeBatches_ok
    { chain.support with cutter := (order rules chain.support env (some committer)).2 }
    (chunks.take count) _ committed] at writes
  cases writes
  exact ⟨rfl, rfl⟩

theorem resumes_writeSome (holding : Holding rules chain.support items)
    (accepted : Accepted rules codec chain.support items nextOffset payload env
        committer chunks kept later)
    (after : Holding rules later kept)
    (next : partition[nextOffset]? = some (.regular payload)) (positive : 0 < nextOffset)
    (late : items ≠ [] → 1 < nextOffset)
    (resumes : Resumes rules codec config partition chain.support.config chain.support.ledger)
    (writes : writeSome rules chain nextOffset env count = .ok written) :
    Resumes rules codec config partition written.config written.ledger := by
  have passes := accepted.passes
  have orders := orders_of_split holding accepted.split
  have cuts := cuts_of_orderItem accepted.split
  by_cases all : chunks.length ≤ count
  · have taken := List.take_of_length_le all
    have committed := holding.commitAll_chunks cuts accepted.committed
    rw [← taken] at committed
    rcases writeSome_eq passes orders committed writes with ⟨config, ledger⟩
    rw [config, ledger, taken, ← accepted.ledger]
    exact resumes_accepted reached accepted after next positive late resumes
  · have few : count < chunks.length := Nat.lt_of_not_le all
    cases count with
    | zero =>
      rcases writeSome_eq passes orders rfl writes with ⟨config, ledger⟩
      rw [config, ledger, List.take_zero, blocksOf, List.append_nil]
      exact resumes
    | succ count =>
      cases cuts with
      | joins shared | fills _ => simp at few
      | splits nonempty fresh single =>
        have again := resumes_ahead reached (late nonempty) next accepted after fresh single
        rcases single with ⟨rfl, rfl⟩ | ⟨rfl, rfl, shared⟩
        · have zero : count = 0 := by
            simp only [List.length_cons, List.length_nil] at few
            omega
          subst zero
          have first : commitAll rules chain.support.config
                  (([items, [(env, committer)]].take 1).flatten.map Prod.snd) =
                some chain.support.config := by
            simpa using holding.commitAll_items
          rcases writeSome_eq passes orders first writes with ⟨config, ledger⟩
          rw [config, ledger]
          exact again
        · simp at few

end

/-! ## One step of an orderer -/

/-- The first message of a partition is a connect message. -/
def StartsConnected (partition : List KafkaMessage) : Prop :=
  ∀ message, partition[0]? = some message → message = .connect

theorem StartsConnected.positive (connected : StartsConnected partition)
    (next : partition[nextOffset]? = some message)
    (other : message ≠ .connect) : 0 < nextOffset := by
  apply Nat.pos_of_ne_zero
  rintro rfl
  exact other (connected message next)

/-- Nothing is pending before the second message. -/
theorem StartsConnected.late (connected : StartsConnected partition)
    (holding : Holding rules (stateAt rules codec config partition nextOffset) items)
    (nonempty : items ≠ []) : 1 < nextOffset := by
  have pending := (pendingBatch_ne_nil_iff holding.holds).mpr nonempty
  match nextOffset with
  | 0 => exact absurd rfl pending
  | 1 =>
    cases partition with
    | nil => exact absurd rfl pending
    | cons message _ =>
      cases connected message rfl
      exact absurd rfl pending
  | offset + 2 => omega

section

variable (follows : Follows rules codec config partition chain nextOffset)
  (wellTimed : WellTimed rules codec config partition)
include follows wellTimed

/--
An orderer that follows the partition still does after a message, unless a
filter panics.
-/
theorem Follows.processMessage (next : partition[nextOffset]? = some message) :
    (∃ later, processMessage rules codec chain nextOffset message = .ok later ∧
        later.support = stateAt rules codec config partition (nextOffset + 1) ∧
        Follows rules codec config partition later (nextOffset + 1)) ∨
      (processMessage rules codec chain nextOffset message = .panic ∧
        ∃ payload, message = .regular payload) := by
  have leads : ∃ support, Tracks chain support ∧ Leads rules codec support nextOffset message
            (stateAt rules codec config partition (nextOffset + 1)) := by
    cases follows with
    | synced _ tracks =>
      rcases exists_delivered_at wellTimed next with ⟨_, _, _, _, _, leads⟩
      exact ⟨_, tracks, leads⟩
    | ahead same _ tracks _ _ leads =>
      rw [next] at same
      cases same
      exact ⟨_, tracks, leads⟩
  rcases leads with ⟨support, tracks, leads⟩
  rcases leads chain tracks with ⟨later, processed, tracksLater⟩ | ⟨panics, _, regular⟩
  · exact Or.inl ⟨later, processed, tracksLater.support_eq, .synced (lt_length next) tracksLater⟩
  · exact Or.inr ⟨panics, regular⟩

section

variable (connected : StartsConnected partition) (next : partition[nextOffset]? = some message)
include connected next

theorem Follows.exists_delivered :
    ∃ items kept, Holding rules chain.support items ∧ (items ≠ [] → 1 < nextOffset) ∧ Holding rules
          (stateAt rules codec config partition (nextOffset + 1)) kept ∧
        Delivered rules codec chain.support items nextOffset message
          (stateAt rules codec config partition (nextOffset + 1)) kept := by
  cases follows with
  | synced _ tracks =>
    rcases exists_delivered_at wellTimed next with ⟨items, kept, holding, after, delivered, _⟩
    rw [tracks.support_eq]
    exact ⟨items, kept, holding, connected.late holding, after, delivered⟩
  | ahead same inTime tracks holding _ leads =>
    rw [next] at same
    cases same
    rcases KafkaReplay.exists_delivered holding inTime nextOffset with
      ⟨_, kept, after, delivered, arrives⟩
    have reached := arrives.deliverTo_eq.symm.trans leads.deliverTo_eq
    rw [reached] at after delivered
    rw [tracks.support_eq]
    exact ⟨[], kept, holding, by simp, after, delivered⟩

theorem Follows.resumes_after
    (resumes : Resumes rules codec config partition chain.support.config chain.support.ledger) :
    Resumes rules codec config partition
      (stateAt rules codec config partition (nextOffset + 1)).config
      (stateAt rules codec config partition (nextOffset + 1)).ledger := by
  have bound := lt_length next
  rcases follows.exists_delivered wellTimed connected next with ⟨_, _, _, late, after, delivered⟩
  generalize reached : stateAt rules codec config partition (nextOffset + 1) = later at *
  cases delivered with
  | ignored ignored => exact resumes
  | accepted accepted =>
    have positive := connected.positive next (by simp)
    exact resumes_accepted reached accepted after next positive late resumes
  | cut _ =>
    have positive := connected.positive next (by simp)
    exact resumes_synced reached bound positive after rfl

end

theorem Follows.resumes_writeSome {payload : Slice} {env : Envelope} {count : Nat}
    {written : ChainSupport Config Update} (connected : StartsConnected partition)
    (next : partition[nextOffset]? = some (.regular payload))
    (decoded : codec.unmarshalEnvelope payload.bytes = some env)
    (resumes : Resumes rules codec config partition chain.support.config chain.support.ledger)
    (writes : writeSome rules chain nextOffset env count = .ok written) :
    Resumes rules codec config partition written.config written.ledger := by
  rcases follows.exists_delivered wellTimed connected next with
    ⟨_, _, holding, late, after, delivered⟩
  have positive := connected.positive next (by simp)
  generalize reached : stateAt rules codec config partition (nextOffset + 1) = later at *
  cases delivered with
  | ignored ignored =>
    cases ignored with
    | undecodable undecodable =>
      rw [decoded] at undecodable
      cases undecodable
    | rejected same rejected =>
      rw [decoded] at same
      cases same
      simp only [writeSome, runFilters, rejected, Outcome.ok_bind, order,
        ordered, List.take_nil, writeBatches] at writes
      cases writes
      exact resumes
    | panics same panics =>
      rw [decoded] at same
      cases same
      rw [writeSome, runFilters, panics] at writes
      cases writes
  | accepted accepted =>
    have same := accepted.decoded
    rw [decoded] at same
    cases same
    exact KafkaAgreement.resumes_writeSome reached holding accepted after next positive late
        resumes writes

end

end

/-! ## The system -/

section

variable {Node Config Update : Type} (rules : Rules Config Update) (codec : Codec) (config : Config)

def Sound (partition : List KafkaMessage) : OrdererState Config Update → Prop
  | .stopped present ledger => Resumes rules codec config partition present ledger
  | .running chain nextOffset =>
    partition ≠ [] ∧ Follows rules codec config partition chain nextOffset ∧
      Resumes rules codec config partition chain.support.config chain.support.ledger
  | .failed _ _ => False

/-- What holds of the partition and of every orderer. -/
structure Invariant (system : System Node Config Update) : Prop where
  wellTimed : WellTimed rules codec config system.partition
  connected : StartsConnected system.partition
  sound : ∀ node, Sound rules codec config system.partition (system.orderers node)

variable {rules codec config} {system later : System Node Config Update}
  {orderer : OrdererState Config Update}

theorem Sound.append (sound : Sound rules codec config partition orderer) (message : KafkaMessage) :
    Sound rules codec config (partition ++ [message]) orderer := by
  cases orderer with
  | stopped present ledger => exact Follows.append sound [message]
  | running _ _ =>
    rcases sound with ⟨_, follows, resumes⟩
    exact ⟨by simp, follows.append [message], Follows.append resumes _⟩
  | failed present ledger => exact sound

theorem StartsConnected.append (connected : StartsConnected partition)
    (first : partition = [] → message = .connect) :
    StartsConnected (partition ++ [message]) := by
  cases partition with
  | nil =>
    intro _ same
    cases same
    exact first rfl
  | cons _ _ => exact connected

theorem Invariant.post (invariant : Invariant rules codec config system)
    (first : system.partition = [] → message = .connect)
    (inTime : InTime (canonical rules codec config system.partition) message) :
    Invariant rules codec config (system.post message) := by
  constructor
  · exact invariant.wellTimed.append_singleton inTime
  · exact invariant.connected.append first
  · intro node
    exact (invariant.sound node).append message

variable {node : Node} {chain : Chain Config Update}

theorem Invariant.running (invariant : Invariant rules codec config system)
    (running : system.orderers node = .running chain nextOffset) :
    system.partition ≠ [] ∧ Follows rules codec config system.partition chain nextOffset ∧
      Resumes rules codec config system.partition chain.support.config chain.support.ledger := by
  have sound := invariant.sound node
  rw [running] at sound
  exact sound

/-- The time-to-cut message of an expired timer is no error. -/
theorem Invariant.inTime_timeToCut (invariant : Invariant rules codec config system)
    (running : system.orderers node = .running chain nextOffset) (expired : chain.timer = true) :
    InTime (canonical rules codec config system.partition)
      (.timeToCut (chain.lastCutBlockNumber + 1)) := by
  rcases invariant.running running with ⟨_, follows, _⟩
  cases follows with
  | synced _ tracks =>
    rcases stateAt_initial invariant.wellTimed nextOffset with ⟨grows, pending⟩
    have shorter := grows.length_le
    rw [tracks.lastCut]
    refine ⟨by omega, ?_⟩
    intro _ empty
    have held := pending (by omega)
    rw [empty] at held
    exact tracks.pending expired (List.prefix_nil.mp held)
  | ahead _ _ tracks holding grows _ =>
    have held := tracks.pending expired
    rw [pendingBatch_ne_nil_iff holding.holds] at held
    exact absurd rfl held

theorem Follows.resetTimer (follows : Follows rules codec config partition chain nextOffset) :
    Follows rules codec config partition { chain with timer := false }
      nextOffset := by
  cases follows with
  | synced bound tracks => exact .synced bound ⟨tracks.support_eq, tracks.lastCut, by simp⟩
  | ahead next inTime tracks holding grows leads =>
    exact .ahead next inTime ⟨tracks.support_eq, tracks.lastCut, by simp⟩ holding grows leads

theorem Invariant.consume (invariant : Invariant rules codec config system)
    (running : system.orderers node = .running chain nextOffset)
    (next : system.partition[nextOffset]? = some message) :
    Sound rules codec config system.partition
      (Kafka.consume rules codec chain nextOffset message) := by
  rcases invariant.running running with ⟨nonempty, follows, resumes⟩
  rcases follows.processMessage invariant.wellTimed next with
    ⟨_, processed, support, followsLater⟩ | ⟨panics, _⟩
  · have resumesLater := follows.resumes_after invariant.wellTimed invariant.connected next resumes
    rw [Kafka.consume, processed]
    rw [← support] at resumesLater
    exact ⟨nonempty, followsLater, resumesLater⟩
  · rw [Kafka.consume, panics]
    exact resumes

theorem invariant_initial :
    Invariant rules codec config
      (⟨[], fun _ => .stopped config []⟩ : System Node Config Update) := by
  constructor
  · intro earlier message _ split
    cases earlier <;> cases split
  · intro message first
    cases first
  · intro _
    exact .synced (Nat.zero_le _) ⟨rfl, rfl, by simp [newChain]⟩

variable [DecidableEq Node]

theorem Invariant.set (invariant : Invariant rules codec config system) (node : Node)
    (sound : Sound rules codec config system.partition orderer) :
    Invariant rules codec config (system.set node orderer) := by
  constructor
  · exact invariant.wellTimed
  · exact invariant.connected
  · intro other
    by_cases same : other = node
    · subst same
      simpa [System.set] using sound
    · simpa [System.set, same] using invariant.sound other

theorem Invariant.step (invariant : Invariant rules codec config system)
    (step : Step rules codec system later) :
    Invariant rules codec config later := by
  cases step with
  | @start node _ _ stopped =>
    have resumes := invariant.sound node
    rw [stopped] at resumes
    have posted : Invariant rules codec config (system.post .connect) :=
      invariant.post (fun _ => rfl) trivial
    have resumesLater := resumes.append .connect
    exact posted.set node ⟨by simp [System.post], resumesLater, resumesLater⟩
  | connect running => exact invariant.post (fun _ => rfl) trivial
  | enqueue running _ =>
    have nonempty := (invariant.running running).1
    exact invariant.post (fun empty => absurd empty nonempty) trivial
  | consume running next => exact invariant.set _ (invariant.consume running next)
  | stopBetweenBlocks running next decoded writes =>
    rcases invariant.running running with ⟨_, follows, resumes⟩
    apply invariant.set
    exact follows.resumes_writeSome invariant.wellTimed invariant.connected
        next decoded resumes writes
  | timerPosts running expired =>
    rcases invariant.running running with ⟨nonempty, follows, resumes⟩
    have posted := invariant.post (fun empty => absurd empty nonempty)
        (invariant.inTime_timeToCut running expired)
    apply posted.set
    exact ⟨by simp [System.post], follows.resetTimer.append _, Follows.append resumes _⟩
  | timerFailsToPost running expired =>
    rcases invariant.running running with ⟨nonempty, follows, resumes⟩
    exact invariant.set _ ⟨nonempty, follows.resetTimer, resumes⟩
  | stop running =>
    rcases invariant.running running with ⟨_, _, resumes⟩
    exact invariant.set _ resumes

theorem invariant_of_reachable (reachable : Reachable rules codec config system) :
    Invariant rules codec config system := by
  induction reachable with
  | initial => exact invariant_initial
  | step _ step ih => exact ih.step step

theorem Sound.ledger_initial (sound : Sound rules codec config partition orderer)
    (wellTimed : WellTimed rules codec config partition) :
    orderer.ledger <+: (canonical rules codec config partition).ledger := by
  cases orderer with
  | stopped present ledger => exact Follows.ledger_initial sound wellTimed
  | running _ _ => exact sound.2.1.ledger_initial wellTimed
  | failed present ledger => exact absurd sound id

/--
In every reachable system, the ledgers of any two orderers are prefixes of one
another, the messages of every ledger are a prefix of the accepted messages of
the partition, no orderer has failed, and a time-to-cut message that a running
orderer reads next is processed without an error.
-/
theorem orderers_agree (reachable : Reachable rules codec config system) :
    (∀ left right, (system.orderers left).ledger <+: (system.orderers right).ledger ∨
        (system.orderers right).ledger <+: (system.orderers left).ledger) ∧
      (∀ node, ledgerMessages (system.orderers node).ledger <+: (acceptedFrom rules config
            (envelopes codec system.partition)).2) ∧
      (∀ node present ledger, system.orderers node ≠ .failed present ledger) ∧
      ∀ node chain nextOffset ttcNumber, system.orderers node = .running chain nextOffset →
        system.partition[nextOffset]? = some (.timeToCut ttcNumber) →
        ∃ later, processTimeToCut rules chain nextOffset ttcNumber = .ok later := by
  have invariant := invariant_of_reachable reachable
  have grows : ∀ node, (system.orderers node).ledger <+:
          (canonical rules codec config system.partition).ledger :=
    fun node => (invariant.sound node).ledger_initial invariant.wellTimed
  refine ⟨?_, ?_, ?_, ?_⟩
  · intro left right
    exact List.prefix_or_prefix_of_prefix (grows left) (grows right)
  · intro node
    rw [invariant.wellTimed.acceptedFrom_eq]
    rcases grows node with ⟨_, whole⟩
    rw [← whole, ledgerMessages_append, List.append_assoc]
    exact List.prefix_append _ _
  · intro node present ledger failed
    have sound := invariant.sound node
    rw [failed] at sound
    exact sound
  · intro node chain nextOffset ttcNumber running next
    rcases invariant.running running with ⟨_, follows, _⟩
    rcases follows.processMessage invariant.wellTimed next with
      ⟨later, processed, _⟩ | ⟨_, _, regular⟩
    · exact ⟨later, processed⟩
    · cases regular

end

/-! A run in which a timer has a block cut. -/

namespace Sample

def env : Envelope := ⟨some [120], none⟩

def payload : Slice := some (Protos.field 1 [120])

def codec : Codec :=
  { Codec.rejecting with
    unmarshalEnvelope := fun bytes =>
      if bytes = payload.bytes then some env else none }

/-- Accept messages that are not empty. -/
def rules : Rules Unit Empty where
  batchSize _ := ⟨2, 100, 10⟩
  apply _ env := if env.payload.isSome then .ok .noop else .error ()
  commit _ update := nomatch update
  commits := by
    intro _ _ update
    cases update

theorem reachable_timeToCut :
    ∃ system : System Bool Unit Empty, Reachable rules codec () system ∧
        (system.orderers true).ledger = [⟨[env], some 2⟩] ∧
        (system.orderers false).ledger = [] ∧
        system.partition = [.connect, .regular payload, .timeToCut 1] := by
  have empty : Reachable rules codec () (⟨[], fun _ => .stopped () []⟩ : System Bool Unit Empty) :=
    .initial
  have started := empty.step (.start (show System.orderers _ true = _ from rfl))
  have enqueued := started.step (.enqueue (show System.orderers _ true = _ from rfl) payload)
  have connected := enqueued.step (.consume (show System.orderers _ true = _ from rfl) rfl)
  have consumed := connected.step (.consume (show System.orderers _ true = _ from rfl) rfl)
  have posted := consumed.step (.timerPosts (show System.orderers _ true = _ from rfl) rfl)
  have cut := posted.step (.consume (show System.orderers _ true = _ from rfl) rfl)
  exact ⟨_, cut, rfl, rfl, rfl⟩

end Sample

/-- The orderer that has cut a block and the one that has not started. -/
theorem orderers_agree_timeToCut :
    ∃ system : System Bool Unit Empty, Reachable Sample.rules Sample.codec () system ∧
        (system.orderers true).ledger = [⟨[Sample.env], some 2⟩] ∧
        ledgerMessages (system.orderers true).ledger <+: (acceptedFrom Sample.rules ()
            (envelopes Sample.codec system.partition)).2 ∧
        ((system.orderers true).ledger <+: (system.orderers false).ledger ∨
          (system.orderers false).ledger <+: (system.orderers true).ledger) := by
  rcases Sample.reachable_timeToCut with ⟨system, reachable, ledger, _⟩
  have agree := orderers_agree reachable
  exact ⟨system, reachable, ledger, agree.2.1 true, agree.1 true false⟩

end Fabric.Orderer.KafkaAgreement
