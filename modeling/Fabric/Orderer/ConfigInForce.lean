import Fabric.Library.BigEndian
import Fabric.Orderer.Filters
import Fabric.Orderer.KafkaReplay
import Fabric.Orderer.Solo

/-!
# Configuration transactions at ordering time

The Kafka loop keeps the ledger in step with the configuration just as the
solo loop does.  With the filters of a channel, this says that every message
in a block was filtered under the configuration to which the earlier blocks
lead, that a configuration transaction is alone in its block, and that its
committer finds the configuration under which the transaction was validated.
Requests to create the channel itself, which write to its ledger, are left out, as
in `Orderer.Channel`.
-/

namespace Fabric.Orderer.ConfigInForce

open Library ByteString Protos ConfigTx Manager BlockCutter Channel ConfigOrder Filters Kafka
  KafkaReplay

/-! ## The Kafka loop -/

section

variable {Node Config Update : Type} [DecidableEq Node] {rules : Rules Config Update}
  {codec : Codec} {initial : Config} {chain : Chain Config Update} {message : KafkaMessage}

section

variable (current : Current rules initial chain.support)
include current

variable {env : Envelope}

theorem current_of_accepted {payload : Slice} {committer : Committer Update}
    (receivedOffset : Nat) (decoded : codec.unmarshalEnvelope payload.bytes = some env)
    (passes : rules.apply chain.support.config env = .ok committer) :
    ∃ later, processMessage rules codec chain receivedOffset (.regular payload) = .ok later ∧
        Current rules initial later.support := by
  rcases current with ⟨leads, items, holding⟩
  rcases exists_commitOne passes with ⟨later, committed, _⟩
  rcases split : orderItem Committer.isIsolated
        (rules.batchSize chain.support.config) items (env, committer) with
    ⟨_, kept⟩
  have cuts := cuts_of_orderItem split
  have follow := chunksFollow_of_cuts holding cuts passes committed
  have orders := orders_of_split holding split
  exact ⟨_, processMessage_accepted holding receivedOffset decoded passes committed split,
    leads.append_blocksOf follow _, kept,
    holding.after cuts passes committed orders.receiver⟩

theorem current_of_timeToCut (receivedOffset ttcNumber : Nat) :
    (∃ later, processTimeToCut rules chain receivedOffset ttcNumber = .ok later ∧
        Current rules initial later.support) ∨
      ∃ reason, processTimeToCut rules chain receivedOffset ttcNumber = .error reason := by
  rcases Nat.lt_trichotomy ttcNumber (chain.lastCutBlockNumber + 1) with
    _ | rfl | larger
  · have stale : ttcNumber ≤ chain.lastCutBlockNumber := by omega
    exact Or.inl ⟨chain, processTimeToCut_stale chain receivedOffset stale, current⟩
  · rcases current with ⟨leads, items, holding⟩
    by_cases empty : items = []
    · subst empty
      right
      exact ⟨.noPendingRequests (chain.lastCutBlockNumber + 1),
        by simp [processTimeToCut, cut, holding.holds.messages]⟩
    · have follow : ChunksFollow rules chain.support.config [items] chain.support.config :=
        .shared holding.noop holding.passes .nil
      exact Or.inl ⟨_, processTimeToCut_matching holding receivedOffset empty,
          current_new (leads.append_blocksOf follow (some receivedOffset))⟩
  · right
    have different : ttcNumber ≠ chain.lastCutBlockNumber + 1 := by omega
    exact ⟨.largerTimeToCut ttcNumber (chain.lastCutBlockNumber + 1),
      by simp [processTimeToCut, different, larger]⟩

/--
Processing a message keeps the ledger in step with the configuration, ends
the loop with an error, or meets a filter that panics.
-/
theorem processMessage_current (receivedOffset : Nat) (message : KafkaMessage) :
    (∃ later, processMessage rules codec chain receivedOffset message = .ok later ∧
        Current rules initial later.support) ∨
      (∃ reason, processMessage rules codec chain receivedOffset message = .error reason) ∨
      ∃ payload env, message = .regular payload ∧ codec.unmarshalEnvelope payload.bytes = some env ∧
          rules.apply chain.support.config env = .panic := by
  cases message with
  | connect => exact Or.inl ⟨chain, rfl, current⟩
  | timeToCut ttcNumber =>
    rcases current_of_timeToCut current receivedOffset ttcNumber with
      cuts | fails
    · exact Or.inl cuts
    · exact Or.inr (Or.inl fails)
  | regular payload =>
    cases decoded : codec.unmarshalEnvelope payload.bytes with
    | none => exact Or.inl ⟨chain, processMessage_undecodable chain receivedOffset decoded, current⟩
    | some env =>
      cases answer : rules.apply chain.support.config env with
      | ok _ => exact Or.inl (current_of_accepted current receivedOffset decoded answer)
      | error reason =>
        exact Or.inl ⟨chain, processMessage_rejected receivedOffset decoded answer, current⟩
      | panic => exact Or.inr (Or.inr ⟨payload, env, rfl, decoded, answer⟩)

end

/-- The ledger of an orderer leads to its configuration. -/
def InStep (rules : Rules Config Update) (initial : Config) : OrdererState Config Update → Prop
  | .stopped config ledger => LeadsTo rules initial ledger config
  | .running chain _ => Current rules initial chain.support
  | .failed config ledger => LeadsTo rules initial ledger config

variable {orderer : OrdererState Config Update}

theorem filteredInForce_of_inStep (inStep : InStep rules initial orderer) :
    FilteredInForce rules initial orderer.ledger := by
  cases orderer with
  | stopped config ledger => exact LeadsTo.filtered inStep
  | running _ _ => exact LeadsTo.filtered inStep.1
  | failed config ledger => exact LeadsTo.filtered inStep

theorem inStep_consume (current : Current rules initial chain.support) (nextOffset : Nat)
    (message : KafkaMessage) :
    InStep rules initial (consume rules codec chain nextOffset message) := by
  rw [consume]
  rcases processMessage_current current nextOffset message with
    ⟨_, ran, after⟩ | ⟨_, fails⟩ | ⟨_, _, rfl, decoded, panics⟩
  · rw [ran]
    exact after
  · rw [fails]
    exact current.1
  · rw [processMessage_panics nextOffset decoded panics]
    exact current.1

variable {system : System Node Config Update}

theorem inStep_set (inStep : ∀ node, InStep rules initial (system.orderers node)) (target : Node)
    (after : InStep rules initial orderer) (node : Node) :
    InStep rules initial ((system.set target orderer).orderers node) := by
  by_cases same : node = target
  · subst same
    simpa [System.set] using after
  · simpa [System.set, same] using inStep node

theorem inStep_of_reachable (reachable : Reachable rules codec initial system) (node : Node) :
    InStep rules initial (system.orderers node) := by
  induction reachable generalizing node with
  | initial => exact LeadsTo.nil
  | @step system _ reachable step ih =>
    have current {node : Node} {chain : Chain Config Update} {nextOffset : Nat}
        (running : system.orderers node = .running chain nextOffset) :
        Current rules initial chain.support := by
      have known := ih node
      rwa [running] at known
    cases step with
    | @start target _ _ stopped =>
      have known := ih target
      rw [stopped] at known
      apply inStep_set _ target _ node
      · exact ih
      · exact current_new known
    | connect running | enqueue running _ => exact ih node
    | consume running next => exact inStep_set ih _ (inStep_consume (current running) _ _) node
    | stopBetweenBlocks running next _ writes =>
      rcases Outcome.bind_ok_iff.mp writes with ⟨_, filters, writes⟩
      apply inStep_set ih _ _ node
      exact (current running).leadsTo_of_take filters writes
    | timerPosts running expired =>
      have known := current running
      apply inStep_set _ _ _ node
      · exact ih
      · exact known
    | timerFailsToPost running expired =>
      have known := current running
      apply inStep_set ih _ _ node
      exact known
    | stop running =>
      have known := (current running).1
      apply inStep_set ih _ _ node
      exact known

end

/-! ## The filters of a channel -/

section

variable {Resources : Type}

/-- Every configuration transaction is alone in its block. -/
def ConfigsAlone (codec : Codec) (ledger : List WrittenBlock) : Prop :=
  ∀ block ∈ ledger, ∀ env ∈ block.messages, configData codec env ≠ none → block.messages = [env]

theorem configsAlone_of_filteredInForce {handlers : ChannelHandlers Resources} {codec : Codec}
    {systemChain : ConfigManager Resources → Envelope → Action Envelope}
    {initial : ConfigManager Resources} {ledger : List WrittenBlock}
    (filtered : FilteredInForce (channelRules handlers codec systemChain) initial ledger) :
    ConfigsAlone codec ledger := by
  intro block member env envMember isConfig
  rcases List.append_of_mem member with ⟨before, after, split⟩
  rcases filtered before block after split with ⟨_, _, passes⟩
  rcases passes env envMember with ⟨_, accepted, alone⟩
  rcases Option.ne_none_iff_exists'.mp isConfig with ⟨_, read⟩
  exact alone (isIsolated_of_configData accepted read)

/--
In every run of the solo or the Kafka loop of a channel, the messages of a
block pass the filters under the configuration to which the messages of the
earlier blocks lead, and a configuration transaction is alone in its block.
The loop panics only where a filter does, so never in a committer.
-/
theorem messages_filtered_in_force {Node : Type} [DecidableEq Node]
    (handlers : ChannelHandlers Resources) (codec : Codec)
    (systemChain : ConfigManager Resources → Envelope → Action Envelope)
    (initial : ConfigManager Resources) :
    let rules := channelRules handlers codec systemChain
    (∀ chain, Solo.Reachable rules initial chain →
      FilteredInForce rules initial chain.support.ledger ∧ ConfigsAlone codec chain.support.ledger ∧
        ∀ event, Solo.main rules chain event = .panic → ∃ msg, event = .message msg ∧
              rules.apply chain.support.config msg = .panic) ∧
      ∀ system : System Node (ConfigManager Resources) ChannelUpdate,
        Reachable rules codec initial system → ∀ node,
          FilteredInForce rules initial (system.orderers node).ledger ∧
            ConfigsAlone codec (system.orderers node).ledger ∧
            ∀ chain nextOffset message, system.orderers node = .running chain nextOffset →
              processMessage rules codec chain nextOffset message = .panic →
              ∃ payload env, message = .regular payload ∧
                  codec.unmarshalEnvelope payload.bytes = some env ∧
                  rules.apply chain.support.config env = .panic := by
  intro rules
  constructor
  · intro chain reachable
    have current := reachable.current
    refine ⟨current.1.filtered, configsAlone_of_filteredInForce current.1.filtered, ?_⟩
    intro event panics
    rcases Solo.main_current current event with ⟨later, ran, _⟩ | filter
    · rw [panics] at ran
      cases ran
    · exact filter
  · intro system reachable node
    have inStep := inStep_of_reachable reachable node
    have filtered := filteredInForce_of_inStep inStep
    refine ⟨filtered, configsAlone_of_filteredInForce filtered, ?_⟩
    intro chain nextOffset message running panics
    rw [running] at inStep
    rcases processMessage_current inStep nextOffset message with
      ⟨later, ran, _⟩ | ⟨_, fails⟩ | filter
    · rw [panics] at ran
      cases ran
    · rw [panics] at fails
      cases fails
    · exact filter

end

namespace Sample

open Config.GroupValues (ordererGroupKey batchSizeKey batchTimeoutKey consensusTypeKey
  blockDataHashingStructureKey hashingAlgorithmKey ordererAddressesKey)

/-!
An update of a channel that has no organizations.  It changes the batch size and
the policies below that the readers policy of the channel asks for.  An encoded
message starts with its type; short bytes stand for the messages in it.
-/

def channelID : GoString := .ascii "ch"

def admins : GoString := .ascii "Admins"

def readers : GoString := .ascii "Readers"

def writers : GoString := .ascii "Writers"

/-- The name of a policy that no group defines. -/
def nobody : GoString := .ascii "Nobody"

/-- The greatest sequence number. -/
def greatest : UInt64 := 18446744073709551615

/-- An encoded number. -/
def number (value : UInt64) : Bytes := BigEndian.bigEndian 8 value.toNat

/-- The number that bytes stand for. -/
def readNumber (bytes : Bytes) : UInt64 := UInt64.ofNat (BigEndian.ofBigEndian bytes)

theorem readNumber_number (value : UInt64) : readNumber (number value) = value := by
  rw [readNumber, number, BigEndian.ofBigEndian_bigEndian, Nat.mod_eq_of_lt, UInt64.ofNat_toNat]
  exact value.toNat_lt

/-- A value that only the administrators of its group may change. -/
def value (key : GoString) (content : Bytes) : GoString × Option ConfigValue :=
  (key, some ⟨0, some content, admins⟩)

/-- Any policy of the given name in the groups below, if there are any. -/
def anyPolicy (name : GoString) : GoString × Option ConfigPolicy :=
  (name, some ⟨0, some ⟨3, some (field 1 name.bytes)⟩, admins⟩)

section

variable (updated : Bool)

/-- The batch size, with twice as many messages after the update. -/
def batchSize : GoString × Option ConfigValue :=
  (batchSizeKey, some ⟨if updated then 1 else 0,
      some [8, if updated then 20 else 10, 16, 144, 78, 24, 136, 39], admins⟩)

/-- The readers policy, which nobody satisfies after the update. -/
def readersPolicy : GoString × Option ConfigPolicy :=
  (readers, some ⟨if updated then 1 else 0,
      some ⟨3, some (field 1 (if updated then nobody else readers).bytes)⟩, admins⟩)

def channelGroup : ConfigGroup :=
  .mk 0 (.present ordererGroupKey (.mk 0 .nil
        [batchSize updated, value batchTimeoutKey (field 1 [50, 115]),
          value consensusTypeKey (field 1 [115, 111, 108, 111])]
        [anyPolicy admins, anyPolicy readers, anyPolicy writers] admins)
      .nil)
    [value blockDataHashingStructureKey [8, 255, 255, 255, 255, 15],
      value hashingAlgorithmKey (field 1 [83, 72, 65, 50, 53, 54]),
      value ordererAddressesKey (field 1 [111, 58, 55])]
    [anyPolicy admins, readersPolicy updated, anyPolicy writers] admins

end

def readSet : ConfigGroup :=
  .mk 0 (.present ordererGroupKey (.mk 0 .nil [] [] .empty) .nil) [] [] .empty

def writeSet : ConfigGroup :=
  .mk 0 (.present ordererGroupKey (.mk 0 .nil [batchSize true] [] .empty) .nil) []
    [readersPolicy true] .empty

/-- The transaction of the update. -/
def updateTx : Envelope := ⟨some [2], none⟩

section

variable (sequence : UInt64)

/-- The first configuration, under the given number. -/
def firstConfig : ConfigEnvelope := ⟨some ⟨sequence, some (channelGroup false)⟩, none⟩

/-- The configuration that the update leads to, under the given number. -/
def updatedConfig : ConfigEnvelope :=
  ⟨some ⟨sequence, some (channelGroup true)⟩, some updateTx⟩

/-- The transaction of the first configuration. -/
def firstTx : Envelope := ⟨some (1 :: 0 :: number sequence), none⟩

/-- The transaction of the updated configuration. -/
def configTx : Envelope := ⟨some (1 :: 1 :: number sequence), none⟩

end

/-- Decode a message, which starts with its type. -/
def readPayload : Bytes → Option Payload
  | type :: data => some ⟨some ⟨some [type], none⟩, some data⟩
  | [] => none

/-- Decode a header, which is the type of a message. -/
def readHeader : Bytes → Option ChannelHeader
  | [type] => some ⟨⟨Int32.ofNat type.toNat⟩, channelID, .empty, 0, none⟩
  | _ => none

/-- Decode one of the configurations. -/
def readConfig : Bytes → Option ConfigEnvelope
  | 0 :: digits => some (firstConfig (readNumber digits))
  | 1 :: digits => some (updatedConfig (readNumber digits))
  | _ => none

/-- The codec of the messages; that of metadata leaves out the signatures. -/
def codec : Codec :=
  { Codec.rejecting with
    unmarshalEnvelope := fun bytes => some ⟨some bytes, none⟩
    unmarshalPayload := readPayload
    unmarshalChannelHeader := readHeader
    unmarshalSignatureHeader := fun _ => some ⟨none, none⟩
    unmarshalConfigEnvelope := readConfig
    unmarshalConfigUpdateEnvelope := fun _ => some ⟨none, []⟩
    unmarshalConfigUpdate := fun _ => some ⟨channelID, some readSet, some writeSet⟩
    unmarshalSeekInfo := fun stop => some ⟨some (.specified 1),
      some (if stop = [] then .newest else .specified 1), .blockUntilReady⟩
    unmarshalMetadata := fun bytes => some ⟨some bytes, []⟩
    unmarshalLastConfig := fun bytes => some ⟨readNumber bytes⟩
    marshalEnvelope := fun env => env.payload.bytes
    marshalMetadata := fun md => md.value.bytes
    marshalLastConfig := fun lc => number lc.index }

/-- Whether the update is in force. -/
abbrev Resources := Bool

/--
Without organizations, a policy asks for nothing unless none of the groups below
has the policies that it asks for.
-/
def getPolicy (updated : Resources) (path : List GoString) (name : GoString) :
    Option (List SignedData → Outcome Unit Unit) :=
  if path = [] ∧ name = channelReaders then some fun _ => if updated then .error () else .ok ()
  else if path = [] ∧ name = channelWriters ∨ path ∈ [[], [ordererGroupKey]] ∧ name = admins then
    some fun _ => .ok ()
  else none

def handlers : ChannelHandlers Resources where
  getPolicy := getPolicy
  processConfig _ group :=
    if Tree.configGroupEqual group (channelGroup true) then .ok true
    else if Tree.configGroupEqual group (channelGroup false) then .ok false
    else .error ()
  batchSize updated := ⟨if updated then 20 else 10, 10000, 5000⟩

def initial (sequence : UInt64) : ConfigManager Resources :=
  match mapped : Tree.mapConfig (some (channelGroup false)) with
  | .ok configMap => ⟨channelID, sequence, configMap, false, _, mapped⟩
  | _ => ⟨channelID, sequence, ∅, false, mapConfig_none⟩

def rules : Rules (ConfigManager Resources) ChannelUpdate :=
  channelRules handlers codec fun _ _ => .forward

/-- The update is written in a block of its own and is then in force. -/
def isUpdated (chain : Solo.Chain (ConfigManager Resources) ChannelUpdate) : Bool :=
  decide (chain.support.ledger = [⟨[configTx 1], none⟩] ∧ chain.support.config.resources = true)

theorem solo_update :
    ∃ chain, Solo.Reachable rules (initial 0) chain ∧ chain.support.ledger = [⟨[configTx 1], none⟩] ∧
        chain.support.config.resources = true := by
  have returns : ∃ chain, Solo.main rules (Solo.newChain (initial 0) []) (.message (configTx 1)) =
        .ok chain ∧ isUpdated chain := by
    decide +kernel
  rcases returns with ⟨chain, runs, updated⟩
  exact ⟨chain, Solo.Reachable.initial.round runs, of_decide_eq_true updated⟩

def consumed : OrdererState (ConfigManager Resources) ChannelUpdate :=
  consume rules codec (newChain (initial 0) []) 1 (.regular (configTx 1).payload)

theorem kafka_update :
    ∃ system : System Bool (ConfigManager Resources) ChannelUpdate,
      Reachable rules codec (initial 0) system ∧
        (system.orderers true).ledger = [⟨[configTx 1], some 1⟩] := by
  have ledger : consumed.ledger = [⟨[configTx 1], some 1⟩] := by
    decide +kernel
  have empty : Reachable rules codec (initial 0) (⟨[], fun _ => .stopped (initial 0) []⟩ :
          System Bool (ConfigManager Resources) ChannelUpdate) :=
    .initial
  have started := empty.step (.start (show System.orderers _ true = _ from rfl))
  have enqueued := started.step (.enqueue (show System.orderers _ true = _ from rfl)
        (configTx 1).payload)
  have connected := enqueued.step (.consume (show System.orderers _ true = _ from rfl) rfl)
  have updated := connected.step (.consume
        (show System.orderers _ true = .running (newChain (initial 0) []) 1 from rfl)
        rfl)
  exact ⟨_, updated, by simpa [System.set, consumed] using ledger⟩

end Sample

/-- Both loops order an update of the batch size. -/
theorem messages_filtered_in_force_update :
    (∃ chain, Solo.Reachable Sample.rules (Sample.initial 0) chain ∧
        chain.support.ledger = [⟨[Sample.configTx 1], none⟩] ∧
        chain.support.config.resources = true ∧
        FilteredInForce Sample.rules (Sample.initial 0) chain.support.ledger ∧
        ConfigsAlone Sample.codec chain.support.ledger) ∧
      ∃ system : System Bool (ConfigManager Sample.Resources) ChannelUpdate,
        Reachable Sample.rules Sample.codec (Sample.initial 0) system ∧
          (system.orderers true).ledger = [⟨[Sample.configTx 1], some 1⟩] ∧
          FilteredInForce Sample.rules (Sample.initial 0) (system.orderers true).ledger ∧
          ConfigsAlone Sample.codec (system.orderers true).ledger := by
  have inForce := @messages_filtered_in_force Sample.Resources Bool _ Sample.handlers Sample.codec
      (fun _ _ => .forward) (Sample.initial 0)
  constructor
  · rcases Sample.solo_update with ⟨chain, reachable, ledger, resources⟩
    have solo := inForce.1 chain reachable
    exact ⟨chain, reachable, ledger, resources, solo.1, solo.2.1⟩
  · rcases Sample.kafka_update with ⟨system, reachable, ledger⟩
    have kafka := inForce.2 system reachable true
    exact ⟨system, reachable, ledger, kafka.1, kafka.2.1⟩

end Fabric.Orderer.ConfigInForce
