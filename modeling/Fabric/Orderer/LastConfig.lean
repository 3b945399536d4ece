import Fabric.Orderer.ChainSupport
import Fabric.Orderer.ConfigInForce

/-!
# The last configuration block of a channel

Every block names the newest configuration block up to it, and an orderer that
starts loads the configuration from there.  This is shown for all runs of a
channel: its blocks may hold plain messages, a configuration or a request to
create a channel, and the orderer may stop at any time, also after it has
committed a configuration and before it has appended the block that carries it.

It takes two conditions on the run.  The sequence number of the configuration
must not start over, and no request may create the channel a second time.
-/

namespace Fabric.Orderer.LastConfig

open Library Outcome ByteString Protos Blocks ConfigTx.Manager BlockCutter Channel Filters
  ChainSupport

/-! ## Configuration blocks of a ledger -/

section

variable (codec : Codec)

section

variable (ledger : List Block)

def ConfigAt (position : Nat) : Prop :=
  ∃ block, ledger[position]? = some block ∧ isConfigBlock codec block = true

/-- The newest configuration block up to a position. -/
structure MostRecentConfig (position config : Nat) : Prop where
  within : config ≤ position
  present : ConfigAt codec ledger config
  newest : ∀ other, config < other → other ≤ position → ¬ ConfigAt codec ledger other

/-- Every block names the newest configuration block up to it. -/
def NamesLastConfig : Prop :=
  ∀ position block, ledger[position]? = some block → ∃ index,
        getLastConfigIndexFromBlock codec block = .ok index ∧
          MostRecentConfig codec ledger position index.toNat

/-- What is loaded at the start is the newest configuration. -/
def LoadsLastConfig : Prop :=
  ∃ config block configTx, MostRecentConfig codec ledger (ledger.length - 1) config ∧
      ledger[config]? = some block ∧
      extractEnvelope codec block 0 = .ok configTx ∧
      getConfigTx codec ledger = (.ok configTx : Outcome Unit Envelope)

end

end

/-! ## Runs of a channel -/

/-- What a block is made of. -/
inductive Contents where
  | normal (messages : List Envelope)
  | config (message : Envelope) (configEnvelope : ConfigEnvelope)
  | newChain (message configTx : Envelope)

def Contents.messages : Contents → List Envelope
  | .normal messages => messages
  | .config message _ => [message]
  | .newChain message _ => [message]

/-- What the filters of a channel let through. -/
def Contents.Filtered (codec : Codec) : Contents → Prop
  | .normal messages => ∀ message ∈ messages, configData codec message = none
  | .config message configEnvelope =>
    ∃ data, configData codec message = some data ∧
        codec.unmarshalConfigEnvelope data.bytes = some configEnvelope
  | .newChain message _ => configData codec message = none

variable {Resources : Type}

/-- The messages were read from the wire. -/
def Contents.Received (codec : Codec) (contents : Contents) : Prop :=
  ∀ message ∈ contents.messages, ∃ raw, codec.unmarshalEnvelope raw = some message

/-- A running chain, and the block whose committers have run. -/
structure Process (Resources : Type) where
  support : Support Resources
  writing : Option (Block × Slice)

/-- The ledger of a channel, and its chain unless the orderer is down. -/
structure Chain (Resources : Type) where
  ledger : List Block
  process : Option (Process Resources)

/-- A turn of a channel. -/
inductive Turn where
  | commit (contents : Contents) (metadata : Slice)
  | append
  | crash
  | restart

section

variable (env : Environment Resources) (channelID : GoString)

/--
Run the committers of a block.  A request that names the channel itself has its
ledger extended; other channels have ledgers of their own.
-/
def commit (ledger : List Block) (manager : ConfigManager Resources) :
    Contents → Outcome Unit (List Block × ConfigManager Resources)
  | .normal _ => .ok (ledger, manager)
  | .config _ configEnvelope => do
      let later ← (apply env.handlers.toHandlers env.codec manager configEnvelope).orPanic
      .ok (ledger, later)
  | .newChain _ configTx => do
      let created ← (newManagerImpl env.handlers.toHandlers env.codec env.initializer
          (some configTx)).orPanic
      if created.channelID = channelID then do
        let (_, ledger) ← newChain env ledger configTx
        .ok (ledger, manager)
      else
        .ok (ledger, manager)

/--
The steps of a channel.  The orderer may stop at any time; this is also what
becomes of a call that panics.  It starts again from the ledger.
-/
inductive Step : Chain Resources → Turn → Chain Resources → Prop where
  | commit
      {chain : Chain Resources} {support : Support Resources}
      {contents : Contents} {metadata : Slice} {block : Block}
      {ledger : List Block} {manager : ConfigManager Resources}
      (idle : chain.process = some ⟨support, none⟩)
      (filtered : contents.Filtered env.codec)
      (received : contents.Received env.codec)
      (created : createNextBlock env.codec (env.source chain.ledger)
          contents.messages = (.ok block : Outcome Unit Block))
      (committed : commit env channelID chain.ledger support.manager contents =
          .ok (ledger, manager)) :
      Step chain (.commit contents metadata)
        ⟨ledger, some ⟨{ support with manager }, some (block, metadata)⟩⟩
  | append
      {chain : Chain Resources} {support later : Support Resources}
      {block : Block} {metadata : Slice} {ledger : List Block}
      (writing : chain.process = some ⟨support, some (block, metadata)⟩)
      (finished : finishBlock env chain.ledger support block metadata = (.ok (later, ledger) :
            Outcome Unit (Support Resources × List Block))) :
      Step chain .append ⟨ledger, some ⟨later, none⟩⟩
  | crash {chain : Chain Resources} : Step chain .crash ⟨chain.ledger, none⟩
  | restart
      {chain : Chain Resources} {support : Support Resources}
      (down : chain.process = none)
      (started : restartChain env chain.ledger = (.ok support : Outcome Unit (Support Resources)))
      (named : support.manager.channelID = channelID) :
      Step chain .restart ⟨chain.ledger, some ⟨support, none⟩⟩

/-- Write a block without being interrupted. -/
def writeBlock (ledger : List Block) (support : Support Resources)
    (contents : Contents) (metadata : Slice) :
    Outcome Unit (Support Resources × List Block) := do
  let block ← createNextBlock env.codec (env.source ledger) contents.messages
  let (ledger, manager) ← commit env channelID ledger support.manager contents
  finishBlock env ledger { support with manager } block metadata

/-- A first block, which holds the first configuration. -/
structure Genesis (codec : Codec) where
  block : Block
  header : BlockHeader
  hasHeader : block.header = some header
  numbered : header.number = 0
  isConfig : isConfigBlock codec block = true
  lastConfig : getLastConfigIndexFromBlock codec block = .ok 0

/-- The states of runs whose steps all satisfy a condition. -/
inductive ReachableBy (allowed : Chain Resources → Turn → Prop) (genesis : Genesis env.codec) :
    Chain Resources → Prop where
  | start : ReachableBy allowed genesis ⟨[genesis.block], none⟩
  | step {chain later : Chain Resources} {turn : Turn}
      (reachable : ReachableBy allowed genesis chain)
      (meets : allowed chain turn)
      (step : Step env channelID chain turn later) :
      ReachableBy allowed genesis later

variable {env channelID}

/--
The sequence number can be counted up when a configuration is committed, and a
request creates another channel.
-/
def Admissible (env : Environment Resources) (channelID : GoString)
    (chain : Chain Resources) : Turn → Prop
  | .commit (.config _ _) _ =>
    ∀ process ∈ chain.process, process.support.manager.sequence.toNat + 1 < UInt64.size
  | .commit (.newChain _ configTx) _ =>
    ∀ chdr configEnvelope, unmarshalEnvelopeOfType env.codec (some configTx) .config
          env.codec.unmarshalConfigEnvelope = .ok (chdr, configEnvelope) →
        chdr.channelId ≠ channelID
  | _ => True

end

/-! ## Blocks that carry a configuration -/

variable {block : Block} {raw : Bytes} {ledger : List Block}

section

variable {codec : Codec}

theorem isConfigBlock_eq {tx : Envelope} (carries : extractEnvelope codec block 0 = .ok tx) :
    isConfigBlock codec block = (configData codec tx).isSome := by
  simp only [isConfigBlock, carries, ok_bind, getPayload, unmarshalChannelHeader, configData]
  cases codec.unmarshalPayload tx.payload.bytes with
  | none => rfl
  | some payload =>
    cases hasHeader : payload.header with
    | none => simp [ofOption, hasHeader, Outcome.returns]
    | some header =>
      cases read : codec.unmarshalChannelHeader header.channelHeader.bytes with
      | none => simp [ofOption, hasHeader, read, Outcome.returns]
      | some chdr =>
        by_cases config : chdr.type = .config <;>
          simp [ofOption, hasHeader, read, Outcome.returns, config]

theorem exists_extractEnvelope (isConfig : isConfigBlock codec block = true) :
    ∃ tx, extractEnvelope codec block 0 = .ok tx := by
  cases carries : extractEnvelope codec block 0 with
  | ok tx => exact ⟨tx, rfl⟩
  | error _ | panic => simp [isConfigBlock, carries, Outcome.returns] at isConfig

theorem isConfigBlock_of_messages (restores : Restores codec) {message : Envelope}
    {messages : List Envelope}
    (data : block.data = some ⟨(message :: messages).map codec.marshalEnvelope⟩)
    (received : codec.unmarshalEnvelope raw = some message) :
    isConfigBlock codec block = (configData codec message).isSome := by
  rcases restores.envelope received with ⟨restored, decoded, same⟩
  have kind : configData codec restored = configData codec message := by
    rw [configData, configData, same]
  rw [← kind]
  apply isConfigBlock_eq
  simp [extractEnvelope, data, ofOption, decoded]

theorem isConfigBlock_of_empty (data : block.data = some ⟨[]⟩) :
    isConfigBlock codec block = false := by
  simp [isConfigBlock, extractEnvelope, data, ofOption, Outcome.returns]

variable {position config : Nat}

theorem configAt_append_iff :
    ConfigAt codec (ledger ++ [block]) position ↔ ConfigAt codec ledger position ∨
        position = ledger.length ∧ isConfigBlock codec block = true := by
  simp only [ConfigAt, Log.getElem?_concat_eq_some_iff]
  constructor
  · rintro ⟨found, old | ⟨rfl, rfl⟩, isConfig⟩
    · exact .inl ⟨found, old, isConfig⟩
    · exact .inr ⟨rfl, isConfig⟩
  · rintro (⟨found, old, isConfig⟩ | ⟨rfl, isConfig⟩)
    · exact ⟨found, .inl old, isConfig⟩
    · exact ⟨block, .inr ⟨rfl, rfl⟩, isConfig⟩

theorem MostRecentConfig.append (recent : MostRecentConfig codec ledger position config)
    (inside : position < ledger.length) :
    MostRecentConfig codec (ledger ++ [block]) position config := by
  refine ⟨recent.within, configAt_append_iff.mpr (.inl recent.present), ?_⟩
  intro other above below configured
  rcases configAt_append_iff.mp configured with old | ⟨rfl, _⟩
  · exact recent.newest other above below old
  · omega

theorem mostRecentConfig_of_config (isConfig : isConfigBlock codec block = true) :
    MostRecentConfig codec (ledger ++ [block]) ledger.length ledger.length := by
  refine ⟨Nat.le_refl _, configAt_append_iff.mpr (.inr ⟨rfl, isConfig⟩), ?_⟩
  intro _ _ _
  omega

theorem MostRecentConfig.append_other
    (recent : MostRecentConfig codec ledger (ledger.length - 1) config) (nonempty : ledger ≠ [])
    (other : isConfigBlock codec block = false) :
    MostRecentConfig codec (ledger ++ [block]) ledger.length config := by
  have positive := List.length_pos_iff.mpr nonempty
  have within := recent.within
  refine ⟨by omega, configAt_append_iff.mpr (.inl recent.present), ?_⟩
  intro later above _ configured
  rcases configAt_append_iff.mp configured with old | ⟨rfl, isConfig⟩
  · rcases old with ⟨found, present, isConfig⟩
    have inside := Log.lt_length_of_getElem? present
    exact recent.newest later above (by omega) ⟨found, present, isConfig⟩
  · rw [other] at isConfig
    cases isConfig

end

/-! ## What the orderer keeps in mind -/

section

/-- The block that is being written, and what gives its kind away. -/
structure Prepared
    (codec : Codec) (ledger : List Block) (support : Support Resources) (block : Block) : Prop where
  numbered : ∃ header, block.header = some header ∧ header.number.toNat = ledger.length
  entries : ∃ entries, HasEntries block entries
  kind : isConfigBlock codec block = false ∧ support.manager.sequence = support.lastConfigSeq ∨
      isConfigBlock codec block = true ∧ support.lastConfigSeq < support.manager.sequence

/-- The memory of a running chain agrees with the ledger. -/
structure Remembers (codec : Codec) (ledger : List Block) (process : Process Resources) : Prop where
  lastConfig : MostRecentConfig codec ledger (ledger.length - 1) process.support.lastConfig.toNat
  idle : process.writing = none → process.support.manager.sequence = process.support.lastConfigSeq
  writing : ∀ block metadata, process.writing = some (block, metadata) →
      Prepared codec ledger process.support block

/-- What is remembered of the last configuration is true of the ledger. -/
structure Consistent (codec : Codec) (chain : Chain Resources) : Prop where
  nonempty : chain.ledger ≠ []
  numbered : Numbered chain.ledger
  names : NamesLastConfig codec chain.ledger
  remembers : ∀ process ∈ chain.process, Remembers codec chain.ledger process

theorem NamesLastConfig.append {codec : Codec} {index : UInt64}
    (names : NamesLastConfig codec ledger)
    (records : getLastConfigIndexFromBlock codec block = .ok index)
    (recent : MostRecentConfig codec (ledger ++ [block]) ledger.length index.toNat) :
    NamesLastConfig codec (ledger ++ [block]) := by
  intro position found present
  rcases Log.getElem?_concat_eq_some_iff.mp present with old | ⟨rfl, rfl⟩
  · rcases names position found old with ⟨named, read, configured⟩
    have inside := Log.lt_length_of_getElem? old
    exact ⟨named, read, configured.append inside⟩
  · exact ⟨index, records, recent⟩

variable {env : Environment Resources}

section

variable {codec : Codec}

/-- The last block of a ledger names the newest configuration. -/
theorem exists_lastBlock (nonempty : ledger ≠ []) (numbered : Numbered ledger)
    (names : NamesLastConfig codec ledger) :
    ∃ last header index, lastBlock ledger = some last ∧ last.header = some header ∧
        header.number.toNat = ledger.length - 1 ∧
        getLastConfigIndexFromBlock codec last = .ok index ∧
        MostRecentConfig codec ledger (ledger.length - 1) index.toNat := by
  have inside : ledger.length - 1 < ledger.length := by
    have positive := List.length_pos_iff.mpr nonempty
    omega
  have present := List.getElem?_eq_getElem inside
  rcases numbered _ _ present with ⟨header, hasHeader, number⟩
  rcases names _ _ present with ⟨index, read, recent⟩
  refine ⟨_, header, index, ?_, hasHeader, number, read, recent⟩
  rw [numbered.lastBlock_eq nonempty, present]

theorem loadsLastConfig (nonempty : ledger ≠ []) (numbered : Numbered ledger)
    (names : NamesLastConfig codec ledger) :
    LoadsLastConfig codec ledger := by
  rcases exists_lastBlock nonempty numbered names with ⟨_, _, index, found, _, _, read, recent⟩
  rcases recent.present with ⟨block, present, isConfig⟩
  rcases exists_extractEnvelope isConfig with ⟨tx, carries⟩
  refine ⟨index.toNat, block, tx, recent, present, carries, ?_⟩
  simp [getConfigTx, found, read, getBlock, present, carries, orPanic]

/-- A new chain takes the number of the newest configuration from its ledger. -/
theorem remembers_of_newChainSupport
    {manager : ConfigManager Resources} {support : Support Resources} {ledger : List Block}
    (nonempty : ledger ≠ []) (numbered : Numbered ledger) (names : NamesLastConfig env.codec ledger)
    (supported : newChainSupport env manager ledger =
        (.ok support : Outcome Unit (Support Resources))) :
    Remembers env.codec ledger ⟨support, none⟩ := by
  rcases exists_lastBlock nonempty numbered names with
    ⟨_, header, index, found, hasHeader, number, read, recent⟩
  have loaded : support.lastConfig = index ∧ support.lastConfigSeq = support.manager.sequence := by
    by_cases first : header.number = 0
    · have within := recent.within
      rw [← number, first] at within
      have least : index = 0 := UInt64.toNat_inj.mp (Nat.le_zero.mp within)
      simp only [newChainSupport, found, hasHeader, first, ne_eq, not_true_eq_false, if_false,
        deref_some, ok_bind, bind_ok_iff] at supported
      rcases supported with ⟨_, _, started⟩
      split at started
      · cases started
        exact ⟨least.symm, rfl⟩
      · cases started
    · simp only [newChainSupport, found, hasHeader, first, read, ne_eq, not_false_eq_true, if_true,
        orPanic, deref_some, ok_bind] at supported
      rcases bind_ok_iff.mp supported with ⟨_, _, started⟩
      split at started
      · cases started
        exact ⟨rfl, rfl⟩
      · cases started
  refine ⟨?_, fun _ => loaded.2.symm, by simp⟩
  rw [loaded.1]
  exact recent

end

/-! ## Steps -/

variable {channelID : GoString} {contents : Contents} {metadata : Slice}

section

variable {chain later : Chain Resources} {support : Support Resources}

theorem isConfigBlock_of_plain (restores : Restores env.codec)
    (plain : ∀ message ∈ contents.messages, configData env.codec message = none)
    (received : contents.Received env.codec)
    (data : block.data = some ⟨contents.messages.map env.codec.marshalEnvelope⟩) :
    isConfigBlock env.codec block = false := by
  cases first : contents.messages with
  | nil =>
    rw [first] at data
    exact isConfigBlock_of_empty data
  | cons message messages =>
    have member : message ∈ contents.messages := by simp [first]
    rcases received message member with ⟨_, read⟩
    rw [first] at data
    rw [isConfigBlock_of_messages restores data read, plain message member]
    rfl

/-- Committing leaves the ledger alone and counts the sequence number up. -/
theorem commit_spec (restores : Restores env.codec) {manager : ConfigManager Resources}
    (idle : chain.process = some ⟨support, none⟩)
    (settled : support.manager.sequence = support.lastConfigSeq)
    (admissible : Admissible env channelID chain (.commit contents metadata))
    (filtered : contents.Filtered env.codec) (received : contents.Received env.codec)
    (data : block.data = some ⟨contents.messages.map env.codec.marshalEnvelope⟩)
    (committed : commit env channelID chain.ledger support.manager contents =
        .ok (ledger, manager)) :
    ledger = chain.ledger ∧ (isConfigBlock env.codec block = false ∧
          manager.sequence = support.lastConfigSeq ∨
        isConfigBlock env.codec block = true ∧ support.lastConfigSeq < manager.sequence) := by
  cases contents with
  | normal messages =>
    cases committed
    have plain : ∀ message ∈ (Contents.normal messages).messages,
          configData env.codec message = none :=
      filtered
    have kind := isConfigBlock_of_plain restores plain received data
    exact ⟨rfl, .inl ⟨kind, settled⟩⟩
  | config message _ =>
    rcases bind_ok_iff.mp committed with ⟨_, apply, same⟩
    cases same
    rw [orPanic_ok_iff] at apply
    rcases filtered with ⟨_, isConfig, _⟩
    rcases received message (by simp [Contents.messages]) with ⟨_, read⟩
    refine ⟨rfl, .inr ⟨?_, ?_⟩⟩
    · rw [isConfigBlock_of_messages restores data read, isConfig]
      rfl
    · have bounded := admissible ⟨support, none⟩ idle
      rw [UInt64.lt_iff_toNat_lt, sequence_of_apply apply, UInt64.toNat_add, UInt64.toNat_one,
        Nat.mod_eq_of_lt bounded, settled]
      exact Nat.lt_succ_self _
  | newChain message configTx =>
    rcases bind_ok_iff.mp committed with ⟨created, made, committed⟩
    rw [orPanic_ok_iff] at made
    simp only [newManagerImpl, bind_ok_iff, mapError_ok_iff, ofOption_ok_iff] at made
    rcases made with ⟨_, _, ⟨header, _⟩, decoded, _, _, _, _, _, _, made⟩
    have elsewhere : created.channelID ≠ channelID := by
      split at made
      · rcases bind_ok_iff.mp made with ⟨_, _, same⟩
        cases same
        exact admissible _ _ decoded
      · cases made
      · cases made
    rw [if_neg elsewhere] at committed
    cases committed
    have plain : ∀ other ∈ (Contents.newChain message configTx).messages,
          configData env.codec other = none := by
      simpa [Contents.messages, Contents.Filtered] using filtered
    have kind := isConfigBlock_of_plain restores plain received data
    exact ⟨rfl, .inl ⟨kind, settled⟩⟩

section

variable (restores : Restores env.codec) (consistent : Consistent env.codec chain)
include restores consistent

theorem Remembers.commit {manager : ConfigManager Resources}
    (idle : chain.process = some ⟨support, none⟩)
    (admissible : Admissible env channelID chain (.commit contents metadata))
    (filtered : contents.Filtered env.codec) (received : contents.Received env.codec)
    (created : createNextBlock env.codec (env.source chain.ledger)
        contents.messages = (.ok block : Outcome Unit Block))
    (committed : LastConfig.commit env channelID chain.ledger support.manager contents =
        .ok (ledger, manager)) :
    ledger = chain.ledger ∧ Remembers env.codec ledger
        ⟨{ support with manager }, some (block, metadata)⟩ := by
  have remembers := consistent.remembers _ idle
  rcases bind_ok_iff.mp created with ⟨⟨number, previousHash⟩, position, same⟩
  have data : block.data = some ⟨contents.messages.map env.codec.marshalEnvelope⟩ := by
    cases same
    rfl
  rcases commit_spec restores idle (remembers.idle rfl) admissible filtered
      received data committed with
    ⟨rfl, kind⟩
  cases same
  refine ⟨rfl, remembers.lastConfig, by simp, ?_⟩
  rintro _ _ ⟨⟩
  exact ⟨⟨_, rfl, consistent.numbered.toNat_nextBlockPosition position⟩, ⟨_, rfl, rfl⟩, kind⟩

theorem Consistent.append {next : Support Resources}
    (writing : chain.process = some ⟨support, some (block, metadata)⟩)
    (finished : finishBlock env chain.ledger support block metadata =
        (.ok (next, ledger) : Outcome Unit (Support Resources × List Block))) :
    Consistent env.codec ⟨ledger, some ⟨next, none⟩⟩ := by
  have remembers := consistent.remembers _ writing
  rcases remembers.writing block metadata rfl with ⟨⟨header, hasHeader, number⟩, ⟨_, fresh⟩, kind⟩
  rcases exists_of_finishBlock restores hasHeader fresh finished with
    ⟨rfl, written, rfl, writtenHeader, sameData, records⟩
  have carries : isConfigBlock env.codec written = isConfigBlock env.codec block := by
    simp only [isConfigBlock, extractEnvelope, sameData]
  have recent : MostRecentConfig env.codec (chain.ledger ++ [written]) chain.ledger.length
          (support.noteConfig header.number).lastConfig.toNat ∧
        (support.noteConfig header.number).manager.sequence =
          (support.noteConfig header.number).lastConfigSeq := by
    rcases kind with ⟨plain, same⟩ | ⟨isConfig, increased⟩
    · have unchanged : support.noteConfig header.number = support := by
        rw [Support.noteConfig, same, if_neg (UInt64.lt_irrefl _)]
      rw [unchanged]
      rw [← carries] at plain
      exact ⟨remembers.lastConfig.append_other consistent.nonempty plain, same⟩
    · rw [Support.noteConfig, if_pos increased, number]
      rw [← carries] at isConfig
      exact ⟨mostRecentConfig_of_config isConfig, rfl⟩
  refine ⟨by simp, ?_, ?_, ?_⟩
  · exact consistent.numbered.append writtenHeader number
  · exact consistent.names.append records recent.1
  · rintro _ ⟨⟩
    exact ⟨by simpa using recent.1, fun _ => recent.2, by simp⟩

theorem Consistent.step {turn : Turn} (admissible : Admissible env channelID chain turn)
    (step : Step env channelID chain turn later) :
    Consistent env.codec later := by
  cases step with
  | commit idle filtered received created committed =>
    rcases Remembers.commit restores consistent idle admissible filtered
        received created committed with
      ⟨rfl, remembers⟩
    refine ⟨consistent.nonempty, consistent.numbered, consistent.names, ?_⟩
    rintro _ ⟨⟩
    exact remembers
  | append writing finished => exact consistent.append restores writing finished
  | crash =>
    refine ⟨consistent.nonempty, consistent.numbered, consistent.names, ?_⟩
    intro _ member
    cases member
  | restart _ started _ =>
    refine ⟨consistent.nonempty, consistent.numbered, consistent.names, ?_⟩
    rintro _ ⟨⟩
    rcases bind_ok_iff.mp started with ⟨_, _, started⟩
    rcases bind_ok_iff.mp started with ⟨_, _, supported⟩
    exact remembers_of_newChainSupport consistent.nonempty consistent.numbered
        consistent.names supported

end

end

/-! ## Runs -/

section

variable {genesis : Genesis env.codec} {chain : Chain Resources}

theorem consistent_of_reachable (restores : Restores env.codec)
    (reachable : ReachableBy env channelID (Admissible env channelID) genesis chain) :
    Consistent env.codec chain := by
  induction reachable with
  | start =>
    refine ⟨by simp, ?_, ?_, ?_⟩
    · have none : Numbered [] := by
        intro position block present
        simp at present
      exact none.append genesis.hasHeader (by simp [genesis.numbered])
    · have none : NamesLastConfig env.codec [] := by
        intro position block present
        simp at present
      exact none.append genesis.lastConfig (mostRecentConfig_of_config genesis.isConfig)
    · intro _ member
      cases member
  | step reachable admissible step ih => exact ih.step restores admissible step

/--
As long as the sequence numbers count up and the channel is not created again,
every block names the newest configuration block up to it, and the orderer
loads the newest configuration whenever it starts.
-/
theorem last_config_recorded (restores : Restores env.codec)
    (reachable : ReachableBy env channelID (Admissible env channelID) genesis chain) :
    NamesLastConfig env.codec chain.ledger ∧ LoadsLastConfig env.codec chain.ledger := by
  have consistent := consistent_of_reachable restores reachable
  exact ⟨consistent.names, loadsLastConfig consistent.nonempty consistent.numbered consistent.names⟩

/-- A block that is written without an interruption takes two steps. -/
theorem ReachableBy.write {allowed : Chain Resources → Turn → Prop} {ledger later : List Block}
    {support next : Support Resources}
    (reachable : ReachableBy env channelID allowed genesis ⟨ledger, some ⟨support, none⟩⟩)
    (commits : allowed ⟨ledger, some ⟨support, none⟩⟩ (.commit contents metadata))
    (appends : ∀ chain, allowed chain .append) (filtered : contents.Filtered env.codec)
    (received : contents.Received env.codec)
    (written : writeBlock env channelID ledger support contents metadata = .ok (next, later)) :
    ReachableBy env channelID allowed genesis ⟨later, some ⟨next, none⟩⟩ := by
  rcases bind_ok_iff.mp written with ⟨_, created, written⟩
  rcases bind_ok_iff.mp written with ⟨⟨_, _⟩, committed, finished⟩
  have prepared := reachable.step commits (.commit rfl filtered received created committed)
  exact prepared.step (appends _) (.append rfl finished)

end

end

namespace Sample

/-! An update of the channel right after the first block. -/

open Orderer.ConfigInForce.Sample

theorem restores : Restores codec where
  envelope := by
    intro _ message _
    exact ⟨⟨some message.payload.bytes, none⟩, rfl, rfl⟩
  lastConfig := by
    intro lc _
    refine ⟨⟨some (number lc.index), []⟩, rfl, ?_⟩
    show some (LastConfig.mk (readNumber (number lc.index))) = some lc
    rw [readNumber_number]

/-- An orderer that creates channels and signs. -/
def env : Environment Bool where
  handlers := handlers
  codec := codec
  initializer := false
  handleChain _ _ := true
  computeSHA256 _ := List.replicate 32 0
  newSignatureHeader := [10, 0]
  sign _ := [1]

section

variable (sequence : UInt64)

/-- The transaction of the update. -/
def nextTx : Envelope := configTx (sequence + 1)

/-- The block with the first configuration. -/
def genesisBlock : Block where
  header := some ⟨0, none, some (List.replicate 32 0)⟩
  data := some ⟨[(firstTx sequence).payload.bytes]⟩
  metadata := some ⟨[[], [], [], []]⟩

/-- Start the orderer and write the update in the second block. -/
def run : Outcome Unit (Support Bool × Support Bool × List Block) := do
  let support ← restartChain env [genesisBlock sequence]
  let (next, ledger) ← writeBlock env channelID [genesisBlock sequence] support
      (.config (nextTx sequence) (updatedConfig (sequence + 1))) none
  .ok (support, next, ledger)

/-- The first block as a start of the ledger. -/
def genesis : Genesis env.codec where
  block := genesisBlock sequence
  header := ⟨0, none, some (List.replicate 32 0)⟩
  hasHeader := rfl
  numbered := rfl
  isConfig := rfl
  lastConfig := rfl

end

theorem reaches_update {allowed : Chain Bool → Turn → Prop} {sequence : UInt64}
    {support next : Support Bool} {ledger : List Block}
    (starts : ∀ chain, allowed chain .restart)
    (commits : allowed ⟨[genesisBlock sequence], some ⟨support, none⟩⟩
        (.commit (.config (nextTx sequence) (updatedConfig (sequence + 1))) none))
    (appends : ∀ chain, allowed chain .append)
    (named : support.manager.channelID = channelID)
    (runs : run sequence = .ok (support, next, ledger)) :
    ReachableBy env channelID allowed (genesis sequence) ⟨ledger, some ⟨next, none⟩⟩ := by
  rcases bind_ok_iff.mp runs with ⟨_, restarted, runs⟩
  rcases bind_ok_iff.mp runs with ⟨⟨_, _⟩, written, same⟩
  cases same
  have first : ReachableBy env channelID allowed (genesis sequence)
        ⟨[genesisBlock sequence], none⟩ :=
    .start
  have started := first.step (starts _) (.restart rfl restarted named)
  apply started.write commits appends _ _ written
  · refine ⟨some (1 :: number (sequence + 1)), rfl, ?_⟩
    show some (updatedConfig (readNumber (number (sequence + 1)))) = _
    rw [readNumber_number]
  · intro message member
    rw [Contents.messages, List.mem_singleton] at member
    rw [member]
    exact ⟨(nextTx sequence).payload.bytes, rfl⟩

/-- The second block names itself, and its configuration is loaded. -/
def isRecorded (result : Support Bool × Support Bool × List Block) : Bool :=
  decide (result.1.manager.sequence = 0 ∧ result.1.manager.channelID = channelID ∧
      (result.2.2[1]?.map fun block => getLastConfigIndexFromBlock codec block) = some (.ok 1) ∧
      getConfigTx codec result.2.2 = (.ok (nextTx 0) : Outcome Unit Envelope))

/-- The second block names the first one. -/
def isLost (result : Support Bool × Support Bool × List Block) : Bool :=
  decide (result.1.manager.channelID = channelID ∧ result.2.2.length = 2 ∧
      (result.2.2[1]?.map fun block =>
        (getLastConfigIndexFromBlock codec block, extractEnvelope codec block 0)) =
        some (.ok 0, .ok (nextTx greatest)) ∧
      getConfigTx codec result.2.2 = (.ok (firstTx greatest) : Outcome Unit Envelope))

end Sample

open ConfigInForce.Sample (channelID codec greatest)

/-- An update of the batch size in the second block of a channel. -/
theorem last_config_recorded_update :
    ∃ chain, ReachableBy Sample.env channelID (Admissible Sample.env channelID)
          (Sample.genesis 0) chain ∧
        getConfigTx codec chain.ledger = (.ok (Sample.nextTx 0) : Outcome Unit Envelope) ∧
        NamesLastConfig codec chain.ledger ∧ LoadsLastConfig codec chain.ledger := by
  have returned : ∃ result, Sample.run 0 = .ok result ∧ Sample.isRecorded result := by
    decide +kernel
  rcases returned with ⟨⟨_, next, ledger⟩, runs, recorded⟩
  rcases of_decide_eq_true recorded with ⟨number, named, _, loads⟩
  have reachable : ReachableBy Sample.env channelID (Admissible Sample.env channelID)
        (Sample.genesis 0) ⟨ledger, some ⟨next, none⟩⟩ := by
    refine Sample.reaches_update (fun _ => trivial) ?_ (fun _ => trivial) named runs
    rintro _ ⟨⟩
    rw [number]
    decide
  exact ⟨_, reachable, loads, last_config_recorded Sample.restores reachable⟩

/--
After the greatest sequence number, the block of the next configuration names
the one before it, which is loaded when the orderer starts again.
-/
theorem last_config_lost :
    ∃ chain, ReachableBy Sample.env channelID (fun _ _ => True)
          (Sample.genesis greatest) chain ∧
        ¬ NamesLastConfig codec chain.ledger ∧ ¬ LoadsLastConfig codec chain.ledger := by
  have returned : ∃ result, Sample.run greatest = .ok result ∧ Sample.isLost result := by
    decide +kernel
  rcases returned with ⟨⟨_, next, ledger⟩, runs, lost⟩
  rcases of_decide_eq_true lost with ⟨named, length, second, loads⟩
  rcases Option.map_eq_some_iff.mp second with ⟨block, present, same⟩
  rcases Prod.mk.inj same with ⟨names, carries⟩
  have isConfig : ConfigAt codec ledger 1 :=
    ⟨block, present, by rw [isConfigBlock_eq carries]; decide +kernel⟩
  refine ⟨_, Sample.reaches_update (fun _ => trivial) trivial (fun _ => trivial) named runs, ?_, ?_⟩
  · intro namesLast
    rcases namesLast 1 block present with ⟨_, read, recent⟩
    rw [names] at read
    cases read
    exact recent.newest 1 Nat.zero_lt_one (Nat.le_refl 1) isConfig
  · rintro ⟨config, _, _, recent, placed, extracted, loaded⟩
    have last : config = 1 := by
      have within := recent.within
      rw [length] at within
      by_contra other
      have below : config < 1 := by omega
      exact recent.newest 1 below (by rw [length]) isConfig
    subst last
    rw [present] at placed
    cases placed
    rw [carries] at extracted
    rw [loads] at loaded
    have same := (Outcome.ok.inj loaded).trans (Outcome.ok.inj extracted).symm
    revert same
    decide +kernel

end Fabric.Orderer.LastConfig
