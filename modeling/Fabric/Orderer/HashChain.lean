import Mathlib.Data.List.Chain
import Fabric.Orderer.LastConfig

/-!
# The chain of hashes

Every block of a channel has the hash of the header before it and the hash of its
own data.  This holds in all runs of an orderer, also when it stops between the
committers and the append, and when a request creates the channel a second time
while a block is being written: that block is then refused by the ledger.
-/

namespace Fabric.Orderer.HashChain

open Library Outcome ByteString Protos Blocks ConfigTx.Manager ChainSupport LastConfig

/-- The block has the next number, the hash of the header before it and the hash of its data. -/
def Follows (computeSHA256 : Bytes → Bytes) (previous block : Block) : Prop :=
  ∃ header hash data, previous.header = some header ∧
      headerHash computeSHA256 header = (.ok hash : Outcome Unit Bytes) ∧
      block.header = some ⟨header.number + 1, some hash, some (dataHash computeSHA256 data)⟩ ∧
      block.data = some data

variable {Resources : Type} {env : Environment Resources} {ledger later : List Block}
  {block : Block}

/-- The block can be put at the end of the ledger. -/
def Continues (env : Environment Resources) (ledger : List Block) (block : Block) : Prop :=
  ∃ last ∈ ledger.getLast?, Follows env.computeSHA256 last block ∧
      ∃ header, block.header = some header ∧ header.number.toNat = ledger.length

/-- A ledger whose blocks are numbered and linked. -/
structure Linked (env : Environment Resources) (ledger : List Block) : Prop where
  nonempty : ledger ≠ []
  numbered : Numbered ledger
  chained : ledger.IsChain (Follows env.computeSHA256)

theorem Linked.append (linked : Linked env ledger) (continues : Continues env ledger block) :
    Linked env (ledger ++ [block]) := by
  rcases continues with ⟨last, isLast, follows, header, hasHeader, number⟩
  refine ⟨by simp, linked.numbered.append hasHeader number, linked.chained.append (by simp) ?_⟩
  intro found isFound next isNext
  rw [Option.mem_unique isFound isLast]
  cases isNext
  exact follows

/-- A block that is created next continues the ledger. -/
theorem Linked.continues (linked : Linked env ledger) {messages : List Envelope}
    (created : createNextBlock env.codec (env.source ledger) messages =
        (.ok block : Outcome Unit Block)) :
    Continues env ledger block := by
  rcases bind_ok_iff.mp created with ⟨⟨number, hash⟩, position, same⟩
  have placed := linked.numbered.toNat_nextBlockPosition position
  cases same
  have isLast := List.getLast?_eq_some_getLast linked.nonempty
  have present := List.getLast?_eq_getElem? ▸ isLast
  rcases linked.numbered _ _ present with ⟨header, hasHeader, _⟩
  refine ⟨_, isLast, ?_, _, rfl, placed⟩
  simp only [nextBlockPosition, Environment.source, isLast, Option.bind_some, hasHeader,
    bind_ok_iff, pure_ok, Outcome.ok.injEq, Prod.mk.injEq] at position
  rcases position with ⟨hash, hashed, rfl, rfl⟩
  exact ⟨header, hash, _, hasHeader, hashed, rfl, rfl⟩

/-- A completed block has kept its header and data, and has the next number. -/
theorem exists_written {support next : Support Resources} {metadata : Slice}
    (finished : finishBlock env ledger support block metadata =
        (.ok (next, later) : Outcome Unit (Support Resources × List Block))) :
    ∃ written header, later = ledger ++ [written] ∧ written.header = block.header ∧
      written.data = block.data ∧ block.header = some header ∧ header.number = height ledger := by
  rcases bind_ok_iff.mp finished with ⟨noted, notes, finished⟩
  have kept : noted.header = block.header ∧ noted.data = block.data := by
    cases metadata with
    | none =>
      cases notes
      exact ⟨rfl, rfl⟩
    | some _ =>
      rcases bind_ok_iff.mp notes with ⟨_, _, notes⟩
      cases notes
      exact ⟨rfl, rfl⟩
  simp only [addBlockSignature, addLastConfigSignature, append, bind_ok_iff, deref_ok_iff, pure_ok,
    Outcome.ok.injEq, Prod.mk.injEq] at finished
  rcases finished with ⟨_, ⟨_, _, _, _, _, _, rfl⟩, ⟨_, _⟩, ⟨_, _, _, _, _, _, _, rfl⟩, _,
    ⟨header, hasHeader, appends⟩, _, rfl⟩
  split at appends
  next atEnd =>
    cases appends
    exact ⟨_, header, rfl, kept.1, kept.2, kept.1 ▸ hasHeader, atEnd⟩
  next => cases appends

/-- The committers leave the ledger alone, or add a block to it. -/
theorem ledger_of_commit {channelID : GoString} {contents : Contents}
    {manager final : ConfigManager Resources}
    (committed : commit env channelID ledger manager contents = .ok (later, final)) :
    later = ledger ∨ ∃ added messages, later = ledger ++ [added] ∧
      createNextBlock env.codec (env.source ledger) messages =
        (.ok added : Outcome Unit Block) := by
  cases contents with
  | normal _ =>
    cases committed
    exact .inl rfl
  | config _ _ =>
    rcases bind_ok_iff.mp committed with ⟨_, _, same⟩
    cases same
    exact .inl rfl
  | newChain _ configTx =>
    rcases bind_ok_iff.mp committed with ⟨_, _, committed⟩
    split at committed
    · rcases bind_ok_iff.mp committed with ⟨⟨_, _⟩, created, same⟩
      cases same
      rcases bind_ok_iff.mp created with ⟨_, _, created⟩
      rcases bind_ok_iff.mp created with ⟨added, next, created⟩
      rcases bind_ok_iff.mp created with ⟨_, _, same⟩
      cases same
      exact .inr ⟨added, [configTx], rfl, next⟩
    · cases committed
      exact .inl rfl

variable {channelID : GoString} {chain after : Chain Resources} {turn : Turn}

/--
The ledger is linked, and a block that is being written continues it if it still
has the next number.
-/
structure Sound (env : Environment Resources) (chain : Chain Resources) : Prop where
  linked : Linked env chain.ledger
  writing : ∀ process ∈ chain.process, ∀ block metadata,
      process.writing = some (block, metadata) → ∀ header, block.header = some header →
        header.number = height chain.ledger → Continues env chain.ledger block

theorem Sound.step (sound : Sound env chain) (step : Step env channelID chain turn after) :
    Sound env after := by
  cases step with
  | commit _ _ _ created committed =>
    have continues := sound.linked.continues created
    rcases ledger_of_commit committed with rfl | ⟨added, _, rfl, next⟩
    · refine ⟨sound.linked, ?_⟩
      rintro _ ⟨⟩ _ _ ⟨⟩ _ _ _
      exact continues
    · refine ⟨sound.linked.append (sound.linked.continues next), ?_⟩
      rintro _ ⟨⟩ _ _ ⟨⟩ header hasHeader atEnd
      rcases continues with ⟨_, _, _, _, hasFound, number⟩
      cases hasHeader.symm.trans hasFound
      have below := header.number.toNat_lt
      rw [atEnd, height, UInt64.toNat_ofNat', List.length_append, List.length_singleton]
        at number below
      omega
  | append writing finished =>
    rcases exists_written finished with
      ⟨_, header, rfl, sameHeader, sameData, hasHeader, atEnd⟩
    have continues := sound.writing _ writing _ _ rfl header hasHeader atEnd
    simp only [Continues, Follows, ← sameHeader, ← sameData] at continues
    refine ⟨sound.linked.append continues, ?_⟩
    rintro _ ⟨⟩ _ _ ⟨⟩
  | crash =>
    refine ⟨sound.linked, ?_⟩
    intro _ member
    cases member
  | restart =>
    refine ⟨sound.linked, ?_⟩
    rintro _ ⟨⟩ _ _ ⟨⟩

theorem sound_of_reachable {allowed : Chain Resources → Turn → Prop} {genesis : Genesis env.codec}
    (reachable : ReachableBy env channelID allowed genesis chain) : Sound env chain := by
  induction reachable with
  | start =>
    refine ⟨⟨by simp, ?_, by simp⟩, by simp⟩
    have none : Numbered [] := by
      intro position block present
      simp at present
    exact none.append genesis.hasHeader (by simp [genesis.numbered])
  | step _ _ step sound => exact sound.step step

/--
In every run the blocks of the ledger are numbered by their positions, and each
one has the hash of the header before it and the hash of its own data.
-/
theorem ledger_linked_by_hashes {allowed : Chain Resources → Turn → Prop}
    {genesis : Genesis env.codec} (reachable : ReachableBy env channelID allowed genesis chain) :
    Numbered chain.ledger ∧ chain.ledger.IsChain (Follows env.computeSHA256) := by
  have sound := sound_of_reachable reachable
  exact ⟨sound.linked.numbered, sound.linked.chained⟩

/-- The ledger after an update of the channel. -/
theorem ledger_linked_by_hashes_update :
    ∃ chain, ReachableBy Sample.env ConfigInForce.Sample.channelID (fun _ _ => True)
          (Sample.genesis 0) chain ∧
        chain.ledger.length = 2 ∧ Numbered chain.ledger ∧
        chain.ledger.IsChain (Follows Sample.env.computeSHA256) := by
  have returned : ∃ result, Sample.run 0 = .ok result ∧
        (result.1.manager.channelID = ConfigInForce.Sample.channelID ∧ result.2.2.length = 2) := by
    decide +kernel
  rcases returned with ⟨⟨_, next, ledger⟩, runs, named, length⟩
  have reachable : ReachableBy Sample.env ConfigInForce.Sample.channelID (fun _ _ => True)
        (Sample.genesis 0) ⟨ledger, some ⟨next, none⟩⟩ :=
    Sample.reaches_update (fun _ => trivial) trivial (fun _ => trivial) named runs
  exact ⟨_, reachable, length, ledger_linked_by_hashes reachable⟩

end Fabric.Orderer.HashChain
