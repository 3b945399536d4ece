import Fabric.Config.GroupValues

/-!
# The block cutter

The ordering service collects the messages of a channel into batches, each of
which becomes a block.  `Ordered` takes one message after the filters have
looked at it and returns the batches that are complete; `Cut` returns what is
pending.  Messages and their committers travel in parallel lists, and the
size of the pending batch is kept in a 32-bit counter.

The model follows the receiver field by field.  Over it stands a description
in terms of lists of items, a message together with its committer, which the
receiver implements.
-/

namespace Fabric.Orderer.BlockCutter

open Library Protos
open Config.GroupValues (BatchSize validateBatchSize)

/-! ## Batch sizes -/

theorem maxMessageCount_pos {batchSize : BatchSize}
    (accepted : validateBatchSize batchSize = .ok ()) :
    0 < batchSize.maxMessageCount.toNat := by
  rcases Outcome.bind_ok_iff.mp accepted with ⟨_, nonzero, _⟩
  rw [Outcome.require_ok_iff] at nonzero
  apply Nat.pos_of_ne_zero
  intro zero
  exact nonzero (UInt32.toNat_inj.mp zero)

/-! ## The receiver -/

/-- The bytes of a message. -/
def messageLength (message : Envelope) : Nat :=
  message.payload.bytes.length + message.signature.bytes.length

/-- The bytes of a message, as a word of 32 bits. -/
def messageSizeBytes (message : Envelope) : UInt32 :=
  UInt32.ofNat (messageLength message)

/-- The batch that is collected. -/
structure Receiver (Committer : Type) where
  pendingBatch : List Envelope
  pendingBatchSizeBytes : UInt32
  pendingCommitters : List Committer
deriving DecidableEq

/-- The batches that a message completes. -/
structure OrderedResult (Committer : Type) where
  messageBatches : List (List Envelope)
  committerBatches : List (List Committer)
  validTx : Bool
  pending : Bool
deriving DecidableEq

variable {Committer : Type}

section

def Receiver.new : Receiver Committer := ⟨[], 0, []⟩

/-- Takes what is pending. -/
def cut (r : Receiver Committer) : (List Envelope × List Committer) × Receiver Committer :=
  ((r.pendingBatch, r.pendingCommitters), Receiver.new)

/-- The batches cut so far in a call, and the receiver. -/
structure Progress (Committer : Type) where
  messageBatches : List (List Envelope)
  committerBatches : List (List Committer)
  receiver : Receiver Committer

/-- Cut the pending batch if a condition holds. -/
def Progress.cutIf (progress : Progress Committer) (condition : Bool) : Progress Committer :=
  if condition then
    let ((messageBatch, committerBatch), later) := cut progress.receiver
    { messageBatches := progress.messageBatches ++ [messageBatch]
      committerBatches := progress.committerBatches ++ [committerBatch]
      receiver := later }
  else
    progress

section

variable (r : Receiver Committer) (msg : Envelope) (committer : Committer)

/-- Adds a message to what is pending. -/
def enqueue : Receiver Committer where
  pendingBatch := r.pendingBatch ++ [msg]
  pendingBatchSizeBytes := r.pendingBatchSizeBytes + messageSizeBytes msg
  pendingCommitters := r.pendingCommitters ++ [committer]

/-- Cut the pending batch, if it has any messages, and one for the message. -/
def orderedAlone : OrderedResult Committer × Receiver Committer :=
  let progress := Progress.cutIf ⟨[], [], r⟩ (!r.pendingBatch.isEmpty)
  (⟨progress.messageBatches ++ [[msg]], progress.committerBatches ++ [[committer]], true, false⟩,
    progress.receiver)

end

/-- Enqueue the message, cutting before or after if a limit is met. -/
def orderedShared (batchSize : BatchSize) (r : Receiver Committer) (msg : Envelope)
    (committer : Committer) :
    OrderedResult Committer × Receiver Committer :=
  let messageWillOverflowBatchSizeBytes := decide (batchSize.preferredMaxBytes <
        r.pendingBatchSizeBytes + messageSizeBytes msg)
  let progress := Progress.cutIf ⟨[], [], r⟩ messageWillOverflowBatchSizeBytes
  let enqueued := enqueue progress.receiver msg committer
  let countReached := decide (batchSize.maxMessageCount ≤ UInt32.ofNat enqueued.pendingBatch.length)
  let final := { progress with receiver := enqueued }.cutIf countReached
  (⟨final.messageBatches, final.committerBatches, true, !countReached⟩, final.receiver)

/--
Take a message and the result of the filters: the committer of a message that
passes, or nothing.
-/
def ordered (isolated : Committer → Bool) (batchSize : BatchSize)
    (r : Receiver Committer) (msg : Envelope) (filtered : Option Committer) :
    OrderedResult Committer × Receiver Committer :=
  match filtered with
  | none => (⟨[], [], false, false⟩, r)
  | some committer =>
    if isolated committer || decide (batchSize.preferredMaxBytes < messageSizeBytes msg) then
      orderedAlone r msg committer
    else
      orderedShared batchSize r msg committer

end

/-! ## The receiver in terms of items -/

abbrev Item (Committer : Type) := Envelope × Committer

abbrev Items (Committer : Type) := List (Item Committer)

variable {r : Receiver Committer}

section

def totalLength (items : Items Committer) : Nat :=
  (items.map fun item => messageLength item.1).sum

@[simp]
theorem totalLength_nil : totalLength ([] : Items Committer) = 0 :=
  rfl

@[simp]
theorem totalLength_append (left right : Items Committer) :
    totalLength (left ++ right) = totalLength left + totalLength right := by
  simp [totalLength]

@[simp]
theorem totalLength_singleton (item : Item Committer) :
    totalLength [item] = messageLength item.1 := by
  simp [totalLength]

/-- The pending items as a batch, if there are any. -/
def pendingChunk (items : Items Committer) : List (Items Committer) :=
  if items.isEmpty then [] else [items]

/-- The item gets a batch of its own. -/
def standsAlone (isolated : Committer → Bool) (batchSize : BatchSize)
    (item : Item Committer) : Bool :=
  isolated item.2 || decide (batchSize.preferredMaxBytes < messageSizeBytes item.1)

/-- The items that stay pending when one more comes, and what is cut. -/
def makeRoom (batchSize : BatchSize) (items : Items Committer) (item : Item Committer) :
    List (Items Committer) × Items Committer :=
  if batchSize.preferredMaxBytes < UInt32.ofNat (totalLength items) + messageSizeBytes item.1 then
    ([items], [])
  else
    ([], items)

/-- Add an item to the pending ones, and cut if there are enough. -/
def addItem (batchSize : BatchSize) (chunks : List (Items Committer))
    (items : Items Committer) (item : Item Committer) :
    List (Items Committer) × Items Committer :=
  if batchSize.maxMessageCount ≤ UInt32.ofNat (items ++ [item]).length then
    (chunks ++ [items ++ [item]], [])
  else
    (chunks, items ++ [item])

/-- The batches that an accepted item completes, and what stays pending. -/
def orderItem (isolated : Committer → Bool) (batchSize : BatchSize)
    (items : Items Committer) (item : Item Committer) :
    List (Items Committer) × Items Committer :=
  if standsAlone isolated batchSize item then
    (pendingChunk items ++ [[item]], [])
  else
    let (chunks, kept) := makeRoom batchSize items item
    addItem batchSize chunks kept item

/-- The receiver holds the given items. -/
structure Holds (r : Receiver Committer) (items : Items Committer) : Prop where
  messages : r.pendingBatch = items.map Prod.fst
  committers : r.pendingCommitters = items.map Prod.snd
  size : r.pendingBatchSizeBytes = UInt32.ofNat (totalLength items)

theorem holds_new : Holds (Receiver.new : Receiver Committer) [] :=
  ⟨rfl, rfl, rfl⟩

variable {items : Items Committer}

theorem Holds.unique {left right : Receiver Committer}
    (leftHolds : Holds left items) (rightHolds : Holds right items) :
    left = right := by
  cases left
  cases right
  cases leftHolds
  cases rightHolds
  simp_all

theorem Holds.enqueue (holds : Holds r items) (item : Item Committer) :
    Holds (enqueue r item.1 item.2) (items ++ [item]) := by
  constructor
  · simp [BlockCutter.enqueue, holds.messages]
  · simp [BlockCutter.enqueue, holds.committers]
  · simp [BlockCutter.enqueue, holds.size, messageSizeBytes, UInt32.ofNat_add]

/-- The batches of a call and its receiver, in terms of items. -/
structure Progress.Holds (progress : Progress Committer) (chunks : List (Items Committer))
    (items : Items Committer) : Prop where
  messageBatches : progress.messageBatches = chunks.map fun chunk => chunk.map Prod.fst
  committerBatches : progress.committerBatches = chunks.map fun chunk => chunk.map Prod.snd
  receiver : BlockCutter.Holds progress.receiver items

variable {chunks : List (Items Committer)} {progress : Progress Committer}

theorem Progress.Holds.cutIf
    (holds : progress.Holds chunks items) (condition : Bool) : (progress.cutIf condition).Holds
      (if condition then chunks ++ [items] else chunks)
      (if condition then [] else items) := by
  cases condition with
  | false => simpa [Progress.cutIf] using holds
  | true =>
    constructor
    · simp [Progress.cutIf, cut, holds.messageBatches, holds.receiver.messages]
    · simp [Progress.cutIf, cut, holds.committerBatches, holds.receiver.committers]
    · exact holds_new

/-- The result of a call for an accepted item, in terms of items. -/
structure OrdersItem
    (outcome : OrderedResult Committer × Receiver Committer) (chunks : List (Items Committer))
    (items : Items Committer) : Prop where
  messageBatches : outcome.1.messageBatches = chunks.map fun chunk => chunk.map Prod.fst
  committerBatches : outcome.1.committerBatches = chunks.map fun chunk => chunk.map Prod.snd
  validTx : outcome.1.validTx = true
  pending : outcome.1.pending = !items.isEmpty
  receiver : Holds outcome.2 items

theorem Holds.orderedAlone (holds : Holds r items) (item : Item Committer) :
    OrdersItem (orderedAlone r item.1 item.2) (pendingChunk items ++ [[item]]) [] := by
  have start : Progress.Holds ⟨[], [], r⟩ [] items := ⟨rfl, rfl, holds⟩
  have flushed : (Progress.cutIf ⟨[], [], r⟩ (!r.pendingBatch.isEmpty)).Holds
        (pendingChunk items) [] := by
    have cutItems := start.cutIf (!r.pendingBatch.isEmpty)
    rw [holds.messages, List.isEmpty_map] at cutItems ⊢
    cases items <;> exact cutItems
  constructor
  · simp [BlockCutter.orderedAlone, flushed.messageBatches]
  · simp [BlockCutter.orderedAlone, flushed.committerBatches]
  · rfl
  · rfl
  · exact flushed.receiver

theorem Progress.Holds.addItem
    (holds : progress.Holds chunks items) (batchSize : BatchSize) (item : Item Committer) :
    let enqueued := enqueue progress.receiver item.1 item.2
    let countReached := decide
        (batchSize.maxMessageCount ≤ UInt32.ofNat enqueued.pendingBatch.length)
    let final := { progress with receiver := enqueued }.cutIf countReached
    OrdersItem (⟨final.messageBatches, final.committerBatches, true, !countReached⟩, final.receiver)
      (BlockCutter.addItem batchSize chunks items item).1
      (BlockCutter.addItem batchSize chunks items item).2 := by
  intro enqueued countReached final
  have enqueuedHolds := holds.receiver.enqueue item
  have added : Progress.Holds { progress with receiver := enqueued } chunks (items ++ [item]) :=
    ⟨holds.messageBatches, holds.committerBatches, enqueuedHolds⟩
  have finalHolds : final.Holds (if countReached then chunks ++ [items ++ [item]] else chunks)
        (if countReached then [] else items ++ [item]) :=
    added.cutIf countReached
  have sameLength : enqueued.pendingBatch.length = (items ++ [item]).length := by
    rw [enqueuedHolds.messages, List.length_map]
  have reached : countReached = decide (batchSize.maxMessageCount ≤
            UInt32.ofNat (items ++ [item]).length) := by
    rw [← sameLength]
  cases full : countReached with
  | true =>
    rw [full] at reached finalHolds
    simp only [BlockCutter.addItem, of_decide_eq_true reached.symm, if_true]
    exact ⟨finalHolds.messageBatches, finalHolds.committerBatches, rfl, rfl, finalHolds.receiver⟩
  | false =>
    rw [full] at reached finalHolds
    simp only [BlockCutter.addItem, of_decide_eq_false reached.symm, if_false]
    exact ⟨finalHolds.messageBatches, finalHolds.committerBatches, rfl,
        by simp, finalHolds.receiver⟩

theorem Holds.orderedShared (holds : Holds r items) (batchSize : BatchSize)
    (item : Item Committer) :
    OrdersItem (orderedShared batchSize r item.1 item.2)
      (addItem batchSize (makeRoom batchSize items item).1 (makeRoom batchSize items item).2 item).1
      (addItem batchSize (makeRoom batchSize items item).1
        (makeRoom batchSize items item).2 item).2 := by
  have start : Progress.Holds ⟨[], [], r⟩ [] items := ⟨rfl, rfl, holds⟩
  have room : (Progress.cutIf ⟨[], [], r⟩ (decide (batchSize.preferredMaxBytes <
              r.pendingBatchSizeBytes + messageSizeBytes item.1))).Holds
        (makeRoom batchSize items item).1
        (makeRoom batchSize items item).2 := by
    have cutItems := start.cutIf (decide (batchSize.preferredMaxBytes <
            r.pendingBatchSizeBytes + messageSizeBytes item.1))
    rw [holds.size] at cutItems ⊢
    unfold makeRoom
    split_ifs with overflow
    · simpa [overflow] using cutItems
    · simpa [overflow] using cutItems
  exact room.addItem batchSize item

theorem Holds.ordered (holds : Holds r items) (isolated : Committer → Bool)
    (batchSize : BatchSize) (item : Item Committer) :
    OrdersItem (ordered isolated batchSize r item.1 (some item.2))
      (orderItem isolated batchSize items item).1
      (orderItem isolated batchSize items item).2 := by
  cases alone : standsAlone isolated batchSize item with
  | true =>
    have branch : BlockCutter.ordered isolated batchSize r item.1 (some item.2) =
          BlockCutter.orderedAlone r item.1 item.2 :=
      if_pos alone
    simp only [orderItem, alone, if_true, branch]
    exact holds.orderedAlone item
  | false =>
    have branch : BlockCutter.ordered isolated batchSize r item.1 (some item.2) =
          BlockCutter.orderedShared batchSize r item.1 item.2 :=
      if_neg (ne_true_of_eq_false alone)
    simp only [orderItem, alone, Bool.false_eq_true, if_false, branch]
    exact holds.orderedShared batchSize item

end

/-! ## What the batches are like -/

variable {isolated : Committer → Bool}

section

variable {batchSize : BatchSize}

/-- What holds of the pending items between two calls. -/
structure Pending (isolated : Committer → Bool) (batchSize : BatchSize)
    (items : Items Committer) : Prop where
  count : items.length < batchSize.maxMessageCount.toNat
  shared : ∀ item ∈ items, isolated item.2 = false

/-- A batch respects isolation and the message count. -/
structure Proper (isolated : Committer → Bool) (batchSize : BatchSize)
    (chunk : Items Committer) : Prop where
  alone : ∀ item ∈ chunk, isolated item.2 = true → chunk = [item]
  count : chunk.length ≤ batchSize.maxMessageCount.toNat

theorem pending_nil (positive : 0 < batchSize.maxMessageCount.toNat) :
    Pending isolated batchSize [] :=
  ⟨positive, by simp⟩

theorem proper_singleton (positive : 0 < batchSize.maxMessageCount.toNat)
    (item : Item Committer) : Proper isolated batchSize [item] := by
  constructor
  · intro _ member _
    rw [List.mem_singleton.mp member]
  · exact positive

variable {items : Items Committer}

theorem Pending.proper (pending : Pending isolated batchSize items) :
    Proper isolated batchSize items := by
  constructor
  · intro item member alone
    rw [pending.shared item member] at alone
    cases alone
  · exact Nat.le_of_lt pending.count

/-- What an accepted item does to the batches. -/
structure ItemOrdered (isolated : Committer → Bool) (batchSize : BatchSize)
    (items : Items Committer) (item : Item Committer)
    (outcome : List (Items Committer) × Items Committer) :
    Prop where
  complete : outcome.1.flatten ++ outcome.2 = items ++ [item]
  nonempty : ∀ chunk ∈ outcome.1, chunk ≠ []
  proper : ∀ chunk ∈ outcome.1, Proper isolated batchSize chunk
  pending : Pending isolated batchSize outcome.2

private theorem mem_pendingChunk {chunk : Items Committer}
    (member : chunk ∈ pendingChunk items) : chunk = items ∧ items ≠ [] := by
  cases items with
  | nil => simp [pendingChunk] at member
  | cons _ _ => simpa [pendingChunk] using member

variable {item : Item Committer}

private theorem makeRoom_spec (items : Items Committer)
    (shared : standsAlone isolated batchSize item = false) :
    (makeRoom batchSize items item = ([items], []) ∧ items ≠ []) ∨
      makeRoom batchSize items item = ([], items) := by
  unfold makeRoom
  split_ifs with overflow
  · left
    refine ⟨rfl, ?_⟩
    rintro rfl
    have small : ¬ batchSize.preferredMaxBytes < messageSizeBytes item.1 := by
      have both := Bool.or_eq_false_iff.mp shared
      exact of_decide_eq_false both.2
    apply small
    simpa using overflow
  · right
    rfl

/-- The three ways in which an accepted item can complete batches. -/
inductive Cuts (isolated : Committer → Bool) (batchSize : BatchSize)
    (items : Items Committer) (item : Item Committer) :
    List (Items Committer) → Items Committer → Prop where
  | joins
      (shared : isolated item.2 = false) :
      Cuts isolated batchSize items item [] (items ++ [item])
  | fills
      (alone : isolated item.2 = true → items = []) :
      Cuts isolated batchSize items item [items ++ [item]] []
  | splits
      {rest : List (Items Committer)} {kept : Items Committer}
      (nonempty : items ≠ [])
      (fresh : orderItem isolated batchSize [] item = (rest, kept))
      (single : rest = [[item]] ∧ kept = [] ∨ rest = [] ∧ kept = [item] ∧ isolated item.2 = false) :
      Cuts isolated batchSize items item (items :: rest) kept

private theorem addItem_cases
    (batchSize : BatchSize) (chunks : List (Items Committer)) (kept : Items Committer)
    (item : Item Committer) :
    addItem batchSize chunks kept item = (chunks ++ [kept ++ [item]], []) ∨
      addItem batchSize chunks kept item = (chunks, kept ++ [item]) := by
  unfold addItem
  split_ifs
  · left
    rfl
  · right
    rfl

/--
An item joins the pending ones, completes them, or finds them cut before it
and is then treated as if nothing had been pending.
-/
theorem orderItem_cuts (items : Items Committer) (item : Item Committer) :
    Cuts isolated batchSize items item (orderItem isolated batchSize items item).1
      (orderItem isolated batchSize items item).2 := by
  cases alone : standsAlone isolated batchSize item with
  | true =>
    have fresh : orderItem isolated batchSize [] item = ([[item]], []) := by
      simp [orderItem, alone, pendingChunk]
    cases items with
    | nil =>
      rw [fresh]
      exact .fills (fun _ => rfl)
    | cons first rest =>
      have cut : orderItem isolated batchSize (first :: rest) item =
            ([first :: rest, [item]], []) := by
        simp [orderItem, alone, pendingChunk]
      rw [cut]
      exact .splits (by simp) fresh (Or.inl ⟨rfl, rfl⟩)
  | false =>
    have shared := (Bool.or_eq_false_iff.mp alone).1
    have fresh : orderItem isolated batchSize [] item = addItem batchSize [] [] item := by
      rcases makeRoom_spec [] alone with ⟨_, absurdity⟩ | room
      · exact absurd rfl absurdity
      · simp [orderItem, alone, room]
    rcases makeRoom_spec items alone with ⟨room, nonempty⟩ | room
    · have cut : orderItem isolated batchSize items item =
            (items :: (addItem batchSize [] [] item).1, (addItem batchSize [] [] item).2) := by
        simp only [orderItem, alone, Bool.false_eq_true, if_false, room]
        unfold addItem
        split_ifs <;> rfl
      rcases addItem_cases batchSize [] [] item with full | room
      · rw [full] at cut fresh
        rw [cut]
        exact .splits nonempty fresh (Or.inl ⟨rfl, rfl⟩)
      · rw [room] at cut fresh
        rw [cut]
        exact .splits nonempty fresh (Or.inr ⟨rfl, rfl, shared⟩)
    · have added : orderItem isolated batchSize items item = addItem batchSize [] items item := by
        simp [orderItem, alone, room]
      rw [added]
      rcases addItem_cases batchSize [] items item with full | room
      · rw [full]
        apply Cuts.fills
        intro isolatedItem
        rw [shared] at isolatedItem
        cases isolatedItem
      · rw [room]
        exact .joins shared

variable {chunks : List (Items Committer)} {kept : Items Committer}
  {items : Items Committer}

theorem cuts_of_orderItem (split : orderItem isolated batchSize items item = (chunks, kept)) :
    Cuts isolated batchSize items item chunks kept := by
  have cuts : Cuts isolated batchSize items item _ _ := orderItem_cuts items item
  rw [split] at cuts
  exact cuts

theorem Cuts.complete (cuts : Cuts isolated batchSize items item chunks kept) :
    chunks.flatten ++ kept = items ++ [item] := by
  cases cuts with
  | joins _ => rfl
  | fills _ => simp
  | splits _ _ single => rcases single with ⟨rfl, rfl⟩ | ⟨rfl, rfl, _⟩ <;> simp

private theorem toNat_ofNat_length (item : Item Committer)
    (pending : Pending isolated batchSize items) :
    (UInt32.ofNat (items ++ [item]).length).toNat = items.length + 1 := by
  have bound := batchSize.maxMessageCount.toNat_lt
  have count := pending.count
  rw [List.length_append, List.length_singleton, UInt32.toNat_ofNat']
  exact Nat.mod_eq_of_lt (by omega)

private theorem itemOrdered_addItem
    (positive : 0 < batchSize.maxMessageCount.toNat) (shared : isolated item.2 = false)
    (pending : Pending isolated batchSize kept) (complete : chunks.flatten ++ kept = items)
    (nonempty : ∀ chunk ∈ chunks, chunk ≠ [])
    (proper : ∀ chunk ∈ chunks, Proper isolated batchSize chunk) :
    ItemOrdered isolated batchSize items item (addItem batchSize chunks kept item) := by
  have length := toNat_ofNat_length item pending
  have count := pending.count
  have allShared : ∀ other ∈ kept ++ [item], isolated other.2 = false :=
    List.forall_mem_append.mpr ⟨pending.shared, by simpa using shared⟩
  unfold addItem
  split_ifs with full
  · constructor
    · simp [← complete]
    · exact List.forall_mem_append.mpr ⟨nonempty, by simp⟩
    · refine List.forall_mem_append.mpr ⟨proper, List.forall_mem_singleton.mpr ⟨?_, ?_⟩⟩
      · intro other otherMember alone
        rw [allShared other otherMember] at alone
        cases alone
      · simp only [List.length_append, List.length_singleton]
        omega
    · exact pending_nil positive
  · constructor
    · simp [← complete]
    · exact nonempty
    · exact proper
    · constructor
      · rw [UInt32.not_le, UInt32.lt_iff_toNat_lt, length] at full
        simpa using full
      · exact allShared

/-- An accepted item loses nothing and leaves proper batches. -/
theorem Pending.orderItem (pending : Pending isolated batchSize items)
    (positive : 0 < batchSize.maxMessageCount.toNat) (item : Item Committer) :
    ItemOrdered isolated batchSize items item (orderItem isolated batchSize items item) := by
  unfold BlockCutter.orderItem
  split_ifs with alone
  · constructor
    · cases items <;> simp [pendingChunk]
    · refine List.forall_mem_append.mpr ⟨?_, by simp⟩
      intro chunk flushed
      rcases mem_pendingChunk flushed with ⟨rfl, nonempty⟩
      exact nonempty
    · refine List.forall_mem_append.mpr ⟨?_, by simpa using proper_singleton positive item⟩
      intro chunk flushed
      rw [(mem_pendingChunk flushed).1]
      exact pending.proper
    · exact pending_nil positive
  · rw [Bool.not_eq_true] at alone
    have shared := (Bool.or_eq_false_iff.mp alone).1
    rcases makeRoom_spec items alone with ⟨room, nonempty⟩ | room
    · rw [room]
      apply itemOrdered_addItem positive shared (pending_nil positive)
      · simp
      · simpa using nonempty
      · simpa using pending.proper
    · rw [room]
      apply itemOrdered_addItem positive shared pending
      · simp
      · simp
      · simp

/-- No 32-bit overflow when a message joins pending ones of a given size. -/
def SizesExact (batchSize : BatchSize) (pendingLength : Nat) (msg : Envelope) : Prop :=
  messageLength msg < 2 ^ 32 ∧ (messageLength msg ≤ batchSize.preferredMaxBytes.toNat →
      pendingLength + messageLength msg < 2 ^ 32)

/-- The items have no more bytes than is preferred. -/
def Bounded (batchSize : BatchSize) (items : Items Committer) : Prop :=
  totalLength items ≤ batchSize.preferredMaxBytes.toNat

/-- A batch of two or more messages has no more bytes than is preferred. -/
def BoundedIfShared (batchSize : BatchSize) (chunk : Items Committer) : Prop :=
  2 ≤ chunk.length → Bounded batchSize chunk

private theorem bounded_addItem (fits : Bounded batchSize (kept ++ [item]))
    (bounded : ∀ chunk ∈ chunks, BoundedIfShared batchSize chunk) :
    Bounded batchSize (addItem batchSize chunks kept item).2 ∧
      ∀ chunk ∈ (addItem batchSize chunks kept item).1, BoundedIfShared batchSize chunk := by
  unfold addItem
  split_ifs with full
  · refine ⟨Nat.zero_le _, List.forall_mem_append.mpr ⟨bounded, ?_⟩⟩
    exact List.forall_mem_singleton.mpr fun _ => fits
  · exact ⟨fits, bounded⟩

/-- Without overflow, the sizes of shared batches stay bounded. -/
theorem bounded_orderItem (bounded : Bounded batchSize items)
    (sizes : isolated item.2 = false → SizesExact batchSize (totalLength items) item.1) :
    Bounded batchSize (orderItem isolated batchSize items item).2 ∧
      ∀ chunk ∈ (orderItem isolated batchSize items item).1, BoundedIfShared batchSize chunk := by
  unfold orderItem
  split_ifs with alone
  · refine ⟨Nat.zero_le _, List.forall_mem_append.mpr ⟨?_, ?_⟩⟩
    · intro chunk flushed
      rw [(mem_pendingChunk flushed).1]
      exact fun _ => bounded
    · simp [BoundedIfShared]
  · rw [Bool.not_eq_true] at alone
    rcases Bool.or_eq_false_iff.mp alone with ⟨shared, small⟩
    rcases sizes shared with ⟨lengthFits, sumFits⟩
    have size : (messageSizeBytes item.1).toNat = messageLength item.1 := by
      rw [messageSizeBytes, UInt32.toNat_ofNat']
      exact Nat.mod_eq_of_lt lengthFits
    have lengthBounded : messageLength item.1 ≤ batchSize.preferredMaxBytes.toNat := by
      have notLarger := of_decide_eq_false small
      rw [UInt32.not_lt, UInt32.le_iff_toNat_le, size] at notLarger
      exact notLarger
    have sum : (UInt32.ofNat (totalLength items) + messageSizeBytes item.1).toNat =
          totalLength items + messageLength item.1 := by
      rw [messageSizeBytes, ← UInt32.ofNat_add, UInt32.toNat_ofNat']
      exact Nat.mod_eq_of_lt (sumFits lengthBounded)
    unfold makeRoom
    split_ifs with overflow
    · apply bounded_addItem
      · simpa [Bounded] using lengthBounded
      · exact List.forall_mem_singleton.mpr fun _ => bounded
    · apply bounded_addItem
      · rw [UInt32.not_lt, UInt32.le_iff_toNat_le, sum] at overflow
        simpa [Bounded] using overflow
      · simp

end

/-! ## Runs of the block cutter -/

section

/-- A call of a receiver. -/
inductive Call (Committer : Type) where
  | ordered (msg : Envelope) (filtered : Option Committer)
  | cut
deriving DecidableEq

/-- The receiver and the batches it has emitted, in order. -/
structure State (Committer : Type) where
  receiver : Receiver Committer
  messageBatches : List (List Envelope)
  committerBatches : List (List Committer)
deriving DecidableEq

/-- One call of the cutter. -/
def step (isolated : Committer → Bool) (batchSize : BatchSize)
    (state : State Committer) : Call Committer → State Committer
  | .ordered msg filtered =>
    let (result, receiver) :=
      ordered isolated batchSize state.receiver msg filtered
    { receiver := receiver
      messageBatches := state.messageBatches ++ result.messageBatches
      committerBatches := state.committerBatches ++ result.committerBatches }
  | .cut =>
    let ((messageBatch, committerBatch), receiver) := cut state.receiver
    { receiver := receiver
      messageBatches := state.messageBatches ++ [messageBatch]
      committerBatches := state.committerBatches ++ [committerBatch] }

/-- The state after some calls of a new receiver. -/
def run (isolated : Committer → Bool) (batchSize : BatchSize)
    (calls : List (Call Committer)) : State Committer :=
  calls.foldl (step isolated batchSize) ⟨Receiver.new, [], []⟩

/-- The messages that passed the filters, with their committers. -/
def acceptedItems (calls : List (Call Committer)) : Items Committer :=
  calls.filterMap fun
    | .ordered msg (some committer) => some (msg, committer)
    | _ => none

def pendingLength (r : Receiver Committer) : Nat := (r.pendingBatch.map messageLength).sum

/--
In no step of the run does a message that is neither rejected nor isolated
make the size computation exceed 32 bits.
-/
def NoOverflow (isolated : Committer → Bool) (batchSize : BatchSize)
    (calls : List (Call Committer)) : Prop :=
  ∀ earlier msg committer later, calls = earlier ++ Call.ordered msg (some committer) :: later →
    isolated committer = false →
    SizesExact batchSize (pendingLength (run isolated batchSize earlier).receiver) msg

/-- What a run has emitted and what it holds, in terms of items. -/
structure Emitted (state : State Committer) (chunks : List (Items Committer))
    (items : Items Committer) : Prop where
  messageBatches : state.messageBatches = chunks.map fun chunk => chunk.map Prod.fst
  committerBatches : state.committerBatches = chunks.map fun chunk => chunk.map Prod.snd
  receiver : Holds state.receiver items

variable {batchSize : BatchSize} {items : Items Committer}

theorem Holds.pendingLength_eq (holds : Holds r items) : pendingLength r = totalLength items := by
  rw [pendingLength, holds.messages, List.map_map]
  rfl

@[simp]
theorem run_append_singleton (calls : List (Call Committer)) (call : Call Committer) :
    run isolated batchSize (calls ++ [call]) =
      step isolated batchSize (run isolated batchSize calls) call := by
  simp [run]

variable {chunks : List (Items Committer)} {state : State Committer}

theorem Emitted.ordered (emitted : Emitted state chunks items) (item : Item Committer) :
    Emitted (step isolated batchSize state (.ordered item.1 (some item.2)))
      (chunks ++ (orderItem isolated batchSize items item).1)
      (orderItem isolated batchSize items item).2 := by
  have result := emitted.receiver.ordered isolated batchSize item
  constructor
  · simp [step, emitted.messageBatches, result.messageBatches]
  · simp [step, emitted.committerBatches, result.committerBatches]
  · exact result.receiver

theorem Emitted.cut (emitted : Emitted state chunks items) :
    Emitted (step isolated batchSize state .cut) (chunks ++ [items]) [] := by
  constructor
  · simp [step, BlockCutter.cut, emitted.messageBatches, emitted.receiver.messages]
  · simp [step, BlockCutter.cut, emitted.committerBatches, emitted.receiver.committers]
  · exact holds_new

/-- What holds of the batches of every run. -/
structure Batched (isolated : Committer → Bool) (batchSize : BatchSize)
    (calls : List (Call Committer)) (chunks : List (Items Committer))
    (items : Items Committer) : Prop where
  emitted : Emitted (run isolated batchSize calls) chunks items
  complete : chunks.flatten ++ items = acceptedItems calls
  proper : ∀ chunk ∈ chunks, Proper isolated batchSize chunk
  pending : Pending isolated batchSize items
  bounded : NoOverflow isolated batchSize calls → Bounded batchSize items ∧
        ∀ chunk ∈ chunks, BoundedIfShared batchSize chunk

variable {calls : List (Call Committer)}

private theorem NoOverflow.of_append {call : Call Committer}
    (noOverflow : NoOverflow isolated batchSize (calls ++ [call])) :
    NoOverflow isolated batchSize calls := by
  intro earlier msg committer later split shared
  apply noOverflow earlier msg committer (later ++ [call]) _ shared
  rw [split, List.append_assoc]
  rfl

section

variable (batched : Batched isolated batchSize calls chunks items)
include batched

theorem Batched.ordered (positive : 0 < batchSize.maxMessageCount.toNat) (item : Item Committer) :
    Batched isolated batchSize (calls ++ [Call.ordered item.1 (some item.2)])
      (chunks ++ (orderItem isolated batchSize items item).1)
      (orderItem isolated batchSize items item).2 := by
  have ordered := batched.pending.orderItem positive item
  constructor
  · rw [run_append_singleton]
    exact batched.emitted.ordered item
  · rw [List.flatten_append, List.append_assoc, ordered.complete,
      ← List.append_assoc, batched.complete]
    simp [acceptedItems]
  · exact List.forall_mem_append.mpr ⟨batched.proper, ordered.proper⟩
  · exact ordered.pending
  · intro noOverflow
    rcases batched.bounded noOverflow.of_append with ⟨items, chunks⟩
    have sizes := noOverflow calls item.1 item.2 [] (by simp)
    rw [batched.emitted.receiver.pendingLength_eq] at sizes
    rcases bounded_orderItem items sizes with ⟨kept, emitted⟩
    exact ⟨kept, List.forall_mem_append.mpr ⟨chunks, emitted⟩⟩

theorem Batched.cut (positive : 0 < batchSize.maxMessageCount.toNat) :
    Batched isolated batchSize (calls ++ [Call.cut]) (chunks ++ [items]) [] := by
  constructor
  · rw [run_append_singleton]
    exact batched.emitted.cut
  · rw [List.flatten_append, List.append_nil, List.flatten_singleton, batched.complete]
    simp [acceptedItems]
  · exact List.forall_mem_append.mpr ⟨batched.proper, by simpa using batched.pending.proper⟩
  · exact pending_nil positive
  · intro noOverflow
    rcases batched.bounded noOverflow.of_append with ⟨held, emitted⟩
    refine ⟨Nat.zero_le _, List.forall_mem_append.mpr ⟨emitted, ?_⟩⟩
    exact List.forall_mem_singleton.mpr fun _ => held

theorem Batched.rejected (msg : Envelope) :
    Batched isolated batchSize (calls ++ [Call.ordered msg none]) chunks
      items := by
  have same : run isolated batchSize (calls ++ [Call.ordered msg none]) =
        run isolated batchSize calls := by
    simp [step, BlockCutter.ordered]
  constructor
  · rw [same]
    exact batched.emitted
  · rw [batched.complete]
    simp [acceptedItems]
  · exact batched.proper
  · exact batched.pending
  · intro noOverflow
    exact batched.bounded noOverflow.of_append

end

theorem exists_batched (positive : 0 < batchSize.maxMessageCount.toNat)
    (calls : List (Call Committer)) :
    ∃ chunks items, Batched isolated batchSize calls chunks items := by
  induction calls using List.reverseRecOn with
  | nil =>
    refine ⟨[], [], ⟨rfl, rfl, holds_new⟩, rfl, by simp, pending_nil positive, ?_⟩
    intro _
    exact ⟨Nat.zero_le _, by simp⟩
  | append_singleton calls call ih =>
    rcases ih with ⟨chunks, items, batched⟩
    cases call with
    | ordered msg filtered =>
      cases filtered with
      | none => exact ⟨_, _, batched.rejected msg⟩
      | some committer => exact ⟨_, _, batched.ordered positive (msg, committer)⟩
    | cut => exact ⟨_, _, batched.cut positive⟩

/--
The batches of a run of the block cutter, and the next call.  Everything but
the bound on the size of shared batches holds of every run; the bound holds
when the size computation does not overflow.
-/
theorem run_batches (accepted : validateBatchSize batchSize = .ok ())
    (calls : List (Call Committer)) :
    (∃ chunks items, Emitted (run isolated batchSize calls) chunks items ∧
        chunks.flatten ++ items = acceptedItems calls ∧
        (∀ chunk ∈ chunks, ∀ item ∈ chunk, isolated item.2 = true → chunk = [item]) ∧
        (∀ chunk ∈ chunks, chunk.length ≤ batchSize.maxMessageCount.toNat) ∧
        (NoOverflow isolated batchSize calls → ∀ chunk ∈ chunks, 2 ≤ chunk.length →
            totalLength chunk ≤ batchSize.preferredMaxBytes.toNat)) ∧
      ∀ msg committer result later, BlockCutter.ordered isolated batchSize
            (run isolated batchSize calls).receiver msg (some committer) =
          (result, later) →
        [] ∉ result.messageBatches ∧ result.validTx = true ∧
          result.pending = !later.pendingBatch.isEmpty := by
  have positive := maxMessageCount_pos accepted
  rcases exists_batched positive calls with ⟨chunks, items, batched⟩
  constructor
  · refine ⟨chunks, items, batched.emitted, batched.complete, ?_, ?_, ?_⟩
    · intro chunk member
      exact (batched.proper chunk member).alone
    · intro chunk member
      exact (batched.proper chunk member).count
    · intro noOverflow
      exact (batched.bounded noOverflow).2
  · intro msg committer result later call
    have implemented := batched.emitted.receiver.ordered isolated batchSize (msg, committer)
    have described := batched.pending.orderItem positive (msg, committer)
    rw [call] at implemented
    refine ⟨?_, implemented.validTx, ?_⟩
    · rw [implemented.messageBatches]
      intro empty
      rcases List.mem_map.mp empty with ⟨chunk, member, mapped⟩
      exact described.nonempty chunk member (List.map_eq_nil_iff.mp mapped)
    · rw [implemented.pending, implemented.receiver.messages, List.isEmpty_map]

end

/-! Two messages whose sizes add up to the range of the counter. -/

namespace Wrapping

def batchSize : BatchSize := ⟨10, 4294967295, 4294967295⟩

def message (length : Nat) : Envelope :=
  ⟨some (List.replicate length 0), none⟩

theorem messageLength_message (length : Nat) : messageLength (message length) = length := by
  simp [messageLength, message]

def calls (msg : Envelope) : List (Call Unit) :=
  [.ordered msg (some ()), .ordered msg (some ()), .cut]

theorem run_calls {msg : Envelope} (half : messageLength msg = 2 ^ 31) :
    (run (fun _ => false) batchSize (calls msg)).messageBatches = [[msg, msg]] := by
  have size : messageSizeBytes msg = 2147483648 := by
    rw [messageSizeBytes, half]
    rfl
  simp [run, calls, step, ordered, orderedShared, enqueue, Progress.cutIf,
    cut, Receiver.new, size, batchSize]

end Wrapping

/-- Two messages of half the range share a batch that is too large. -/
theorem run_batches_oversized :
    validateBatchSize Wrapping.batchSize = .ok () ∧ (run (fun _ => false) Wrapping.batchSize
          (Wrapping.calls (Wrapping.message (2 ^ 31)))).messageBatches =
        [[Wrapping.message (2 ^ 31), Wrapping.message (2 ^ 31)]] ∧
      Wrapping.batchSize.preferredMaxBytes.toNat < messageLength (Wrapping.message (2 ^ 31)) +
          messageLength (Wrapping.message (2 ^ 31)) := by
  refine ⟨by decide, ?_, ?_⟩
  · exact Wrapping.run_calls (Wrapping.messageLength_message (2 ^ 31))
  · rw [Wrapping.messageLength_message]
    decide

/-- Two small messages and a cut. -/
theorem run_batches_small :
    ∃ chunks items, Emitted (run (fun _ => false) ⟨10, 100, 10⟩
            (Wrapping.calls (Wrapping.message 4)))
          chunks items ∧
        chunks.flatten ++ items = [(Wrapping.message 4, ()), (Wrapping.message 4, ())] ∧
        ∀ chunk ∈ chunks, 2 ≤ chunk.length → totalLength chunk ≤ 10 := by
  have noOverflow : NoOverflow (fun _ => false) ⟨10, 100, 10⟩
        (Wrapping.calls (Wrapping.message 4)) := by
    intro earlier _ _ _ split _
    match earlier with
    | [] =>
      cases split
      exact ⟨by decide, fun _ => by decide⟩
    | [_] =>
      cases split
      exact ⟨by decide, fun _ => by decide⟩
    | [_, _] => cases split
    | _ :: _ :: _ :: _ => simp [Wrapping.calls] at split
  have accepted : validateBatchSize ⟨10, 100, 10⟩ = .ok () := by decide
  rcases (run_batches accepted (Wrapping.calls (Wrapping.message 4))).1 with
    ⟨chunks, items, emitted, complete, _, _, bounded⟩
  exact ⟨chunks, items, emitted, complete, bounded noOverflow⟩

end Fabric.Orderer.BlockCutter
