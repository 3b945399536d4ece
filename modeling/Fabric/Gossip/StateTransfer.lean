import Fabric.Gossip.Message
import Fabric.Library.WordLoop

/-!
# Answering requests for blocks

A peer that lacks blocks asks another one for a range of them.  The answer holds
the blocks of the range that the ledger has.  The length of the range is limited
by a difference of words, and its end by a minimum that is computed from the
sign of a difference; both wrap around.

The ledger does not change while a request is answered.
-/

namespace Fabric.Gossip.StateTransfer

open Library ByteString WordLoop
open Protos (Block field)
open Message

/-! ## The ledger -/

/-- A ledger has exactly the blocks below its height. -/
structure Ledger where
  height : UInt64
  blocks : UInt64 → Option Block
  present : ∀ number, (blocks number).isSome = true ↔ number < height

/-- The block of a given number; the greatest number asks for the last block. -/
def Ledger.retrieveBlockByNumber (ledger : Ledger) (blockNum : UInt64) : Option Block :=
  if blockNum = maxWord then ledger.blocks (ledger.height - 1) else ledger.blocks blockNum

/-- The ledger as the committer gives access to it. -/
structure Committer where
  ledger : Ledger
  /-- The height, unless it cannot be read. -/
  ledgerHeight : Option UInt64
  accurate : ∀ height ∈ ledgerHeight, height = ledger.height
  /-- An encoded block; one that cannot be encoded is sent without data. -/
  marshalBlock : Block → Slice

def Committer.getBlocks (committer : Committer) (blockSeqs : List UInt64) : List Block :=
  blockSeqs.filterMap committer.ledger.retrieveBlockByNumber

/-! ## Requests -/

/-- A request or the answer to it, with the number that relates them. -/
structure StateMessage (Content : Type) where
  nonce : UInt64
  channel : Bytes
  content : Content
deriving DecidableEq

def defAntiEntropyBatchSize : UInt64 := 10

/-- The minimum of two numbers, selected by the sign of their difference. -/
def min (a b : UInt64) : UInt64 :=
  b ^^^ ((a ^^^ b) &&& -((a - b) >>> 63))

section

variable (committer : Committer)

/-- The payload for a number, if the ledger has a block for it. -/
def readBlock (seqNum : UInt64) : List Payload :=
  match committer.getBlocks [seqNum] with
  | [] => []
  | block :: _ => [⟨seqNum, committer.marshalBlock block⟩]

/--
Answer a request, or ignore it.  Nothing is returned if the loop has not ended
by the time the fuel is used up.
-/
def handleStateRequest (chainID : Bytes) (fuel : Nat) (msg : StateMessage RemoteStateRequest) :
    Option (Option (StateMessage (List Payload))) :=
  let request := msg.content
  let batchSize := request.endSeqNum - request.startSeqNum
  if defAntiEntropyBatchSize < batchSize then
    some none
  else if request.endSeqNum < request.startSeqNum then
    some none
  else
    match committer.ledgerHeight with
    | none => some none
    | some currentHeight => do
        let endSeqNum := min currentHeight request.endSeqNum
        let payloads ← forUpTo (fun seqNum payloads => payloads ++ readBlock committer seqNum)
            endSeqNum fuel request.startSeqNum []
        some (some ⟨msg.nonce, chainID, payloads⟩)

end

/-! ## The minimum -/

theorem min_eq (a b : UInt64) : min a b = if (a - b).toNat < 2 ^ 63 then b else a := by
  have size := (a - b).toNat_lt
  split
  next _ =>
    have sign : (a - b) >>> 63 = 0 := by
      apply UInt64.toNat_inj.mp
      rw [UInt64.toNat_shiftRight]
      simp [Nat.shiftRight_eq_div_pow]
      omega
    simp [min, sign]
  next _ =>
    have sign : (a - b) >>> 63 = 1 := by
      apply UInt64.toNat_inj.mp
      rw [UInt64.toNat_shiftRight]
      simp [Nat.shiftRight_eq_div_pow]
      omega
    rw [min, sign, UInt64.and_neg_one, UInt64.xor_comm a b,
      ← UInt64.xor_assoc, UInt64.xor_self, UInt64.zero_xor]

theorem toNat_sub_lt_iff (a b : UInt64) :
    (a - b).toNat < 2 ^ 63 ↔ b.toNat ≤ a.toNat ∧ a.toNat < b.toNat + 2 ^ 63 ∨
        a.toNat + 2 ^ 63 < b.toNat := by
  have left := a.toNat_lt
  have right := b.toNat_lt
  rw [UInt64.toNat_sub]
  omega

/-! ## Answers within the range -/

/-- What an answer may hold. -/
structure Bounded
    (committer : Committer) (request : RemoteStateRequest) (payloads : List Payload) : Prop where
  within : ∀ payload ∈ payloads, request.startSeqNum ≤ payload.seqNum ∧
      payload.seqNum ≤ request.endSeqNum ∧
      payload.seqNum ≤ committer.ledger.height
  held : ∀ payload ∈ payloads, ∃ block, committer.ledger.blocks payload.seqNum = some block ∧
      payload.data = committer.marshalBlock block
  once : (payloads.map Payload.seqNum).Nodup
  count : payloads.length ≤ defAntiEntropyBatchSize.toNat + 1

/--
A request whose numbers are so far from the height that the minimum is wrong,
or is the greatest number.
-/
def Overruns (request : RemoteStateRequest) (height : UInt64) : Prop :=
  request.startSeqNum ≤ request.endSeqNum ∧
    request.endSeqNum - request.startSeqNum ≤ defAntiEntropyBatchSize ∧
    (request.endSeqNum = maxWord ∧ (height.toNat + 1 < 2 ^ 63 ∨ height = maxWord) ∨
      request.endSeqNum.toNat + 2 ^ 63 ≤ height.toNat)

section

variable {committer : Committer}

theorem mem_readBlock_iff {seqNum : UInt64} {payload : Payload} :
    payload ∈ readBlock committer seqNum ↔ ∃ block,
        committer.ledger.retrieveBlockByNumber seqNum = some block ∧
          payload = ⟨seqNum, committer.marshalBlock block⟩ := by
  simp only [readBlock, Committer.getBlocks]
  cases found : committer.ledger.retrieveBlockByNumber seqNum with
  | none | some block => simp [found]

theorem sublist_readBlocks (numbers : List UInt64) :
    ((numbers.flatMap (readBlock committer)).map Payload.seqNum).Sublist
      numbers := by
  induction numbers with
  | nil => simp
  | cons number numbers ih =>
    rw [List.flatMap_cons, List.map_append]
    cases found : committer.ledger.retrieveBlockByNumber number with
    | none =>
      have none : readBlock committer number = [] := by
        simp [readBlock, Committer.getBlocks, found]
      rw [none]
      exact ih.cons number
    | some block =>
      have one : readBlock committer number = [⟨number, committer.marshalBlock block⟩] := by
        simp [readBlock, Committer.getBlocks, found]
      rw [one]
      exact ih.cons_cons number

theorem retrieveBlockByNumber_of_ne
    {ledger : Ledger} {number : UInt64} (smaller : number ≠ maxWord) :
    ledger.retrieveBlockByNumber number = ledger.blocks number := by
  rw [Ledger.retrieveBlockByNumber, if_neg smaller]

theorem ne_maxWord_of_le {number last : UInt64} (within : number ≤ last)
    (bounded : last ≠ maxWord) : number ≠ maxWord := by
  rintro rfl
  apply bounded
  apply UInt64.toNat_inj.mp
  have order := UInt64.le_iff_toNat_le.mp within
  have size := last.toNat_lt
  rw [toNat_maxWord] at order ⊢
  omega

theorem bounded_of_le {request : RemoteStateRequest} {last : UInt64}
    (bounded : last ≠ maxWord) (within : last ≤ request.endSeqNum)
    (ordered : request.startSeqNum ≤ request.endSeqNum)
    (short : request.endSeqNum - request.startSeqNum ≤ defAntiEntropyBatchSize) :
    Bounded committer request ((words request.startSeqNum last).flatMap (readBlock committer)) := by
  have found : ∀ payload ∈ (words request.startSeqNum last).flatMap (readBlock committer),
        request.startSeqNum ≤ payload.seqNum ∧ payload.seqNum ≤ last ∧ ∃ block,
            committer.ledger.blocks payload.seqNum = some block ∧
              payload.data = committer.marshalBlock block := by
    intro payload member
    rcases List.mem_flatMap.mp member with ⟨_, inside, read⟩
    rcases mem_readBlock_iff.mp read with ⟨block, retrieved, rfl⟩
    rcases mem_words_iff.mp inside with ⟨above, below⟩
    rw [retrieveBlockByNumber_of_ne (ne_maxWord_of_le below bounded)] at retrieved
    exact ⟨above, below, block, retrieved, rfl⟩
  have sublist := @sublist_readBlocks committer (words request.startSeqNum last)
  refine ⟨?_, ?_, nodup_words.sublist sublist, ?_⟩
  · intro payload member
    rcases found payload member with ⟨above, below, block, held, _⟩
    refine ⟨above, UInt64.le_trans below within, ?_⟩
    apply UInt64.le_of_lt
    exact (committer.ledger.present _).mp (by rw [held]; rfl)
  · intro payload member
    exact (found payload member).2.2
  · have length := sublist.length_le
    rw [List.length_map, length_words] at length
    have limit := UInt64.le_iff_toNat_le.mp within
    have order := UInt64.le_iff_toNat_le.mp ordered
    have size := UInt64.le_iff_toNat_le.mp short
    rw [UInt64.toNat_sub_of_le _ _ ordered] at size
    omega

end

/-! ## The end of the range -/

section

variable {request : RemoteStateRequest} {height : UInt64}

theorem min_of_not_overruns (ordered : request.startSeqNum ≤ request.endSeqNum)
    (short : request.endSeqNum - request.startSeqNum ≤ defAntiEntropyBatchSize)
    (proper : ¬ Overruns request height) :
    min height request.endSeqNum ≠ maxWord ∧ min height request.endSeqNum ≤ request.endSeqNum := by
  have far : ¬ (request.endSeqNum = maxWord ∧ (height.toNat + 1 < 2 ^ 63 ∨ height = maxWord) ∨
        request.endSeqNum.toNat + 2 ^ 63 ≤ height.toNat) := by
    intro far
    exact proper ⟨ordered, short, far⟩
  simp only [← UInt64.toNat_inj, toNat_maxWord] at far
  have heightBound := height.toNat_lt
  have endBound := request.endSeqNum.toNat_lt
  rw [min_eq, ne_eq, ← UInt64.toNat_inj, UInt64.le_iff_toNat_le, toNat_maxWord]
  have sign := toNat_sub_lt_iff height request.endSeqNum
  split
  next small =>
    rw [sign] at small
    omega
  next large =>
    rw [sign] at large
    omega

theorem min_of_overruns (overruns : Overruns request height) :
    min height request.endSeqNum = maxWord ∨ min height request.endSeqNum = height ∧
        request.endSeqNum.toNat + 2 ^ 63 ≤ height.toNat := by
  have far := overruns.2.2
  simp only [← UInt64.toNat_inj, toNat_maxWord] at far
  have heightBound := height.toNat_lt
  have endBound := request.endSeqNum.toNat_lt
  rw [min_eq, ← UInt64.toNat_inj, toNat_maxWord]
  have sign := toNat_sub_lt_iff height request.endSeqNum
  split
  next small =>
    rw [sign] at small
    omega
  next large =>
    rw [sign] at large
    rcases far with ⟨_, _ | _⟩ | beyond
    · omega
    · omega
    · exact .inr ⟨rfl, beyond⟩

end

section

variable {committer : Committer} {chainID : Bytes} {fuel : Nat}
  {msg : StateMessage RemoteStateRequest} {height : UInt64}

section

variable (ordered : msg.content.startSeqNum ≤ msg.content.endSeqNum)
  (short : msg.content.endSeqNum - msg.content.startSeqNum ≤ defAntiEntropyBatchSize)
  (readable : committer.ledgerHeight = some height)
include ordered short readable

theorem handleStateRequest_eq :
    handleStateRequest committer chainID fuel msg = (forUpTo
        (fun seqNum payloads => payloads ++ readBlock committer seqNum)
        (min height msg.content.endSeqNum) fuel msg.content.startSeqNum
        []).map fun payloads => some ⟨msg.nonce, chainID, payloads⟩ := by
  rw [handleStateRequest]
  simp only [if_neg (UInt64.not_lt.mpr short), if_neg (UInt64.not_lt.mpr ordered), readable]
  cases forUpTo (fun seqNum payloads => payloads ++ readBlock committer seqNum)
      (min height msg.content.endSeqNum) fuel msg.content.startSeqNum [] with
  | none | some payloads => rfl

theorem handleStateRequest_eq_of_ne (bounded : min height msg.content.endSeqNum ≠ maxWord) :
    handleStateRequest committer chainID fuel msg =
      if (words msg.content.startSeqNum (min height msg.content.endSeqNum)).length < fuel then
        some (some ⟨msg.nonce, chainID, (words msg.content.startSeqNum
                (min height msg.content.endSeqNum)).flatMap
                (readBlock committer)⟩)
      else
        none := by
  rw [handleStateRequest_eq ordered short readable, forUpTo_eq bounded, List.flatMap_eq_foldl]
  split <;> rfl

end

theorem handleStateRequest_ignored (ignored : ¬ (msg.content.startSeqNum ≤ msg.content.endSeqNum ∧
        msg.content.endSeqNum - msg.content.startSeqNum ≤ defAntiEntropyBatchSize) ∨
        committer.ledgerHeight = none) :
    handleStateRequest committer chainID fuel msg = some none := by
  rw [handleStateRequest]
  rcases ignored with refused | unreadable
  · by_cases short : msg.content.endSeqNum - msg.content.startSeqNum ≤ defAntiEntropyBatchSize
    · have unordered : msg.content.endSeqNum < msg.content.startSeqNum :=
        UInt64.not_le.mp fun ordered => refused ⟨ordered, short⟩
      simp [unordered]
    · simp [UInt64.not_le.mp short]
  · simp [unreadable]

theorem not_bounded_of_beyond {request : RemoteStateRequest}
    (ordered : request.startSeqNum ≤ request.endSeqNum)
    (beyond : request.endSeqNum.toNat + 2 ^ 63 ≤ committer.ledger.height.toNat) :
    ¬ Bounded committer request ((words request.startSeqNum committer.ledger.height).flatMap
        (readBlock committer)) := by
  intro bounded
  have order := UInt64.le_iff_toNat_le.mp ordered
  have size := committer.ledger.height.toNat_lt
  have next : (request.endSeqNum + 1).toNat = request.endSeqNum.toNat + 1 := by
    rw [UInt64.toNat_add, UInt64.toNat_one]
    omega
  have below : request.endSeqNum + 1 < committer.ledger.height := by
    rw [UInt64.lt_iff_toNat_lt, next]
    omega
  have inside : request.endSeqNum + 1 ∈ words request.startSeqNum committer.ledger.height := by
    rw [mem_words_iff, UInt64.le_iff_toNat_le, next]
    exact ⟨Nat.le_succ_of_le order, UInt64.le_of_lt below⟩
  have smaller : request.endSeqNum + 1 ≠ maxWord := by
    rw [ne_eq, ← UInt64.toNat_inj, next, toNat_maxWord]
    omega
  rcases Option.isSome_iff_exists.mp ((committer.ledger.present _).mpr below) with ⟨block, held⟩
  rw [← retrieveBlockByNumber_of_ne smaller] at held
  have sent := List.mem_flatMap.mpr ⟨_, inside, mem_readBlock_iff.mpr ⟨block, held, rfl⟩⟩
  have within := (bounded.within _ sent).2.1
  rw [UInt64.le_iff_toNat_le, next] at within
  omega

end

/--
A request is ignored, or answered within its range, exactly if its numbers are
not too far from the height and the range does not end at the greatest number.
Otherwise it is never answered, or with blocks that were not asked for.
-/
theorem handleStateRequest_bounded_iff (committer : Committer) (chainID : Bytes)
    (msg : StateMessage RemoteStateRequest) :
    (∃ fuel answer, handleStateRequest committer chainID fuel msg = some answer ∧
        ∀ response ∈ answer, Bounded committer msg.content response.content) ↔
      ∀ height ∈ committer.ledgerHeight, ¬ Overruns msg.content height := by
  constructor
  · rintro ⟨fuel, answer, handled, bounded⟩ height readable overruns
    have same := committer.accurate height readable
    rcases min_of_overruns overruns with endless | ⟨ends, beyond⟩
    · rw [handleStateRequest_eq overruns.1 overruns.2.1 readable, endless,
        forUpTo_maxWord] at handled
      cases handled
    · by_cases greatest : height = maxWord
      · rw [handleStateRequest_eq overruns.1 overruns.2.1 readable, ends,
          greatest, forUpTo_maxWord] at handled
        cases handled
      · rw [handleStateRequest_eq_of_ne overruns.1 overruns.2.1 readable
          (by rwa [ends]), ends] at handled
        split at handled
        · cases handled
          rw [same] at beyond
          apply not_bounded_of_beyond overruns.1 beyond
          rw [← same]
          exact bounded _ rfl
        · cases handled
  · intro proper
    by_cases accepted : msg.content.startSeqNum ≤ msg.content.endSeqNum ∧
          msg.content.endSeqNum - msg.content.startSeqNum ≤ defAntiEntropyBatchSize
    · cases readable : committer.ledgerHeight with
      | none =>
        refine ⟨0, none, handleStateRequest_ignored (.inr readable), ?_⟩
        simp
      | some height =>
        rcases min_of_not_overruns accepted.1 accepted.2 (proper height readable) with
          ⟨ends, within⟩
        have answered := fun fuel =>
          @handleStateRequest_eq_of_ne committer chainID fuel msg height
            accepted.1 accepted.2 readable ends
        refine ⟨_, _, (answered _).trans (if_pos (Nat.lt_succ_self _)), ?_⟩
        rintro _ ⟨⟩
        exact bounded_of_le ends within accepted.1 accepted.2
    · refine ⟨0, none, handleStateRequest_ignored (.inl accepted), ?_⟩
      simp

namespace Sample

/-! A ledger with its first block alone. -/

def block : Block := ⟨some ⟨0, none, none⟩, some ⟨[]⟩, none⟩

def ledger : Ledger where
  height := 1
  blocks number := if number = 0 then some block else none
  present := by
    intro number
    have first : number = 0 ↔ number < 1 := by
      rw [← UInt64.toNat_inj, UInt64.lt_iff_toNat_lt]
      simp
    by_cases zero : number = 0
    · simp [zero]
    · simp [zero, ← first]

def committer : Committer where
  ledger := ledger
  ledgerHeight := some 1
  accurate := by simp [ledger]
  marshalBlock _ := some (field 1 [])

def request (startSeqNum endSeqNum : UInt64) : StateMessage RemoteStateRequest :=
  ⟨7, [99, 104], ⟨startSeqNum, endSeqNum⟩⟩

example :
    handleStateRequest committer [99, 104] 12 (request 0 10) =
      some (some ⟨7, [99, 104], [⟨0, some (field 1 [])⟩]⟩) := by
  decide +kernel

end Sample

/-- On a ledger of one block, a request for the greatest number never ends. -/
theorem handleStateRequest_diverges :
    Sample.committer.ledgerHeight = some 1 ∧ ∀ fuel,
        handleStateRequest Sample.committer [99, 104] fuel
          (Sample.request maxWord maxWord) = none := by
  have readable : Sample.committer.ledgerHeight = some 1 := rfl
  refine ⟨readable, ?_⟩
  intro fuel
  have endless : min 1 maxWord = maxWord := by decide
  rw [handleStateRequest_eq (by decide) (by decide) readable]
  change (forUpTo _ (min 1 maxWord) fuel maxWord []).map _ = none
  rw [endless, forUpTo_maxWord]
  rfl

end Fabric.Gossip.StateTransfer
