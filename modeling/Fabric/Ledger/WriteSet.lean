import Fabric.Ledger.Serializability

/-!
# The effect of a write set

A write set may have several entries for one namespace and several writes to
one key.  The committer walks through all of them in order, so the last write
to a key decides; a write that carries neither a value nor the deletion mark
makes the committer panic.
-/

namespace Fabric.Ledger.WriteSet

open Library ByteString Protos StateDB RWSet StateValidator Serializability

def allWrites (txRWSet : TxRwSet) : List (GoString × KVWrite) :=
  txRWSet.nsRwSets.flatMap fun nsRWSet =>
    nsRWSet.kvRwSet.writes.map fun kvWrite => (nsRWSet.nameSpace, kvWrite)

variable {txRWSet : TxRwSet} {kvWrite : KVWrite}

theorem mem_allWrites_iff {ns : GoString} :
    (ns, kvWrite) ∈ allWrites txRWSet ↔ ∃ nsRWSet ∈ txRWSet.nsRwSets,
        nsRWSet.nameSpace = ns ∧ kvWrite ∈ nsRWSet.kvRwSet.writes := by
  simp only [allWrites, List.mem_flatMap, List.mem_map, Prod.mk.injEq]
  constructor
  · rintro ⟨nsRWSet, member, _, write, same, rfl⟩
    exact ⟨nsRWSet, member, same, write⟩
  · rintro ⟨nsRWSet, member, same, write⟩
    exact ⟨nsRWSet, member, kvWrite, write, same, rfl⟩

/-- The write that decides about a key. -/
def lastWrite (txRWSet : TxRwSet) (ns key : GoString) : Option KVWrite :=
  (((allWrites txRWSet).filter fun located =>
    located.1 = ns ∧ located.2.key = key).getLast?).map Prod.snd

def written (txHeight : Height) (kvWrite : KVWrite) : Option StoredValue :=
  if kvWrite.isDelete then none else some ⟨kvWrite.value.bytes, txHeight⟩

theorem lastWrite_mem {ns key : GoString} (last : lastWrite txRWSet ns key = some kvWrite) :
    (ns, kvWrite) ∈ allWrites txRWSet ∧ kvWrite.key = key := by
  rcases Option.map_eq_some_iff.mp last with ⟨⟨_, _⟩, found, rfl⟩
  have member := List.mem_of_getLast? found
  simp only [List.mem_filter, decide_eq_true_eq] at member
  rcases member with ⟨member, rfl, sameKey⟩
  exact ⟨member, sameKey⟩

theorem lastWrite_eq_none_iff {ns key : GoString} :
    lastWrite txRWSet ns key = none ↔
      ∀ kvWrite, (ns, kvWrite) ∈ allWrites txRWSet → kvWrite.key ≠ key := by
  simp only [lastWrite, Option.map_eq_none_iff, List.getLast?_eq_none_iff,
    List.filter_eq_nil_iff, decide_eq_true_eq]
  constructor
  · intro none kvWrite member sameKey
    exact none (ns, kvWrite) member ⟨rfl, sameKey⟩
  · rintro none ⟨_, kvWrite⟩ member ⟨rfl, sameKey⟩
    exact none kvWrite member sameKey

/-! ## The state after a write set -/

private theorem applyWriteSet_eq_foldl (txRWSet : TxRwSet) (txHeight : Height) (db : VersionedDB) :
    applyWriteSet txRWSet txHeight db = (allWrites txRWSet).foldl
        (fun db located => applyWrite located.1 txHeight db located.2) db := by
  simp only [applyWriteSet, allWrites, List.foldl_flatMap, List.foldl_map]

private theorem getState_foldl_applyWrite (txHeight : Height) (db : VersionedDB) (ns key : GoString)
    (writes : List (GoString × KVWrite)) :
    (writes.foldl (fun db located => applyWrite located.1 txHeight db located.2)
        db).getState ns key =
      (((writes.filter fun located =>
          located.1 = ns ∧ located.2.key = key).getLast?).map
        fun located => written txHeight located.2).getD
        (db.getState ns key) := by
  -- The last write is split off: it decides, or the earlier ones do.
  induction writes using List.reverseRecOn with
  | nil => rfl
  | append_singleton earlier last ih =>
    rw [List.foldl_append, List.foldl_cons, List.foldl_nil, getState_applyWrite, List.filter_append]
    by_cases decides : last.1 = ns ∧ last.2.key = key
    · simp [decides, written]
    · rw [if_neg decides, ih]
      simp [decides]

theorem getState_applyWriteSet (txRWSet : TxRwSet) (txHeight : Height) (db : VersionedDB)
    (ns key : GoString) : (applyWriteSet txRWSet txHeight db).getState ns key =
      ((lastWrite txRWSet ns key).map (written txHeight)).getD (db.getState ns key) := by
  rw [applyWriteSet_eq_foldl, getState_foldl_applyWrite, lastWrite, Option.map_map]
  rfl

/-! ## When the committer panics -/

/-- Every write that is not a deletion carries a value. -/
def PutsValues (txRWSet : TxRwSet) : Prop :=
  ∀ located ∈ allWrites txRWSet, located.2.isDelete = false → located.2.value ≠ none

variable {batch : UpdateBatch} {txHeight : Height}

private theorem addWriteToBatch_ok_iff {ns : GoString} :
    (∃ later, addWriteToBatch ns txHeight batch kvWrite = .ok later) ↔
      (kvWrite.isDelete = false → kvWrite.value ≠ none) := by
  cases deleted : kvWrite.isDelete with
  | true => simp [addWriteToBatch, deleted]
  | false => cases value : kvWrite.value <;> simp [addWriteToBatch, deleted, value, UpdateBatch.put]

private theorem foldlM_addWriteToBatch_ok_iff {writes : List (GoString × KVWrite)} :
    (∃ later, writes.foldlM (fun batch located =>
            addWriteToBatch located.1 txHeight batch located.2)
          batch = .ok later) ↔
      ∀ located ∈ writes, located.2.isDelete = false → located.2.value ≠ none := by
  induction writes generalizing batch with
  | nil => simp
  | cons located writes ih =>
    rw [List.forall_mem_cons, ← addWriteToBatch_ok_iff]
    simp only [List.foldlM_cons, Outcome.bind_ok_iff]
    constructor
    · rintro ⟨later, middle, first, rest⟩
      exact ⟨⟨middle, first⟩, ih.mp ⟨later, rest⟩⟩
    · rintro ⟨⟨middle, first⟩, rest⟩
      rcases ih.mpr rest with ⟨later, rest⟩
      exact ⟨later, middle, first, rest⟩

private theorem addWriteSetToBatch_eq_foldlM
    (nsRwSets : List NsRwSet) (txHeight : Height) (batch : UpdateBatch) :
    addWriteSetToBatch ⟨nsRwSets⟩ txHeight batch = (allWrites ⟨nsRwSets⟩).foldlM
        (fun batch located => addWriteToBatch located.1 txHeight batch located.2)
        batch := by
  induction nsRwSets generalizing batch with
  | nil => rfl
  | cons _ nsRwSets ih =>
    simp only [addWriteSetToBatch, allWrites, List.flatMap_cons,
      List.foldlM_append, List.foldlM_cons, List.foldlM_map] at ih ⊢
    exact bind_congr fun later => ih later

theorem addWriteSetToBatch_ok_iff :
    (∃ later, addWriteSetToBatch txRWSet txHeight batch = .ok later) ↔ PutsValues txRWSet := by
  rw [addWriteSetToBatch_eq_foldlM]
  exact foldlM_addWriteToBatch_ok_iff

end Fabric.Ledger.WriteSet
