import Fabric.Ledger.CombinedIterator
import Fabric.Ledger.StateLevelDB

/-!
# The combined iterator over LevelDB

`CombinedIterator` merges a batch with the entries of a database.  Here the
database is LevelDB, whose scans and reads can fail and whose namespaces are
separated from keys by a zero byte.

The main result compares two ways of reading a range: through the iterator,
before the batch is committed, and by a scan, after it has been.  They agree for
namespaces that are not empty and contain no zero byte.
-/

namespace Fabric.Ledger.CombinedScan

open Library Outcome ByteString SeparatedKeys StateDB StateLevelDB CombinedIterator

variable {Reason : Type}

/-- The results of an iterator over the database of a channel. -/
def combinedResults (db : LevelDB.DB) (dbName : GoString) (updates : UpdateBatch)
    (ns startKey endKey : GoString) (includeEndKey : Bool) :
    Outcome Reason (List VersionedKV) :=
  CombinedIterator.combinedResults (StateLevelDB.getState db dbName)
    (StateLevelDB.getStateRangeScanIterator db dbName) updates ns startKey endKey includeEndKey

/-! ## Before and after the commit -/

/-- A scan after the commit, followed by the end key if it is to be included. -/
def scanAfterCommit (db : LevelDB.DB) (commit : Commit) (ns startKey endKey : GoString)
    (includeEndKey : Bool) :
    Outcome Reason (List VersionedKV) := do
  let later ← commit.apply db
  let scanned ← StateLevelDB.getStateRangeScanIterator later commit.dbName ns startKey endKey
  if includeEndKey then do
    let last ← StateLevelDB.getState later commit.dbName ns endKey
    .ok (scanned ++ (last.map fun value => (endKey, value)).toList)
  else
    .ok scanned

section

variable {db : LevelDB.DB} {channel : Channel} {commit : Commit} {ns : GoString}

theorem scanAfterCommit_eq (holds : Holds db commit.dbName channel)
    (wellFormed : commit.WellFormed) (namespaced : IsNamespace ns)
    (startKey endKey : GoString) (includeEndKey : Bool) :
    (scanAfterCommit db commit ns startKey endKey includeEndKey : Outcome Reason _) =
      .ok (closedRange (channel.state.applyUpdates commit.batch) ns startKey endKey includeEndKey) := by
  have later := holds.commit wellFormed.dbName wellFormed
  rw [Channel.commit, if_pos rfl] at later
  rw [scanAfterCommit, Commit.apply_eq, ok_bind,
    later.rangeScan_eq wellFormed.dbName namespaced, ok_bind, closedRange]
  cases includeEndKey with
  | false => simp
  | true => rw [if_pos rfl, later.getState_eq namespaced, ok_bind, if_pos rfl]

theorem closedRange_sortedByKey (state : VersionedDB) (startKey : GoString) {endKey : GoString}
    {includeEndKey : Bool} (bounded : includeEndKey → endKey ≠ .empty) :
    OrderedStore.SortedByKey (closedRange state ns startKey endKey includeEndKey) := by
  have sorted := state.rangeScan_sortedByKey ns startKey endKey
  rw [closedRange]
  cases includeEndKey with
  | false => simpa using sorted
  | true =>
    apply List.pairwise_append.mpr
    refine ⟨sorted, ?_, ?_⟩
    · cases state.getState ns endKey <;> simp
    · intro _ member last served
      rw [VersionedDB.mem_rangeScan_iff] at member
      have atEnd : last.1 = endKey := by
        rw [if_pos rfl, Option.mem_toList, Option.map_eq_some_iff] at served
        rcases served with ⟨_, _, rfl⟩
        rfl
      rw [atEnd]
      exact member.2.2.resolve_left (bounded rfl)

/--
For namespaces without zero bytes, the combined iterator returns what a scan
returns once the batch is committed.  Its keys are increasing, and a key of the
batch has the value and version of the batch.
-/
theorem combined_results_eq_scan_after_commit (holds : Holds db commit.dbName channel)
    (wellFormed : commit.WellFormed) (namespaced : IsNamespace ns)
    (startKey endKey : GoString) (includeEndKey : Bool) :
    ∃ results : List VersionedKV,
      (combinedResults db commit.dbName commit.batch ns startKey endKey
          includeEndKey : Outcome Reason _) = .ok results ∧
        (scanAfterCommit db commit ns startKey endKey includeEndKey :
          Outcome Reason _) = .ok results ∧
        ((includeEndKey → endKey ≠ .empty) → OrderedStore.SortedByKey results) ∧
        ∀ entry ∈ results, ∀ update, commit.batch.get ns entry.1 = some update →
            update.stored = some entry.2 := by
  refine ⟨_, ?_, scanAfterCommit_eq holds wellFormed namespaced startKey endKey includeEndKey,
      closedRange_sortedByKey _ startKey, ?_⟩
  · exact combinedResults_eq (holds.getState_eq namespaced endKey)
      (holds.rangeScan_eq wellFormed.dbName namespaced startKey endKey) _ _
  intro entry member update updated
  have found := (mem_closedRange_iff.mp member).1
  rwa [VersionedDB.getState_applyUpdates, updated] at found

end

namespace Sample

open StateLevelDB.Sample

def update (ns : GoString) (key : Char) (value : Slice) (blockNum : UInt64) : Update :=
  ⟨ns, .letter key, ⟨value, ⟨blockNum, 0⟩⟩⟩

/-- Three keys of a namespace. -/
def first : Commit :=
  .of dbName [update ns 'a' (some [1]) 1, update ns 'b' (some [2]) 1, update ns 'd' (some [4]) 1]
    ⟨1, 0⟩

/-- One of the keys is written again, one is deleted, and one is new. -/
def second : Commit :=
  .of dbName [update ns 'a' (some [5]) 2, update ns 'b' none 2, update ns 'c' (some [6]) 2] ⟨2, 0⟩

def single (dbName ns key : GoString) : Commit :=
  .of dbName [⟨ns, key, ⟨some [7], ⟨1, 0⟩⟩⟩] ⟨1, 0⟩

def stored : StoredValue := ⟨[7], ⟨1, 0⟩⟩

end Sample

/-- A batch that overrides and deletes keys, and a range that ends at a stored key. -/
theorem combined_results_eq_scan_after_commit_sample :
    ∃ results : List VersionedKV,
      (combinedResults (LevelDB.writeBatch ∅ StateLevelDB.Sample.dbName Sample.first.dbBatch)
          StateLevelDB.Sample.dbName Sample.second.batch StateLevelDB.Sample.ns
          .empty (.letter 'd') true : Outcome Unit _) = .ok results ∧
        results = [(.letter 'a', ⟨[5], ⟨2, 0⟩⟩), (.letter 'c', ⟨[6], ⟨2, 0⟩⟩),
          (.letter 'd', ⟨[4], ⟨1, 0⟩⟩)] ∧
        OrderedStore.SortedByKey results := by
  have free : NulFree StateLevelDB.Sample.dbName.bytes := by decide
  have namespaced : IsNamespace StateLevelDB.Sample.ns := ⟨by decide, by decide⟩
  have firstWellFormed : Sample.first.WellFormed :=
    Commit.wellFormed_of free (by simp [Sample.update, namespaced]) (by decide) _
  have secondWellFormed : Sample.second.WellFormed :=
    Commit.wellFormed_of free (by simp [Sample.update, namespaced]) (by decide) _
  have holds := (holds_empty StateLevelDB.Sample.dbName).commit free firstWellFormed
  rcases @combined_results_eq_scan_after_commit Unit _ _ Sample.second _ holds secondWellFormed
      namespaced .empty (.letter 'd') true with
    ⟨results, combined, _, sorted, _⟩
  refine ⟨results, combined, ?_, sorted fun _ => by decide⟩
  have computed : (combinedResults (LevelDB.writeBatch ∅ StateLevelDB.Sample.dbName
          Sample.first.dbBatch) StateLevelDB.Sample.dbName Sample.second.batch
          StateLevelDB.Sample.ns .empty (.letter 'd') true : Outcome Unit _) =
        .ok [(.letter 'a', ⟨[5], ⟨2, 0⟩⟩), (.letter 'c', ⟨[6], ⟨2, 0⟩⟩),
          (.letter 'd', ⟨[4], ⟨1, 0⟩⟩)] := by
    decide +kernel
  exact Outcome.ok.inj (combined.symm.trans computed)

/--
A zero byte in the name of the namespace, in that of another namespace of the
batch or in that of the channel shows in the keys of the scan; in the namespace
without a name the scan finds the savepoint.
-/
theorem scan_after_commit_differs : let a : GoString := .letter 'a'
    let c : GoString := .letter 'c'
    let nul : GoString := ⟨[97, 0, 98]⟩
    let shifted : GoString := ⟨[98, 0, 99]⟩
    let empty : GoString := .empty
    ((combinedResults ∅ a (Sample.single a nul c).batch nul empty empty false :
          Outcome Unit _) = .ok [(c, Sample.stored)] ∧
        (scanAfterCommit ∅ (Sample.single a nul c) nul empty empty false :
          Outcome Unit _) = .ok [(shifted, Sample.stored)]) ∧
      ((combinedResults ∅ a (Sample.single a nul c).batch a empty empty false :
          Outcome Unit _) = .ok [] ∧
        (scanAfterCommit ∅ (Sample.single a nul c) a empty empty false :
          Outcome Unit _) = .ok [(shifted, Sample.stored)]) ∧
      ((combinedResults ∅ a (Sample.single a empty c).batch empty empty empty
            false : Outcome Unit _) = .ok [(c, Sample.stored)] ∧
        (scanAfterCommit ∅ (Sample.single a empty c) empty empty empty false :
          Outcome Unit _) = .ok [(empty, ⟨[], ⟨1, 0⟩⟩), (c, Sample.stored)]) ∧
      (combinedResults ∅ nul (Sample.single nul a c).batch a empty empty false :
          Outcome Unit _) = .ok [(c, Sample.stored)] ∧
        (scanAfterCommit ∅ (Sample.single nul a c) a empty empty false :
          Outcome Unit _) ≠ .ok [(c, Sample.stored)] := by
  decide +kernel

end Fabric.Ledger.CombinedScan
