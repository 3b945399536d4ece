import Fabric.Library.Iterator
import Fabric.Library.OrderedStore
import Fabric.Library.Outcome

/-!
# The versioned state database and its update batches

The state database maps a namespace and a key to a value and the height of
the transaction that wrote it.  A block is committed as one `UpdateBatch`,
which the validator fills transaction by transaction and which it also
consults while validating the later transactions of the same block.

`VersionedDB` is the interface that the ledger code is written against: reads
by key, scans of one namespace in key order, and the atomic application of a
batch.  A value stored in the database is never nil, so the database holds
`StoredValue`; a batch holds `VersionedValue`, whose nil value is a deletion.
-/

namespace Fabric.Ledger.StateDB

open Library ByteString
open Library.OrderedStore (SortedByKey scan)
open Std (ExtTreeMap)

/-! ## Transaction heights -/

/-- The height of a transaction: its block and its position in the block. -/
structure Height where
  blockNum : UInt64
  txNum : UInt64
deriving DecidableEq

namespace Height

/-- The sign given to a difference of two unequal 64-bit numbers. -/
def signOfDifference (left right : UInt64) : Int :=
  if 0 < (left - right).toInt64.toInt then 1 else -1

/-- Orders heights by block, then transaction. -/
def compare (height other : Height) : Int :=
  if height.blockNum ≠ other.blockNum then
    signOfDifference height.blockNum other.blockNum
  else if height.txNum ≠ other.txNum then signOfDifference height.txNum other.txNum
  else 0

/-- Both heights are absent, or both are present and compare as equal. -/
def areSame : Option Height → Option Height → Bool
  | none, other => other.isNone
  | some _, none => false
  | some height, some other => height.compare other == 0

theorem signOfDifference_ne_zero (left right : UInt64) : signOfDifference left right ≠ 0 := by
  unfold signOfDifference
  split <;> decide

theorem compare_eq_zero_iff (height other : Height) :
    height.compare other = 0 ↔ height = other := by
  constructor
  · intro equal
    unfold compare at equal
    split_ifs at equal with blocks transactions
    · exact absurd equal (signOfDifference_ne_zero _ _)
    · exact absurd equal (signOfDifference_ne_zero _ _)
    · cases height
      cases other
      simp_all
  · rintro rfl
    simp [compare]

/-- Despite the wrapping subtraction, `areSame` decides equality. -/
@[simp]
theorem areSame_iff (height other : Option Height) :
    areSame height other = true ↔ height = other := by
  cases height with
  | none => cases other <;> simp [areSame]
  | some height =>
    cases other with
    | none => simp [areSame]
    | some other => simp [areSame, compare_eq_zero_iff]

end Height

/-! ## Values -/

/-- A value of an update batch; a nil value marks a deletion. -/
structure VersionedValue where
  value : Slice
  version : Height
deriving DecidableEq

/-- A value and the height of the transaction that wrote it. -/
structure StoredValue where
  value : Bytes
  version : Height
deriving DecidableEq

/-- A key of a namespace with its value. -/
abbrev VersionedKV := GoString × StoredValue

/-- What a batch entry leaves in the database. -/
def VersionedValue.stored (entry : VersionedValue) : Option StoredValue :=
  entry.value.map fun value => ⟨value, entry.version⟩

/-! ## Update batches -/

abbrev NsUpdates := ExtTreeMap GoString VersionedValue

/-- The updates that a block makes, by namespace. -/
structure UpdateBatch where
  updates : ExtTreeMap GoString NsUpdates

namespace UpdateBatch

def new : UpdateBatch := ⟨∅⟩

section

variable (batch : UpdateBatch)

/-- The updates of a namespace; nil and empty maps read alike. -/
def getUpdates (ns : GoString) : NsUpdates :=
  batch.updates[ns]?.getD ∅

def get (ns key : GoString) : Option VersionedValue := (batch.getUpdates ns)[key]?

/-- Whether the batch writes or deletes a key. -/
def contains (ns key : GoString) : Bool := (batch.get ns key).isSome

/-- Records an entry. -/
def set (ns key : GoString) (entry : VersionedValue) : UpdateBatch :=
  ⟨batch.updates.insert ns ((batch.getUpdates ns).insert key entry)⟩

end

/-- Add a value.  A nil value is a programming error and panics. -/
def put {Reason : Type} (batch : UpdateBatch) (ns key : GoString)
    (value : Slice) (version : Height) :
    Outcome Reason UpdateBatch :=
  match value with
  | none => .panic
  | some content => .ok (batch.set ns key ⟨some content, version⟩)

/-- Records a deletion. -/
def delete (batch : UpdateBatch) (ns key : GoString) (version : Height) : UpdateBatch :=
  batch.set ns key ⟨none, version⟩

@[simp]
theorem getUpdates_new (ns : GoString) : UpdateBatch.new.getUpdates ns = ∅ := by
  simp [UpdateBatch.new, getUpdates]

@[simp]
theorem get_new (ns key : GoString) : UpdateBatch.new.get ns key = none := by
  simp [get]

theorem get_set (batch : UpdateBatch) (ns key otherNs otherKey : GoString)
    (entry : VersionedValue) : (batch.set ns key entry).get otherNs otherKey =
      if ns = otherNs ∧ key = otherKey then some entry
      else batch.get otherNs otherKey := by
  by_cases sameNs : ns = otherNs
  · subst sameNs
    simp [get, set, getUpdates, ExtTreeMap.getElem?_insert]
  · simp [get, set, getUpdates, ExtTreeMap.getElem?_insert, sameNs]

end UpdateBatch

/-! ## Key ranges and scans of a batch -/

/--
Membership in the range of a scan: the start key is included, the end key is
not, and an empty end key stands for no bound at all.
-/
def inRange (startKey endKey key : GoString) : Bool :=
  decide (startKey ≤ key) && (decide (endKey = .empty) || decide (key < endKey))

/-- The least index of a sorted list whose element is not below the target. -/
def searchStrings (keys : List GoString) (target : GoString) : Nat :=
  keys.findIdx fun key => decide (target ≤ key)

/-- A scan of one namespace. -/
structure NsIterator where
  nsUpdates : NsUpdates
  sortedKeys : List GoString
  nextIndex : Nat
  lastIndex : Nat

namespace NsIterator

/-- Position an iterator on a key range of a namespace of a batch. -/
def new (ns startKey endKey : GoString) (batch : UpdateBatch) : NsIterator :=
  match batch.updates[ns]? with
  | none => ⟨∅, [], 0, 0⟩
  | some nsUpdates =>
    let sortedKeys := nsUpdates.keys
    let nextIndex := if startKey = .empty then 0
      else searchStrings sortedKeys startKey
    let lastIndex := if endKey = .empty then sortedKeys.length
      else searchStrings sortedKeys endKey
    ⟨nsUpdates, sortedKeys, nextIndex, lastIndex⟩

/-- The next update in key order. -/
def next (itr : NsIterator) : Option (GoString × VersionedValue) × NsIterator :=
  if itr.lastIndex ≤ itr.nextIndex then
    (none, itr)
  else
    let found := itr.sortedKeys[itr.nextIndex]?.bind fun key =>
        itr.nsUpdates[key]?.map fun entry => (key, entry)
    (found, { itr with nextIndex := itr.nextIndex + 1 })

def results (itr : NsIterator) : List (GoString × VersionedValue) :=
  Iterator.drain next (itr.lastIndex - itr.nextIndex) itr

/-- The keys of the iterator's window, with their entries. -/
private def window (itr : NsIterator) : List (GoString × VersionedValue) :=
  ((itr.sortedKeys.take itr.lastIndex).drop itr.nextIndex).filterMap
    fun key => itr.nsUpdates[key]?.map fun entry => (key, entry)

/-- Every key the iterator knows about has an entry. -/
private def Backed (itr : NsIterator) : Prop :=
  itr.lastIndex ≤ itr.sortedKeys.length ∧
    ∀ key ∈ itr.sortedKeys, ∃ entry, itr.nsUpdates[key]? = some entry

private theorem next_enumerates : Iterator.Enumerates next Backed window := by
  have exhausted (itr : NsIterator) (done : itr.lastIndex ≤ itr.nextIndex) : window itr = [] := by
    have beyond : (itr.sortedKeys.take itr.lastIndex).drop itr.nextIndex = [] := by
      refine List.drop_of_length_le ?_
      exact (List.length_take_le _ _).trans done
    simp [window, beyond]
  have head (itr : NsIterator) (backed : Backed itr) (running : ¬ itr.lastIndex ≤ itr.nextIndex) :
      ∃ key entry, itr.sortedKeys[itr.nextIndex]? = some key ∧ itr.nsUpdates[key]? = some entry ∧
          window itr = (key, entry) :: window { itr with nextIndex := itr.nextIndex + 1 } := by
    have bound : itr.nextIndex < itr.sortedKeys.length := by
      have := backed.1
      omega
    obtain ⟨entry, found⟩ := backed.2 (itr.sortedKeys[itr.nextIndex]) (List.getElem_mem bound)
    refine ⟨itr.sortedKeys[itr.nextIndex], entry, List.getElem?_eq_getElem bound, found, ?_⟩
    have inside : itr.nextIndex < (itr.sortedKeys.take itr.lastIndex).length := by
      rw [List.length_take]
      omega
    simp only [window]
    rw [List.drop_eq_getElem_cons inside, List.getElem_take,
      List.filterMap_cons_some (by rw [found]; rfl)]
  refine ⟨?_, ?_, ?_⟩
  · intro itr backed
    by_cases done : itr.lastIndex ≤ itr.nextIndex
    · simp [next, done, exhausted itr done]
    · obtain ⟨key, entry, atIndex, found, split⟩ := head itr backed done
      simp [next, done, atIndex, found, split]
  · intro itr backed
    by_cases done : itr.lastIndex ≤ itr.nextIndex
    · simpa [next, done] using backed
    · simpa [next, done, Backed] using backed
  · intro itr backed
    by_cases done : itr.lastIndex ≤ itr.nextIndex
    · simp [next, done, exhausted itr done]
    · obtain ⟨key, entry, atIndex, found, split⟩ := head itr backed done
      simp [next, done, split]

end NsIterator

/-! The two binary searches cut the range out of the sorted entries. -/

private theorem drop_searchStrings {entries : List (GoString × VersionedValue)}
    (sorted : SortedByKey entries) (target : GoString) (count : Nat) : (entries.take count).drop
        (searchStrings (entries.map Prod.fst) target) =
      (entries.take count).filter fun entry => decide (target ≤ entry.1) := by
  induction entries generalizing count with
  | nil => simp
  | cons head tail ih =>
    by_cases reached : target ≤ head.1
    · have allReached : ((head :: tail).take count).filter
              (fun entry => decide (target ≤ entry.1)) =
            (head :: tail).take count := by
        rw [List.filter_eq_self]
        intro entry member
        rcases List.mem_cons.mp (List.mem_of_mem_take member) with
          equal | later
        · simpa [equal] using reached
        · simpa using reached.trans (sorted.head_lt later).le
      rw [allReached]
      simp [searchStrings, List.findIdx_cons, reached]
    · cases count with
      | zero => simp
      | succ count => simpa [searchStrings, List.findIdx_cons, reached] using ih sorted.tail count

private theorem take_searchStrings {entries : List (GoString × VersionedValue)}
    (sorted : SortedByKey entries) (target : GoString) :
    entries.take (searchStrings (entries.map Prod.fst) target) =
      entries.filter fun entry => decide (entry.1 < target) := by
  induction entries with
  | nil => rfl
  | cons head tail ih =>
    by_cases reached : target ≤ head.1
    · have noneBelow : (head :: tail).filter (fun entry => decide (entry.1 < target)) = [] := by
        rw [List.filter_eq_nil_iff]
        intro entry member
        rcases List.mem_cons.mp member with equal | later
        · simpa [equal] using reached
        · simpa using reached.trans (sorted.head_lt later).le
      rw [noneBelow]
      simp [searchStrings, List.findIdx_cons, reached]
    · simpa [searchStrings, List.findIdx_cons, reached, not_le.mp reached] using ih sorted.tail

private theorem filterMap_lookup (nsUpdates : NsUpdates)
    (entries : List (GoString × VersionedValue))
    (known : ∀ entry ∈ entries, entry ∈ nsUpdates.toList) : (entries.map Prod.fst).filterMap
        (fun key => nsUpdates[key]?.map fun entry => (key, entry)) =
      entries := by
  induction entries with
  | nil => rfl
  | cons head tail ih =>
    have found : nsUpdates[head.1]? = some head.2 :=
      ExtTreeMap.mem_toList_iff_getElem?_eq_some.mp (known head (by simp))
    have tailKnown : ∀ entry ∈ tail, entry ∈ nsUpdates.toList :=
      fun entry member => known entry (List.mem_cons_of_mem head member)
    rw [List.map_cons, List.filterMap_cons_some (by rw [found]; rfl), ih tailKnown]

private theorem window_eq_scan (nsUpdates : NsUpdates) (startKey endKey : GoString) :
    (nsUpdates.toList.take (if endKey = .empty then nsUpdates.toList.length
          else searchStrings (nsUpdates.toList.map Prod.fst) endKey)).drop
        (if startKey = .empty then 0 else searchStrings (nsUpdates.toList.map Prod.fst) startKey) =
      scan (inRange startKey endKey) nsUpdates := by
  have sorted := OrderedStore.toList_sortedByKey nsUpdates
  have fromStart (count : Nat) : (nsUpdates.toList.take count).drop (if startKey = .empty then 0
            else searchStrings (nsUpdates.toList.map Prod.fst) startKey) =
        (nsUpdates.toList.take count).filter fun entry => decide (startKey ≤ entry.1) := by
    split_ifs with unbounded
    · simp [unbounded, GoString.empty_le]
    · exact drop_searchStrings sorted startKey count
  have toEnd : nsUpdates.toList.take (if endKey = .empty then nsUpdates.toList.length
            else searchStrings (nsUpdates.toList.map Prod.fst) endKey) =
        nsUpdates.toList.filter fun entry =>
          decide (endKey = .empty) || decide (entry.1 < endKey) := by
    split_ifs with unbounded
    · rw [List.take_length]
      simp [unbounded]
    · simpa [unbounded] using take_searchStrings sorted endKey
  rw [fromStart, toEnd, List.filter_filter]
  rfl

theorem NsIterator.results_new (ns startKey endKey : GoString) (batch : UpdateBatch) :
    (NsIterator.new ns startKey endKey batch).results =
      scan (inRange startKey endKey) (batch.getUpdates ns) := by
  cases found : batch.updates[ns]? with
  | none =>
    simp [NsIterator.new, found, NsIterator.results, Iterator.drain, UpdateBatch.getUpdates, scan]
  | some nsUpdates =>
    have keysEq : nsUpdates.keys = nsUpdates.toList.map Prod.fst :=
      ExtTreeMap.map_fst_toList_eq_keys.symm
    have backed : NsIterator.Backed (.new ns startKey endKey batch) := by
      simp only [NsIterator.new, found, NsIterator.Backed]
      refine ⟨?_, ?_⟩
      · split_ifs
        · exact le_rfl
        · exact List.findIdx_le_length
      · intro _ member
        exact ⟨_, ExtTreeMap.getElem?_eq_some_getElem (ExtTreeMap.mem_keys.mp member)⟩
    have windowEq : NsIterator.window (.new ns startKey endKey batch) =
          scan (inRange startKey endKey) nsUpdates := by
      rw [← window_eq_scan nsUpdates startKey endKey]
      simp only [NsIterator.new, found, NsIterator.window, keysEq,
        ← List.map_take, ← List.map_drop, List.length_map]
      refine filterMap_lookup nsUpdates _ ?_
      intro _ member
      exact List.mem_of_mem_take (List.mem_of_mem_drop member)
    have enough : (NsIterator.window (.new ns startKey endKey batch)).length ≤
          (NsIterator.new ns startKey endKey batch).lastIndex -
            (NsIterator.new ns startKey endKey batch).nextIndex := by
      refine (List.length_filterMap_le _ _).trans ?_
      rw [List.length_drop, List.length_take]
      omega
    rw [NsIterator.results, NsIterator.next_enumerates.drain_eq _ _ backed enough, windowEq]
    simp [UpdateBatch.getUpdates, found]

/-! ## The database -/

/-- The committed state: for each namespace, its keys and values. -/
structure VersionedDB where
  namespaces : GoString → ExtTreeMap GoString StoredValue

namespace VersionedDB

def empty : VersionedDB := ⟨fun _ => ∅⟩

/-- Reads a key. -/
def getState (db : VersionedDB) (ns key : GoString) : Option StoredValue := (db.namespaces ns)[key]?

/-- The results of a range scan iterator, in the order it returns them. -/
def getStateRangeScanIterator (db : VersionedDB) (ns startKey endKey : GoString) :
    List VersionedKV :=
  scan (inRange startKey endKey) (db.namespaces ns)

/-- Applies a batch. -/
def applyUpdates (db : VersionedDB) (batch : UpdateBatch) : VersionedDB :=
  ⟨fun ns =>
    OrderedStore.applyUpdates (db.namespaces ns)
      ((batch.getUpdates ns).map fun _ entry => entry.stored)⟩

@[simp]
theorem getState_empty (ns key : GoString) : empty.getState ns key = none := by
  simp [empty, getState]

/-- Reading the committed batch consults the batch first. -/
theorem getState_applyUpdates (db : VersionedDB) (batch : UpdateBatch) (ns key : GoString) :
    (db.applyUpdates batch).getState ns key = ((batch.get ns key).map VersionedValue.stored).getD
        (db.getState ns key) := by
  simp [applyUpdates, getState, UpdateBatch.get, OrderedStore.getElem?_applyUpdates]

@[simp]
theorem getState_applyUpdates_new (db : VersionedDB) (ns key : GoString) :
    (db.applyUpdates .new).getState ns key = db.getState ns key := by
  simp [getState_applyUpdates]

theorem ext_getState {left right : VersionedDB}
    (agree : ∀ ns key, left.getState ns key = right.getState ns key) :
    left = right := by
  obtain ⟨left⟩ := left
  obtain ⟨right⟩ := right
  congr 1
  funext ns
  exact ExtTreeMap.ext_getElem? fun {key} => agree ns key

@[simp]
theorem applyUpdates_new (db : VersionedDB) : db.applyUpdates .new = db :=
  ext_getState (getState_applyUpdates_new db)

theorem mem_rangeScan_iff (db : VersionedDB) (ns startKey endKey : GoString)
    (entry : VersionedKV) :
    entry ∈ db.getStateRangeScanIterator ns startKey endKey ↔
      db.getState ns entry.1 = some entry.2 ∧ startKey ≤ entry.1 ∧
        (endKey = .empty ∨ entry.1 < endKey) := by
  obtain ⟨_, _⟩ := entry
  simp [getStateRangeScanIterator, getState, inRange]

theorem rangeScan_sortedByKey (db : VersionedDB) (ns startKey endKey : GoString) :
    SortedByKey (db.getStateRangeScanIterator ns startKey endKey) :=
  OrderedStore.scan_sortedByKey _ _

end VersionedDB

/-! ## Readers -/

/-- The reads of a state database, however it stores the state. -/
structure StateReader where
  getState : GoString → GoString → Option StoredValue
  getStateRangeScanIterator : GoString → GoString → GoString → List VersionedKV

/-- The reads of a database that is the state itself. -/
def VersionedDB.reader (db : VersionedDB) : StateReader :=
  ⟨db.getState, db.getStateRangeScanIterator⟩

instance VersionedDB.coeReader : Coe VersionedDB StateReader := ⟨VersionedDB.reader⟩

@[simp]
theorem VersionedDB.getState_reader (db : VersionedDB) : db.reader.getState = db.getState :=
  rfl

@[simp]
theorem VersionedDB.rangeScan_reader (db : VersionedDB) :
    db.reader.getStateRangeScanIterator = db.getStateRangeScanIterator :=
  rfl

end Fabric.Ledger.StateDB
