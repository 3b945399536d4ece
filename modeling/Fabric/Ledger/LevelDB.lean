import Fabric.Library.OrderedStore
import Fabric.Library.Outcome
import Fabric.Library.SeparatedKeys

/-!
# One database for several

The ledger keeps the databases of all channels in one LevelDB.  A key of a
channel's database is stored behind the name of that database and a zero byte,
and is stripped of them when an iterator returns it.

`DB` stands for the LevelDB itself: an ordered map from byte strings to byte
strings, read by key and by half-open ranges of keys and written by atomic
batches.
-/

namespace Fabric.Ledger.LevelDB

open Library ByteString OrderedStore SeparatedKeys
open Std (ExtTreeMap)

variable {Reason : Type}

/-! ## The shared database -/

abbrev DB := ExtTreeMap GoString Bytes

/-- The entries from a start key on and below a limit. -/
def entriesBetween (db : DB) (start limit : GoString) : List (GoString × Bytes) :=
  scan (fun key => decide (start ≤ key) && decide (key < limit)) db

def lastKeyIndicator : UInt8 := 1

/-- The name of the database and the key. -/
def constructLevelKey (dbName : GoString) (key : Bytes) : GoString :=
  ⟨joined dbName.bytes key⟩

/-- What follows the first zero byte; a key without one panics. -/
def retrieveAppKey (levelKey : GoString) : Outcome Reason Bytes :=
  match split levelKey.bytes with
  | some parts => .ok parts.2
  | none => .panic

/-! ## Handles -/

/-- Reads a key. -/
def get (db : DB) (dbName : GoString) (key : Bytes) : Option Bytes :=
  db[constructLevelKey dbName key]?

/-- Updates that are written together; a nil value deletes its key. -/
structure UpdateBatch where
  kvs : ExtTreeMap GoString (Option Bytes)

namespace UpdateBatch

def new : UpdateBatch := ⟨∅⟩

/-- Add a value.  A nil value is a programming error and panics. -/
def put (batch : UpdateBatch) (key : Bytes) (value : Slice) : Outcome Reason UpdateBatch :=
  match value with
  | none => .panic
  | some content => .ok ⟨batch.kvs.insert ⟨key⟩ (some content)⟩

def delete (batch : UpdateBatch) (key : Bytes) : UpdateBatch :=
  ⟨batch.kvs.insert ⟨key⟩ none⟩

end UpdateBatch

/-- Writes a batch. -/
def writeBatch (db : DB) (dbName : GoString) (batch : UpdateBatch) : DB :=
  applyAll db (batch.kvs.toList.map fun kv => (constructLevelKey dbName kv.1.bytes, kv.2))

/--
The entries that an iterator returns.  A nil end key stands for the end of the
database: the separator, which is then the last byte, is replaced.
-/
def getIterator (db : DB) (dbName : GoString) (startKey endKey : Slice) :
    Outcome Reason (List (Bytes × Bytes)) :=
  let sKey := constructLevelKey dbName startKey.bytes
  let eKey := constructLevelKey dbName endKey.bytes
  let limit : GoString :=
    match endKey with
    | none => ⟨eKey.bytes.dropLast ++ [lastKeyIndicator]⟩
    | some _ => eKey
  (entriesBetween db sKey limit).mapM fun entry => do
    let key ← retrieveAppKey entry.1
    .ok (key, entry.2)

/-! ## Reading what was written -/

section

variable {dbName other : GoString} {key otherKey : Bytes}

theorem constructLevelKey_right_inj :
    constructLevelKey dbName key = constructLevelKey dbName otherKey ↔ key = otherKey := by
  rw [constructLevelKey, constructLevelKey, GoString.mk.injEq, joined_right_inj]

theorem constructLevelKey_inj (free : NulFree dbName.bytes) (otherFree : NulFree other.bytes)
    (equal : constructLevelKey dbName key = constructLevelKey other otherKey) :
    dbName = other ∧ key = otherKey := by
  rw [constructLevelKey, constructLevelKey, GoString.mk.injEq] at equal
  rcases joined_inj free otherFree equal with ⟨names, keys⟩
  exact ⟨GoString.bytes_injective names, keys⟩

theorem constructLevelKey_lt_iff :
    constructLevelKey dbName key < constructLevelKey dbName otherKey ↔ key < otherKey :=
  joined_lt_joined_iff dbName.bytes key otherKey

end

section

variable {db : DB} {dbName other : GoString} {batch : UpdateBatch}

theorem get_writeBatch_self (key : Bytes) :
    get (writeBatch db dbName batch) dbName key =
      batch.kvs[(⟨key⟩ : GoString)]?.getD (get db dbName key) := by
  cases found : batch.kvs[(⟨key⟩ : GoString)]? with
  | some value =>
    apply getElem?_applyAll_of_mem
    · rw [List.map_map, List.Nodup, List.pairwise_map]
      apply List.Pairwise.imp ?_ (toList_sortedByKey batch.kvs)
      intro _ _ smaller equal
      have keys := constructLevelKey_right_inj.mp equal
      exact absurd (GoString.bytes_injective keys) (ne_of_lt smaller)
    · exact List.mem_map.mpr ⟨(⟨key⟩, value),
            ExtTreeMap.mem_toList_iff_getElem?_eq_some.mpr found, rfl⟩
  | none =>
    apply getElem?_applyAll_of_not_mem
    intro _ member
    rcases List.mem_map.mp member with ⟨entry, present, equal⟩
    rw [Prod.mk.injEq, constructLevelKey_right_inj] at equal
    rcases entry with ⟨⟨_⟩, _⟩
    rcases equal with ⟨rfl, rfl⟩
    rw [ExtTreeMap.mem_toList_iff_getElem?_eq_some.mp present] at found
    cases found

theorem get_writeBatch_other (free : NulFree dbName.bytes) (otherFree : NulFree other.bytes)
    (distinct : dbName ≠ other) (key : Bytes) :
    get (writeBatch db dbName batch) other key = get db other key := by
  apply getElem?_applyAll_of_not_mem
  intro _ member
  rcases List.mem_map.mp member with ⟨_, _, equal⟩
  rw [Prod.mk.injEq] at equal
  exact distinct (constructLevelKey_inj free otherFree equal.1).1

end

/-! ## Iterators -/

section

variable {db : DB} {dbName : GoString}

/-- A range of one database, as an iterator reads it from the shared one. -/
structure RangeOf (dbName : GoString) (start limit : GoString) (inside : Bytes → Prop) : Prop where
  named : ∀ levelKey, start ≤ levelKey → levelKey < limit →
      ∃ key, levelKey = constructLevelKey dbName key
  inside_iff : ∀ key, start ≤ constructLevelKey dbName key ∧ constructLevelKey dbName key < limit ↔
        inside key

theorem rangeOf_bounded (dbName : GoString) (startKey endKey : Bytes) :
    RangeOf dbName (constructLevelKey dbName startKey) (constructLevelKey dbName endKey)
      (fun key => startKey ≤ key ∧ key < endKey) where
  named levelKey lower upper := by
    rcases exists_joined_of_lt_joined lower upper with ⟨key, equal⟩
    exact ⟨key, GoString.bytes_injective equal⟩
  inside_iff key :=
    and_congr (joined_le_joined_iff dbName.bytes startKey key) constructLevelKey_lt_iff

theorem mapM_entriesBetween (free : NulFree dbName.bytes) {start limit : GoString}
    {inside : Bytes → Prop} (range : RangeOf dbName start limit inside) :
    ∃ entries : List (Bytes × Bytes), ((entriesBetween db start limit).mapM fun entry => do
          let key ← retrieveAppKey entry.1
          .ok (key, entry.2) : Outcome Reason _) = .ok entries ∧
        SortedByKey entries ∧
        ∀ key value, (key, value) ∈ entries ↔ get db dbName key = some value ∧ inside key := by
  have named : ∀ entry ∈ entriesBetween db start limit,
        ∃ key, entry.1 = constructLevelKey dbName key := by
    rintro ⟨levelKey, value⟩ member
    rw [entriesBetween, mem_scan_iff, Bool.and_eq_true, decide_eq_true_eq,
      decide_eq_true_eq] at member
    exact range.named levelKey member.2.1 member.2.2
  let stripped (entry : GoString × Bytes) : Bytes × Bytes :=
    (((split entry.1.bytes).map Prod.snd).getD [], entry.2)
  have stripped_eq (key value : Bytes) :
      stripped (constructLevelKey dbName key, value) = (key, value) := by
    simp only [stripped, constructLevelKey, split_joined free, Option.map_some, Option.getD_some]
  refine ⟨(entriesBetween db start limit).map stripped, ?_, ?_, ?_⟩
  · apply Outcome.mapM_of_forall_ok
    rintro ⟨levelKey, value⟩ member
    rcases named _ member with ⟨key, rfl⟩
    rw [stripped_eq, retrieveAppKey, constructLevelKey, split_joined free]
    rfl
  · rw [SortedByKey, List.pairwise_map]
    apply List.Pairwise.imp_of_mem ?_ (scan_sortedByKey _ db)
    rintro ⟨_, _⟩ ⟨_, _⟩ leftMember rightMember smaller
    rcases named _ leftMember with ⟨key, rfl⟩
    rcases named _ rightMember with ⟨_, rfl⟩
    rw [stripped_eq, stripped_eq]
    exact constructLevelKey_lt_iff.mp smaller
  · intro key value
    rw [← range.inside_iff key, get, List.mem_map]
    constructor
    · rintro ⟨⟨levelKey, _⟩, member, equal⟩
      rcases named _ member with ⟨found, rfl⟩
      rw [stripped_eq] at equal
      cases equal
      rw [entriesBetween, mem_scan_iff, Bool.and_eq_true, decide_eq_true_eq,
        decide_eq_true_eq] at member
      exact member
    · intro found
      refine ⟨(constructLevelKey dbName key, value), ?_, stripped_eq key value⟩
      rw [entriesBetween, mem_scan_iff, Bool.and_eq_true, decide_eq_true_eq, decide_eq_true_eq]
      exact found

end

end Fabric.Ledger.LevelDB
