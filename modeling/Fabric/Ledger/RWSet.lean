import Fabric.Ledger.StateDB
import Fabric.Protos

/-!
# Read-write sets

A simulated transaction is summarised by the versions of the keys it read, by
its range queries and by the values it wrote, namespace by namespace.  The
builder collects them during simulation; the validator receives them decoded
from the transaction.
-/

namespace Fabric.Ledger.RWSet

open Library ByteString Protos StateDB
open Std (ExtTreeMap)

/-- The reads and writes in one namespace. -/
structure NsRwSet where
  nameSpace : GoString
  kvRwSet : KVRWSet
deriving DecidableEq

/-- The reads and writes of a transaction. -/
structure TxRwSet where
  nsRwSets : List NsRwSet
deriving DecidableEq

/-! ## Conversions -/

def newProtoVersion (height : Option Height) : Option Version :=
  height.map fun height => ⟨height.blockNum, height.txNum⟩

def newVersion (protoVersion : Option Version) : Option Height :=
  protoVersion.map fun version => ⟨version.blockNum, version.txNum⟩

def newKVRead (key : GoString) (version : Option Height) : KVRead :=
  ⟨key, newProtoVersion version⟩

/-- The read that is recorded for an entry of a range. -/
def kvReadOf (entry : VersionedKV) : KVRead :=
  newKVRead entry.1 (some entry.2.version)

def newKVWrite (key : GoString) (value : Slice) : KVWrite :=
  ⟨key, value.isNone, value⟩

@[simp]
theorem newVersion_newProtoVersion (height : Option Height) :
    newVersion (newProtoVersion height) = height := by
  cases height <;> rfl

/-- Decode a read-write set and, inside it, the set of each namespace. -/
def fromProtoBytes (codec : Codec) (protoBytes : Slice) : Option TxRwSet := do
  let protoTxRwSet ← codec.unmarshalTxReadWriteSet protoBytes.bytes
  let nsRwSets ← protoTxRwSet.nsRwset.mapM fun protoNsRwSet => do
    let protoKvRwSet ← codec.unmarshalKVRWSet protoNsRwSet.rwset.bytes
    pure (NsRwSet.mk protoNsRwSet.nameSpace protoKvRwSet)
  pure ⟨nsRwSets⟩

/-! ## What encoding and decoding does to a value -/

/-- The wire format does not tell an empty value from an absent one. -/
def wireSlice (slice : Slice) : Slice :=
  slice.filter fun bytes => !bytes.isEmpty

/-- A namespace's set after it was sent and decoded. -/
def wireKVRWSet (kvRwSet : KVRWSet) : KVRWSet :=
  { kvRwSet with
    writes := kvRwSet.writes.map fun kvWrite => { kvWrite with value := wireSlice kvWrite.value } }

/-- A read-write set after it was sent and decoded. -/
def TxRwSet.wire (txRwSet : TxRwSet) : TxRwSet :=
  ⟨txRwSet.nsRwSets.map fun nsRwSet => { nsRwSet with kvRwSet := wireKVRWSet nsRwSet.kvRwSet }⟩

/-! ## The builder -/

/-- What was read, written and queried in one namespace. -/
structure NsRWs where
  readMap : ExtTreeMap GoString KVRead
  writeMap : ExtTreeMap GoString KVWrite
  rangeQueries : List RangeQueryInfo

def newNsRWs : NsRWs := ⟨∅, ∅, []⟩

/-- Range queries with the same key are recorded once. -/
def sameRangeQueryKey (left right : RangeQueryInfo) : Bool :=
  left.startKey == right.startKey && left.endKey == right.endKey &&
    left.itrExhausted == right.itrExhausted

/-- The reads and writes that are recorded, by namespace. -/
structure RWSetBuilder where
  rwMap : ExtTreeMap GoString NsRWs

namespace RWSetBuilder

def new : RWSetBuilder := ⟨∅⟩

section

variable (builder : RWSetBuilder)

/-- What is recorded for a namespace. -/
def getOrCreateNsRW (ns : GoString) : NsRWs :=
  builder.rwMap[ns]?.getD newNsRWs

def setNsRW (ns : GoString) (nsRWs : NsRWs) : RWSetBuilder :=
  ⟨builder.rwMap.insert ns nsRWs⟩

/-- Records a read. -/
def addToReadSet (ns key : GoString) (version : Option Height) : RWSetBuilder :=
  let nsRWs := builder.getOrCreateNsRW ns
  builder.setNsRW ns { nsRWs with readMap := nsRWs.readMap.insert key (newKVRead key version) }

/-- Records a write. -/
def addToWriteSet (ns key : GoString) (value : Slice) : RWSetBuilder :=
  let nsRWs := builder.getOrCreateNsRW ns
  builder.setNsRW ns { nsRWs with writeMap := nsRWs.writeMap.insert key (newKVWrite key value) }

/-- Records a range query once. -/
def addToRangeQuerySet (ns : GoString) (rqi : RangeQueryInfo) : RWSetBuilder :=
  let nsRWs := builder.getOrCreateNsRW ns
  let rangeQueries := if nsRWs.rangeQueries.any (sameRangeQueryKey rqi) then
      nsRWs.rangeQueries
    else
      nsRWs.rangeQueries ++ [rqi]
  builder.setNsRW ns { nsRWs with rangeQueries := rangeQueries }

/-- The read-write set, namespaces and keys in order. -/
def getTxReadWriteSet : TxRwSet :=
  ⟨builder.rwMap.toList.map fun entry =>
    { nameSpace := entry.1
      kvRwSet :=
        { reads := entry.2.readMap.toList.map Prod.snd
          rangeQueriesInfo := entry.2.rangeQueries
          writes := entry.2.writeMap.toList.map Prod.snd } }⟩

end

theorem getOrCreateNsRW_setNsRW (builder : RWSetBuilder) (ns other : GoString) (nsRWs : NsRWs) :
    (builder.setNsRW ns nsRWs).getOrCreateNsRW other =
      if ns = other then nsRWs else builder.getOrCreateNsRW other := by
  by_cases same : ns = other <;> simp [getOrCreateNsRW, setNsRW, ExtTreeMap.getElem?_insert, same]

def reads (builder : RWSetBuilder) (ns : GoString) : ExtTreeMap GoString KVRead :=
  (builder.getOrCreateNsRW ns).readMap

def rangeQueries (builder : RWSetBuilder) (ns : GoString) : List RangeQueryInfo :=
  (builder.getOrCreateNsRW ns).rangeQueries

theorem reads_addToReadSet (builder : RWSetBuilder) (ns key other : GoString)
    (version : Option Height) :
    (builder.addToReadSet ns key version).reads other = if ns = other then
        (builder.reads ns).insert key (newKVRead key version)
      else
        builder.reads other := by
  simp only [reads, addToReadSet, getOrCreateNsRW_setNsRW]
  split <;> rfl

@[simp]
theorem reads_addToWriteSet (builder : RWSetBuilder) (ns key other : GoString) (value : Slice) :
    (builder.addToWriteSet ns key value).reads other = builder.reads other := by
  simp only [reads, addToWriteSet, getOrCreateNsRW_setNsRW]
  by_cases same : ns = other <;> simp [same]

@[simp]
theorem reads_addToRangeQuerySet
    (builder : RWSetBuilder) (ns other : GoString) (rqi : RangeQueryInfo) :
    (builder.addToRangeQuerySet ns rqi).reads other = builder.reads other := by
  simp only [reads, addToRangeQuerySet, getOrCreateNsRW_setNsRW]
  by_cases same : ns = other <;> simp [same]

variable {builder : RWSetBuilder}

theorem exists_nsRwSet_of_reads {ns key : GoString} {kvRead : KVRead}
    (recorded : (builder.reads ns)[key]? = some kvRead) :
    ∃ nsRwSet ∈ builder.getTxReadWriteSet.nsRwSets,
      nsRwSet.nameSpace = ns ∧ kvRead ∈ nsRwSet.kvRwSet.reads := by
  cases found : builder.rwMap[ns]? with
  | none => simp [reads, getOrCreateNsRW, found, newNsRWs] at recorded
  | some nsRWs =>
    have inside : (key, kvRead) ∈ nsRWs.readMap.toList := by
      rw [ExtTreeMap.mem_toList_iff_getElem?_eq_some]
      simpa [reads, getOrCreateNsRW, found] using recorded
    refine ⟨_, List.mem_map_of_mem (ExtTreeMap.mem_toList_iff_getElem?_eq_some.mpr found), rfl, ?_⟩
    exact List.mem_map_of_mem inside

theorem exists_nsRwSet_of_rangeQueries {ns : GoString} {rqi : RangeQueryInfo}
    (recorded : rqi ∈ builder.rangeQueries ns) :
    ∃ nsRwSet ∈ builder.getTxReadWriteSet.nsRwSets,
      nsRwSet.nameSpace = ns ∧ rqi ∈ nsRwSet.kvRwSet.rangeQueriesInfo := by
  cases found : builder.rwMap[ns]? with
  | none => simp [rangeQueries, getOrCreateNsRW, found, newNsRWs] at recorded
  | some _ =>
    refine ⟨_, List.mem_map_of_mem (ExtTreeMap.mem_toList_iff_getElem?_eq_some.mpr found), rfl, ?_⟩
    simpa [rangeQueries, getOrCreateNsRW, found] using recorded

theorem recorded_of_mem_nsRwSets {nsRwSet : NsRwSet}
    (member : nsRwSet ∈ builder.getTxReadWriteSet.nsRwSets) :
    (∀ kvRead ∈ nsRwSet.kvRwSet.reads, ∃ key : GoString,
        (builder.reads nsRwSet.nameSpace)[key]? = some kvRead) ∧
      nsRwSet.kvRwSet.rangeQueriesInfo = builder.rangeQueries nsRwSet.nameSpace := by
  rcases List.mem_map.mp member with ⟨⟨ns, nsRWs⟩, inside, rfl⟩
  have found : builder.rwMap[ns]? = some nsRWs :=
    ExtTreeMap.mem_toList_iff_getElem?_eq_some.mp inside
  constructor
  · intro kvRead recorded
    rcases List.mem_map.mp recorded with ⟨⟨key, _⟩, listed, rfl⟩
    refine ⟨key, ?_⟩
    rw [reads, getOrCreateNsRW, found]
    exact ExtTreeMap.mem_toList_iff_getElem?_eq_some.mp listed
  · rw [rangeQueries, getOrCreateNsRW, found]
    rfl

@[simp]
theorem rangeQueries_addToReadSet (builder : RWSetBuilder) (ns key other : GoString)
    (version : Option Height) : (builder.addToReadSet ns key version).rangeQueries other =
      builder.rangeQueries other := by
  simp only [rangeQueries, addToReadSet, getOrCreateNsRW_setNsRW]
  by_cases same : ns = other <;> simp [same]

@[simp]
theorem rangeQueries_addToWriteSet
    (builder : RWSetBuilder) (ns key other : GoString) (value : Slice) :
    (builder.addToWriteSet ns key value).rangeQueries other = builder.rangeQueries other := by
  simp only [rangeQueries, addToWriteSet, getOrCreateNsRW_setNsRW]
  by_cases same : ns = other <;> simp [same]

theorem rangeQueries_addToRangeQuerySet
    (builder : RWSetBuilder) (ns other : GoString) (rqi : RangeQueryInfo) :
    (builder.addToRangeQuerySet ns rqi).rangeQueries other = if ns = other then
        if (builder.rangeQueries ns).any (sameRangeQueryKey rqi) then builder.rangeQueries ns
        else builder.rangeQueries ns ++ [rqi]
      else
        builder.rangeQueries other := by
  simp only [rangeQueries, addToRangeQuerySet, getOrCreateNsRW_setNsRW]
  by_cases same : ns = other <;> simp [same]

end RWSetBuilder

end Fabric.Ledger.RWSet
