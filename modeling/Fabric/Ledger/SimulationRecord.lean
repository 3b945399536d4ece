import Fabric.Ledger.Replay

/-!
# What a simulation records

The read-write set of a simulation tells, for each key it asked for, the
version it found, and, for each range query, a summary of the entries it was
given.  This module states that record as an invariant of the simulator and
reads it off the finished read-write set.
-/

namespace Fabric.Ledger.SimulationRecord

open Library ByteString
open Library.OrderedStore (SortedByKey)
open Protos StateDB RWSet QueryResults Simulator Replay

/-! ## Iterators -/

/-- The iterator has returned the given entries and recorded them. -/
structure Tracks (hashing : Hashing) (db : StateReader) (itr : ResultsItr)
    (consumed : List VersionedKV) : Prop where
  range : rangeOf db itr = consumed ++ itr.dbItr
  represents : itr.rangeQueryResultsHelper.Represents hashing (consumed.map kvReadOf)
  readsInfo : itr.rangeQueryInfo.readsInfo = none
  exhausted : itr.rangeQueryInfo.itrExhausted = true →
      itr.dbItr = [] ∧ itr.rangeQueryInfo.endKey = itr.endKey
  running : itr.rangeQueryInfo.itrExhausted = false →
      ∀ last ∈ consumed.getLast?, itr.rangeQueryInfo.endKey = last.1

variable {db : StateReader} {itr : ResultsItr} {settings : Settings}

theorem tracks_new {ns startKey endKey : GoString}
    (opened : ResultsItr.new settings db ns startKey endKey = some itr) :
    Tracks settings.hashing db itr [] := by
  obtain ⟨_, created, rfl⟩ := Option.map_eq_some_iff.mp opened
  exact ⟨rfl, RangeQueryResultsHelper.represents_new created, rfl, by simp, by simp⟩

variable {consumed : List VersionedKV} {hashing : Hashing}

theorem Tracks.next_nil (tracks : Tracks hashing db itr consumed) (items : itr.dbItr = []) :
    Tracks hashing db (itr.next hashing).2 consumed := by
  simp only [ResultsItr.next, items, ResultsItr.updateRangeQueryInfo]
  refine ⟨?_, tracks.represents, tracks.readsInfo, ?_, by simp⟩
  · simpa [rangeOf, items] using tracks.range
  · simp

theorem Tracks.next_cons {consumed rest : List VersionedKV}
    {item : VersionedKV} (tracks : Tracks hashing db itr consumed)
    (items : itr.dbItr = item :: rest) :
    Tracks hashing db (itr.next hashing).2 (consumed ++ [item]) := by
  simp only [ResultsItr.next, items, ResultsItr.updateRangeQueryInfo]
  refine ⟨?_, ?_, tracks.readsInfo, ?_, ?_⟩
  · simpa [rangeOf, items] using tracks.range
  · rw [List.map_append]
    exact tracks.represents.addResult (kvReadOf item)
  · intro exhausted
    have drained := (tracks.exhausted exhausted).1
    rw [items] at drained
    cases drained
  · simp

theorem Tracks.next (tracks : Tracks hashing db itr consumed) :
    ∃ consumed, Tracks hashing db (itr.next hashing).2 consumed := by
  cases items : itr.dbItr with
  | nil => exact ⟨consumed, tracks.next_nil items⟩
  | cons item _ => exact ⟨consumed ++ [item], tracks.next_cons items⟩

theorem Tracks.completedInfo (tracks : Tracks hashing db itr consumed) :
    (itr.completedInfo hashing).startKey = itr.rangeQueryInfo.startKey ∧
      (itr.completedInfo hashing).endKey = itr.rangeQueryInfo.endKey ∧
      (itr.completedInfo hashing).itrExhausted = itr.rangeQueryInfo.itrExhausted ∧
      Summarises hashing (itr.completedInfo hashing).readsInfo (consumed.map kvReadOf) := by
  rcases tracks.represents.done with raw | ⟨_, hashed, commits⟩
  · cases reads : consumed.map kvReadOf with
    | nil =>
      rw [reads] at raw
      simp [ResultsItr.completedInfo, raw, Summarises, tracks.readsInfo]
    | cons _ _ =>
      rw [reads] at raw
      simp [ResultsItr.completedInfo, raw, Summarises]
  · simp [ResultsItr.completedInfo, hashed, Summarises, commits]

/-! ## The record of a run -/

/-- The record agrees with the state that the simulation runs on. -/
structure Faithful (settings : Settings) (db : StateReader) (simulator : TxSimulator) : Prop where
  reads : ∀ ns key kvRead, (simulator.rwsetBuilder.reads ns)[key]? = some kvRead → kvRead =
          newKVRead key ((db.getState ns key).map StoredValue.version)
  rangeQueries : ∀ ns, simulator.rwsetBuilder.rangeQueries ns = []
  itrs : ∀ itr ∈ simulator.itrs, ∃ consumed, Tracks settings.hashing db itr consumed

theorem faithful_new (settings : Settings) (db : StateReader) :
    Faithful settings db TxSimulator.new := by
  refine ⟨?_, ?_, by simp [TxSimulator.new]⟩
  · intro ns _ _ recorded
    simp [TxSimulator.new, RWSetBuilder.new, RWSetBuilder.reads,
      RWSetBuilder.getOrCreateNsRW, newNsRWs] at recorded
  · intro ns
    simp [TxSimulator.new, RWSetBuilder.new, RWSetBuilder.rangeQueries,
      RWSetBuilder.getOrCreateNsRW, newNsRWs]

variable {simulator : TxSimulator}

section

section

variable (faithful : Faithful settings db simulator)
include faithful

theorem Faithful.getState (ns key : GoString) :
    Faithful settings db (simulator.getState db ns key).2 := by
  refine ⟨?_, ?_, faithful.itrs⟩
  case refine_2 =>
    intro other
    simpa [TxSimulator.getState] using faithful.rangeQueries other
  intro _ otherKey _ recorded
  simp only [TxSimulator.getState, RWSetBuilder.reads_addToReadSet] at recorded
  split at recorded
  · rename_i same
    subst same
    rw [Std.ExtTreeMap.getElem?_insert] at recorded
    split at recorded
    · rename_i sameKey
      obtain rfl : key = otherKey := by simpa using sameKey
      simpa using recorded.symm
    · exact faithful.reads _ _ _ recorded
  · exact faithful.reads _ _ _ recorded

theorem Faithful.getStateMultipleKeys (ns : GoString) (keys : List GoString) :
    Faithful settings db (simulator.getStateMultipleKeys db ns keys).2 := by
  induction keys generalizing simulator with
  | nil => exact faithful
  | cons key keys ih => exact ih (faithful.getState ns key)

theorem Faithful.setState (ns key : GoString) (value : Slice) :
    Faithful settings db (simulator.setState settings ns key value).2 := by
  unfold TxSimulator.setState
  split
  · refine ⟨?_, ?_, faithful.itrs⟩
    · intro _ _ _ recorded
      exact faithful.reads _ _ _ (by simpa using recorded)
    · intro other
      simpa using faithful.rangeQueries other
  · exact faithful

theorem Faithful.serve (request : Call) :
    Faithful settings db (simulator.serve settings db request).2 := by
  cases request with
  | getState ns key => exact faithful.getState ns key
  | getStateMultipleKeys ns keys => exact faithful.getStateMultipleKeys ns keys
  | getStateRangeScanIterator ns _ _ =>
    simp only [TxSimulator.serve]
    split
    · exact faithful
    · rename_i itr opened
      refine ⟨faithful.reads, faithful.rangeQueries, ?_⟩
      intro other member
      rcases List.mem_append.mp member with earlier | new
      · exact faithful.itrs other earlier
      · obtain rfl : other = itr := by simpa using new
        exact ⟨[], tracks_new opened⟩
  | next _ =>
    simp only [TxSimulator.serve]
    split
    · exact faithful
    · rename_i itr found
      refine ⟨faithful.reads, faithful.rangeQueries, ?_⟩
      intro other member
      rcases List.mem_or_eq_of_mem_set member with earlier | new
      · exact faithful.itrs other earlier
      · obtain ⟨_, tracks⟩ := faithful.itrs itr (List.mem_of_getElem? found)
        rw [new]
        exact tracks.next
  | setState ns key value => exact faithful.setState ns key value
  | deleteState ns key => exact faithful.setState ns key none

theorem Faithful.run (simulation : Simulation) :
    Faithful settings db (simulation.run settings db simulator).2 := by
  induction simulation generalizing simulator with
  | finish => exact faithful
  | call request _ ih => exact ih _ (faithful.serve request)

end

end

/-! ## Iterators that were advanced -/

/-- The iterator was exhausted or has returned an entry. -/
def Moved (db : StateReader) (itr : ResultsItr) : Prop :=
  itr.rangeQueryInfo.itrExhausted = true ∨ itr.dbItr.length < (rangeOf db itr).length

theorem Moved.advanced {itr later : ResultsItr}
    (moved : Moved db itr) (advanced : Advanced itr later) :
    Moved db later := by
  rcases moved with exhausted | returned
  · exact Or.inl (advanced.exhausted exhausted)
  · refine Or.inr ?_
    rw [advanced.rangeOf_eq]
    exact advanced.remaining.length_le.trans_lt returned

variable {last : VersionedKV}

variable {consumed front : List VersionedKV}

section

variable {db : VersionedDB} (tracks : Tracks hashing db itr consumed)
include tracks

theorem Tracks.mem_consumed_iff (consumedEq : consumed = front ++ [last])
    (entry : VersionedKV) :
    entry ∈ consumed ↔ db.getState itr.ns entry.1 = some entry.2 ∧
        itr.rangeQueryInfo.startKey ≤ entry.1 ∧ entry.1 ≤ last.1 := by
  have rangeEq : rangeOf db itr = front ++ last :: itr.dbItr := by
    rw [tracks.range, consumedEq]
    simp
  have sorted : SortedByKey (front ++ last :: itr.dbItr) := by
    rw [← rangeEq]
    exact VersionedDB.rangeScan_sortedByKey _ _ _ _
  have lastInside := (VersionedDB.mem_rangeScan_iff db itr.ns
      itr.rangeQueryInfo.startKey itr.endKey last).mp
      (by
        change last ∈ rangeOf db itr
        simp [rangeEq])
  rw [consumedEq, ← sorted.filter_le_last, ← rangeEq, List.mem_filter,
    rangeOf, VersionedDB.rangeScan_reader, VersionedDB.mem_rangeScan_iff]
  constructor
  · rintro ⟨⟨found, above, _⟩, below⟩
    exact ⟨found, above, by simpa using below⟩
  · rintro ⟨found, above, below⟩
    refine ⟨⟨found, above, ?_⟩, by simpa using below⟩
    exact lastInside.2.2.imp id fun lastBelow => below.trans_lt lastBelow

theorem Tracks.sortedByKey : SortedByKey consumed := by
  have sorted : SortedByKey (consumed ++ itr.dbItr) := by
    rw [← tracks.range]
    exact VersionedDB.rangeScan_sortedByKey _ _ _ _
  exact (List.pairwise_append.mp sorted).1

theorem Tracks.front_eq_nil (consumedEq : consumed = front ++ [last])
    (lastEmpty : last.1 = .empty) : front = [] := by
  rw [List.eq_nil_iff_forall_not_mem]
  intro entry member
  have sorted := tracks.sortedByKey
  rw [consumedEq] at sorted
  have below := (List.pairwise_append.mp sorted).2.2 entry member last (by simp)
  rw [lastEmpty] at below
  exact GoString.not_lt_empty _ below

theorem Tracks.found :
    ∀ entry ∈ consumed, db.getState itr.ns entry.1 = some entry.2 := by
  intro entry member
  have inside : entry ∈ rangeOf db itr := by
    rw [tracks.range]
    exact List.mem_append_left _ member
  exact ((VersionedDB.mem_rangeScan_iff ..).mp inside).1

end

/-! ## The recorded range queries -/

/-- The queries of the iterators seen so far, up to equal query keys. -/
private structure Collected (hashing : Hashing) (seen : List ResultsItr) (builder : RWSetBuilder) :
    Prop where
  present : ∀ itr ∈ seen, ∃ rqi ∈ builder.rangeQueries itr.ns,
        sameRangeQueryKey (itr.completedInfo hashing) rqi = true
  origin : ∀ ns, ∀ rqi ∈ builder.rangeQueries ns,
      ∃ itr ∈ seen, itr.ns = ns ∧ rqi = itr.completedInfo hashing

variable {seen : List ResultsItr} {builder : RWSetBuilder}

private theorem Collected.add (collected : Collected hashing seen builder) (itr : ResultsItr) :
    Collected hashing (seen ++ [itr])
      (builder.addToRangeQuerySet itr.ns (itr.completedInfo hashing)) := by
  have kept (ns : GoString) : builder.rangeQueries ns ⊆ (builder.addToRangeQuerySet itr.ns
          (itr.completedInfo hashing)).rangeQueries ns := by
    intro rqi member
    rw [RWSetBuilder.rangeQueries_addToRangeQuerySet]
    split_ifs with same duplicate
    · exact same ▸ member
    · exact List.mem_append_left _ (same ▸ member)
    · exact member
  refine ⟨?_, ?_⟩
  · intro other member
    rcases List.mem_append.mp member with earlier | new
    · obtain ⟨rqi, recorded, sameKey⟩ := collected.present other earlier
      exact ⟨rqi, kept other.ns recorded, sameKey⟩
    · obtain rfl : other = itr := by simpa using new
      rw [RWSetBuilder.rangeQueries_addToRangeQuerySet, if_pos rfl]
      split_ifs with duplicate
      · exact List.any_eq_true.mp duplicate
      · exact ⟨_, List.mem_append_right _ (List.mem_singleton_self _), by simp [sameRangeQueryKey]⟩
  · intro ns rqi member
    rw [RWSetBuilder.rangeQueries_addToRangeQuerySet] at member
    have widen (found : ∃ itr ∈ seen, itr.ns = ns ∧ rqi = itr.completedInfo hashing) :
        ∃ other ∈ seen ++ [itr], other.ns = ns ∧ rqi = other.completedInfo hashing := by
      obtain ⟨other, otherSeen, facts⟩ := found
      exact ⟨other, List.mem_append_left _ otherSeen, facts⟩
    split_ifs at member with same duplicate
    · subst same
      exact widen (collected.origin itr.ns rqi member)
    · subst same
      rcases List.mem_append.mp member with earlier | new
      · exact widen (collected.origin itr.ns rqi earlier)
      · exact ⟨itr, by simp, rfl, by simpa using new⟩
    · exact widen (collected.origin ns rqi member)

private theorem Collected.foldl
    (collected : Collected hashing seen builder) (itrs : List ResultsItr) :
    Collected hashing (seen ++ itrs) (itrs.foldl (fun builder itr =>
          builder.addToRangeQuerySet itr.ns (itr.completedInfo hashing))
        builder) := by
  induction itrs generalizing seen builder with
  | nil => simpa using collected
  | cons itr itrs ih => simpa using ih (collected.add itr)

section

theorem Faithful.exists_rangeQuery (faithful : Faithful settings db simulator)
    (opened : itr ∈ simulator.itrs) :
    ∃ other ∈ simulator.itrs, other.ns = itr.ns ∧
        sameRangeQueryKey (itr.completedInfo settings.hashing)
          (other.completedInfo settings.hashing) = true ∧
        other.completedInfo settings.hashing ∈ (simulator.done settings).rangeQueries itr.ns := by
  have start : Collected settings.hashing [] simulator.rwsetBuilder :=
    ⟨by simp, by simp [faithful.rangeQueries]⟩
  have collected := start.foldl simulator.itrs
  obtain ⟨rqi, recorded, sameKey⟩ := collected.present itr opened
  obtain ⟨other, otherOpened, sameNs, rfl⟩ := collected.origin itr.ns rqi recorded
  exact ⟨other, otherOpened, sameNs, sameKey, recorded⟩

theorem Faithful.exists_itr_of_rangeQuery (faithful : Faithful settings db simulator)
    {ns : GoString} {rqi : RangeQueryInfo}
    (recorded : rqi ∈ (simulator.done settings).rangeQueries ns) :
    ∃ itr ∈ simulator.itrs, itr.ns = ns ∧ rqi = itr.completedInfo settings.hashing := by
  have start : Collected settings.hashing [] simulator.rwsetBuilder :=
    ⟨by simp, by simp [faithful.rangeQueries]⟩
  exact (start.foldl simulator.itrs).origin ns rqi recorded

theorem reads_done (ns : GoString) :
    (simulator.done settings).reads ns = simulator.rwsetBuilder.reads ns := by
  have unchanged (itrs : List ResultsItr) (builder : RWSetBuilder) : (itrs.foldl (fun builder itr =>
            builder.addToRangeQuerySet itr.ns (itr.completedInfo settings.hashing))
          builder).reads ns = builder.reads ns := by
    induction itrs generalizing builder with
    | nil => rfl
    | cons itr itrs ih => rw [List.foldl_cons, ih]; simp
  exact unchanged simulator.itrs simulator.rwsetBuilder

end

end Fabric.Ledger.SimulationRecord
