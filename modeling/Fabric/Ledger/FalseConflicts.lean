import Fabric.Ledger.QueryGrowth
import Fabric.Ledger.StoredReads

/-!
# Conflicts with an unchanged state

A transaction that is validated against the very state it was simulated on finds
the versions that it read, and it finds the results of a range query again if it
was advanced.  The end of the range is recorded by the calls of `Next` only, and
an empty end key stands for an unbounded range.  An iterator that was opened and
never advanced is therefore validated like one that has found nothing from its
start key on, and one that was stopped at the empty key finds more than it
returned.

The last section says exactly which simulations are valid.
-/

namespace Fabric.Ledger.FalseConflicts

open Library ByteString
open Library.OrderedStore (SortedByKey)
open Protos StateDB RWSet QueryResults Simulator Replay SimulationRecord CombinedIterator
  StateValidator ReadValidation QueryGrowth
open SeparatedKeys StateLevelDB StoredReads

/-! ## Iterators after a number of steps -/

/-- The iterator was advanced a number of times and returned some entries. -/
structure Stepped (settings : Settings) (db : VersionedDB) (itr : ResultsItr)
    (consumed : List VersionedKV) (steps : Nat) : Prop where
  tracks : Tracks settings.hashing db itr consumed
  helper : ∃ fresh, newRangeQueryResultsHelper settings.queryReadsHashingEnabled
          settings.maxDegreeQueryReadsHashing = some fresh ∧
        itr.rangeQueryResultsHelper = fresh.addResults settings.hashing (consumed.map kvReadOf)
  untouched : itr.rangeQueryInfo.itrExhausted = false → consumed = [] →
      itr.rangeQueryInfo.endKey = .empty
  exhausted : itr.rangeQueryInfo.itrExhausted = true → consumed.length < steps
  running : itr.rangeQueryInfo.itrExhausted = false → consumed.length = steps

variable {itr : ResultsItr}

theorem stepped_new {settings : Settings} {db : VersionedDB} {ns startKey endKey : GoString}
    (opened : ResultsItr.new settings db ns startKey endKey = some itr) :
    Stepped settings db itr [] 0 := by
  have tracks := tracks_new opened
  rcases Option.map_eq_some_iff.mp opened with ⟨fresh, created, rfl⟩
  refine ⟨tracks, ⟨fresh, created, rfl⟩, ?_, ?_, ?_⟩
  · exact fun _ _ => rfl
  · simp
  · exact fun _ => rfl

section

variable {settings : Settings} {db : VersionedDB} {consumed : List VersionedKV}
  {steps : Nat}

theorem Stepped.length_le (stepped : Stepped settings db itr consumed steps) :
    consumed.length ≤ steps := by
  cases exhausted : itr.rangeQueryInfo.itrExhausted with
  | true => exact (stepped.exhausted exhausted).le
  | false => exact (stepped.running exhausted).le

theorem Stepped.next (stepped : Stepped settings db itr consumed steps) :
    ∃ later, Stepped settings db (itr.next settings.hashing).2 later (steps + 1) := by
  have bound := stepped.length_le
  rcases stepped.helper with ⟨fresh, created, built⟩
  cases items : itr.dbItr with
  | nil =>
    refine ⟨consumed, stepped.tracks.next_nil items, ?_, ?_, ?_, ?_⟩
    · refine ⟨fresh, created, ?_⟩
      simpa [ResultsItr.next, items, ResultsItr.updateRangeQueryInfo] using built
    · simp [ResultsItr.next, items, ResultsItr.updateRangeQueryInfo]
    · exact fun _ => Nat.lt_succ_of_le bound
    · simp [ResultsItr.next, items, ResultsItr.updateRangeQueryInfo]
  | cons item _ =>
    have running : itr.rangeQueryInfo.itrExhausted = false := by
      rw [← Bool.not_eq_true]
      intro exhausted
      have drained := (stepped.tracks.exhausted exhausted).1
      rw [items] at drained
      cases drained
    refine ⟨consumed ++ [item], stepped.tracks.next_cons items, ?_, ?_, ?_, ?_⟩
    · refine ⟨fresh, created, ?_⟩
      simp [ResultsItr.next, items, ResultsItr.updateRangeQueryInfo, built,
        RangeQueryResultsHelper.addResults, kvReadOf]
    · simp
    · simp [ResultsItr.next, items, ResultsItr.updateRangeQueryInfo, running]
    · intro _
      rw [List.length_append, stepped.running running, List.length_singleton]

/-! ## What is recorded of an iterator -/

variable {fresh : RangeQueryResultsHelper} {maxDegree : UInt32} {hashing : Hashing}

theorem done_of_disabled
    (created : newRangeQueryResultsHelper false maxDegree = some fresh) (reads : List KVRead) :
    (fresh.addResults hashing reads).done hashing = (reads, none) := by
  have adds (pending reads : List KVRead) : RangeQueryResultsHelper.addResults hashing
          ⟨pending, none, maxDegree⟩ reads =
        ⟨pending ++ reads, none, maxDegree⟩ := by
    induction reads generalizing pending with
    | nil => rw [List.append_nil]; rfl
    | cons _ _ ih =>
      rw [List.append_cons, ← ih]
      rfl
  cases created
  rw [adds]
  rfl

theorem done_of_length_le_one {enableHashing : Bool}
    (created : newRangeQueryResultsHelper enableHashing maxDegree = some fresh)
    {reads : List KVRead} (short : reads.length ≤ 1) :
    (fresh.addResults hashing reads).done hashing = (reads, none) := by
  cases enableHashing with
  | false => exact done_of_disabled created reads
  | true =>
    simp only [newRangeQueryResultsHelper, newMerkleTree, if_true] at created
    split at created
    · cases created
    · rename_i atLeastTwo
      cases created
      cases reads with
      | nil => rfl
      | cons first rest =>
        cases rest with
        | nil =>
          have pending : ¬ maxDegree < UInt32.ofNat 1 := by
            intro below
            exact atLeastTwo (UInt32.lt_trans below (by decide))
          have kept : RangeQueryResultsHelper.addResults hashing
                  ⟨[], some ⟨[[]], maxDegree⟩, maxDegree⟩ [first] =
                ⟨[first], some ⟨[[]], maxDegree⟩, maxDegree⟩ :=
            if_neg pending
          rw [kept]
          rfl
        | cons => simp at short

theorem Stepped.readsInfo_completedInfo (stepped : Stepped settings db itr consumed steps) :
    ((itr.completedInfo settings.hashing).readsInfo = none ∧ consumed = []) ∨
      (itr.completedInfo settings.hashing).readsInfo = some (.rawReads ⟨consumed.map kvReadOf⟩) ∨
      ∃ summary, (itr.completedInfo settings.hashing).readsInfo =
            some (.readsMerkleHashes summary) ∧
          (itr.rangeQueryResultsHelper.done settings.hashing).2 = some summary := by
  rcases stepped.tracks.represents.done with raw | ⟨summary, hashed, _⟩
  · cases entries : consumed with
    | nil =>
      left
      rw [entries, List.map_nil] at raw
      simp [ResultsItr.completedInfo, raw, stepped.tracks.readsInfo]
    | cons _ _ =>
      right
      left
      rw [entries, List.map_cons] at raw
      simp [ResultsItr.completedInfo, raw]
  · right
    right
    exact ⟨summary, by simp [ResultsItr.completedInfo, hashed], by rw [hashed]⟩

/-! ## Validating what was recorded -/

theorem results_unchanged (db : VersionedDB) (ns startKey endKey : GoString) (itrExhausted : Bool) :
    resultsOn db UpdateBatch.new ns startKey endKey (!itrExhausted) =
      requeried db ns startKey endKey itrExhausted := by
  rw [resultsOn_eq, VersionedDB.applyUpdates_new]
  rfl

theorem Stepped.validateRangeQuery_of_requeried (stepped : Stepped settings db itr consumed steps)
    (small : consumed.length < 2 ^ 64)
    (found : requeried db itr.ns itr.rangeQueryInfo.startKey itr.rangeQueryInfo.endKey
          itr.rangeQueryInfo.itrExhausted =
        consumed) :
    validateRangeQuery settings.hashing db UpdateBatch.new itr.ns
        (itr.completedInfo settings.hashing) = .ok true := by
  rcases stepped.tracks.completedInfo with ⟨startEq, endEq, exhaustedEq, _⟩
  simp only [validateRangeQuery, startEq, endEq, exhaustedEq, results_unchanged, found]
  rcases stepped.readsInfo_completedInfo with ⟨info, rfl⟩ | info | ⟨_, info, recorded⟩
  · rw [info]
    rfl
  · rw [info]
    exact validateRawReads_map_kvReadOf consumed
  · rw [info]
    rcases stepped.helper with ⟨_, created, built⟩
    rw [built] at recorded
    cases enabled : settings.queryReadsHashingEnabled with
    | false =>
      rw [enabled] at created
      rw [done_of_disabled created] at recorded
      cases recorded
    | true =>
      rw [enabled] at created
      rcases validateMerkle_eq_true_of_done created small recorded with ⟨degree, valid⟩
      simp only [degree, created, Outcome.deref_some, Outcome.ok_bind]
      exact valid

theorem Stepped.requeried_of_exhausted (stepped : Stepped settings db itr consumed steps)
    (exhausted : itr.rangeQueryInfo.itrExhausted = true) :
    requeried db itr.ns itr.rangeQueryInfo.startKey itr.rangeQueryInfo.endKey
        itr.rangeQueryInfo.itrExhausted =
      consumed := by
  rcases stepped.tracks.exhausted exhausted with ⟨drained, endKeyEq⟩
  have range := stepped.tracks.range
  rw [drained, List.append_nil] at range
  rw [exhausted, endKeyEq, requeried, closedRange, ← range]
  simp [rangeOf]

variable {last : VersionedKV}

theorem Stepped.requeried_of_running (stepped : Stepped settings db itr consumed steps)
    {front : List VersionedKV} (consumedEq : consumed = front ++ [last])
    (bounded : last.1 ≠ .empty) :
    requeried db itr.ns itr.rangeQueryInfo.startKey last.1 false = consumed := by
  have member := stepped.tracks.mem_consumed_iff consumedEq
  have lastFound : db.getState itr.ns last.1 = some last.2 :=
    ((member last).mp (by simp [consumedEq])).1
  have lastAbove : itr.rangeQueryInfo.startKey ≤ last.1 :=
    ((member last).mp (by simp [consumedEq])).2.1
  have sorted : SortedByKey (requeried db itr.ns itr.rangeQueryInfo.startKey last.1 false) := by
    simp only [requeried, closedRange, lastFound]
    apply List.pairwise_append.mpr
    refine ⟨VersionedDB.rangeScan_sortedByKey _ _ _ _, by simp, ?_⟩
    intro _ inside other isLast
    rw [VersionedDB.mem_rangeScan_iff] at inside
    have otherEq : other = (last.1, last.2) := by simpa using isLast
    rw [otherEq]
    exact inside.2.2.resolve_left bounded
  refine sorted.eq_of_mem_iff stepped.tracks.sortedByKey ?_
  rintro ⟨_, value⟩
  rw [member, requeried, closedRange, List.mem_append, VersionedDB.mem_rangeScan_iff]
  simp only [Bool.not_false, if_true, Option.mem_toList, Option.map_eq_some_iff, Prod.mk.injEq]
  constructor
  · rintro (⟨found, above, unbounded | below⟩ | ⟨_, found, rfl, rfl⟩)
    · exact absurd unbounded bounded
    · exact ⟨found, above, below.le⟩
    · exact ⟨found, lastAbove, le_rfl⟩
  · rintro ⟨found, above, below⟩
    rcases below.lt_or_eq with less | equal
    · exact .inl ⟨found, above, .inr less⟩
    · exact .inr ⟨value, equal ▸ found, equal.symm, rfl⟩

/-- A recorded query can be found again in the state it was made on. -/
def Recoverable (db : VersionedDB) (ns startKey endKey : GoString) (itrExhausted : Bool) : Prop :=
  itrExhausted = true ∨ endKey ≠ .empty ∨ db.getStateRangeScanIterator ns startKey .empty = [] ∧
      db.getState ns .empty = none

section

variable (stepped : Stepped settings db itr consumed steps)
include stepped

theorem Stepped.validateRangeQuery_of_length_le_one (short : consumed.length ≤ 1) :
    validateRangeQuery settings.hashing db UpdateBatch.new itr.ns
        (itr.completedInfo settings.hashing) =
      validateRawReads (consumed.map kvReadOf) (requeried db itr.ns itr.rangeQueryInfo.startKey
          itr.rangeQueryInfo.endKey itr.rangeQueryInfo.itrExhausted) := by
  rcases stepped.tracks.completedInfo with ⟨startEq, endEq, exhaustedEq, _⟩
  simp only [validateRangeQuery, startEq, endEq, exhaustedEq, results_unchanged]
  rcases stepped.readsInfo_completedInfo with ⟨info, rfl⟩ | info | ⟨_, _, recorded⟩
  · rw [info]
    rfl
  · rw [info]
  · rcases stepped.helper with ⟨_, created, built⟩
    rw [built, done_of_length_le_one created (by simpa using short)] at recorded
    cases recorded

theorem Stepped.not_valid_of_last_empty
    (running : itr.rangeQueryInfo.itrExhausted = false) (consumedEq : consumed = [last])
    (lastEmpty : last.1 = .empty) :
    validateRangeQuery settings.hashing db UpdateBatch.new itr.ns
        (itr.completedInfo settings.hashing) ≠ .ok true := by
  intro valid
  rw [stepped.validateRangeQuery_of_length_le_one (by simp [consumedEq])] at valid
  have sameReads := validateRawReads_eq_true valid
  have endKeyEq : itr.rangeQueryInfo.endKey = .empty := by
    rw [stepped.tracks.running running last (by simp [consumedEq]), lastEmpty]
  have lastBounds := (stepped.tracks.mem_consumed_iff (consumedEq.trans (List.nil_append _).symm)
      last).mp (by simp [consumedEq])
  rw [lastEmpty] at lastBounds
  have inside : (.empty, last.2) ∈
        db.getStateRangeScanIterator itr.ns itr.rangeQueryInfo.startKey .empty := by
    rw [VersionedDB.mem_rangeScan_iff]
    exact ⟨lastBounds.1, lastBounds.2.1, .inl rfl⟩
  have twice := congrArg List.length sameReads
  have noOther : db.getStateRangeScanIterator itr.ns itr.rangeQueryInfo.startKey .empty = [] := by
    simpa [requeried, closedRange, running, endKeyEq, lastBounds.1, consumedEq] using twice
  rw [noOther] at inside
  cases inside

theorem Stepped.validateRangeQuery_iff_recoverable (small : consumed.length < 2 ^ 64) :
    validateRangeQuery settings.hashing db UpdateBatch.new itr.ns
          (itr.completedInfo settings.hashing) = .ok true ↔
      Recoverable db itr.ns itr.rangeQueryInfo.startKey
        itr.rangeQueryInfo.endKey itr.rangeQueryInfo.itrExhausted := by
  cases exhausted : itr.rangeQueryInfo.itrExhausted with
  | true =>
    have valid := stepped.validateRangeQuery_of_requeried small
        (stepped.requeried_of_exhausted exhausted)
    exact ⟨fun _ => .inl rfl, fun _ => valid⟩
  | false =>
    rcases List.eq_nil_or_concat consumed with unmoved | ⟨_, last, moved⟩
    · have endKeyEq := stepped.untouched exhausted unmoved
      rw [stepped.validateRangeQuery_of_length_le_one (by simp [unmoved]), unmoved,
        exhausted, endKeyEq, Recoverable, requeried, closedRange]
      simp [validateRawReads]
    · rw [List.concat_eq_append] at moved
      have endKeyEq : itr.rangeQueryInfo.endKey = last.1 :=
        stepped.tracks.running exhausted last (by simp [moved])
      by_cases lastEmpty : last.1 = .empty
      · have frontNil := stepped.tracks.front_eq_nil moved lastEmpty
        rw [frontNil] at moved
        have lastFound := stepped.tracks.found last (by simp [moved])
        rw [lastEmpty] at lastFound
        have invalid := stepped.not_valid_of_last_empty exhausted moved lastEmpty
        simp [Recoverable, invalid, endKeyEq, lastEmpty, lastFound]
      · have valid := stepped.validateRangeQuery_of_requeried small (by
              rw [exhausted, endKeyEq]
              exact stepped.requeried_of_running moved lastEmpty)
        rw [endKeyEq]
        exact ⟨fun _ => .inr (.inl lastEmpty), fun _ => valid⟩

end

/--
An iterator over a range from the start key on that was advanced a number of
times, in a state that has not changed.  Without any step, nothing may be stored
from the start key on, nor under the empty key.  One step must not return the
entry of the empty key.
-/
def Settled (db : VersionedDB) (ns startKey : GoString) : Nat → Prop
  | 0 => db.getStateRangeScanIterator ns startKey .empty = [] ∧ db.getState ns .empty = none
  | 1 => startKey = .empty → db.getState ns .empty = none
  | _ + 2 => True

theorem empty_mem_rangeOf (startEmpty : itr.rangeQueryInfo.startKey = GoString.empty)
    {value : StoredValue} (found : db.getState itr.ns .empty = some value) :
    (.empty, value) ∈ rangeOf db itr := by
  rw [rangeOf, VersionedDB.rangeScan_reader, VersionedDB.mem_rangeScan_iff]
  refine ⟨found, startEmpty.le, ?_⟩
  exact (GoString.empty_le itr.endKey).eq_or_lt.imp Eq.symm id

theorem Stepped.settled_of_exhausted (stepped : Stepped settings db itr consumed steps)
    (exhausted : itr.rangeQueryInfo.itrExhausted = true) :
    Settled db itr.ns itr.rangeQueryInfo.startKey steps := by
  have advanced := stepped.exhausted exhausted
  match steps, advanced with
  | 1, advanced =>
    have unmoved : consumed = [] := by
      rw [← List.length_eq_zero_iff]
      omega
    have range := stepped.tracks.range
    rw [unmoved, (stepped.tracks.exhausted exhausted).1] at range
    intro startEmpty
    rw [Option.eq_none_iff_forall_ne_some]
    intro _ found
    have inside := empty_mem_rangeOf startEmpty found
    rw [range] at inside
    cases inside
  | steps + 2, _ => trivial

/-- After one step, the entry of the empty key was returned or is not in range. -/
theorem Stepped.last_ne_empty_iff (stepped : Stepped settings db itr [last] steps) :
    last.1 ≠ .empty ↔ (itr.rangeQueryInfo.startKey = .empty →
        db.getState itr.ns .empty = none) := by
  have lastFound := stepped.tracks.found last (by simp)
  constructor
  · intro bounded startEmpty
    rw [Option.eq_none_iff_forall_ne_some]
    intro _ found
    have range := stepped.tracks.range
    have sorted : SortedByKey (last :: itr.dbItr) := by
      rw [← List.singleton_append, ← range]
      exact VersionedDB.rangeScan_sortedByKey _ _ _ _
    have inside := empty_mem_rangeOf startEmpty found
    rw [range, List.singleton_append] at inside
    rcases List.mem_cons.mp inside with isLast | later
    · exact bounded (congrArg Prod.fst isLast).symm
    · exact GoString.not_lt_empty _ (sorted.head_lt later)
  · intro absent lastEmpty
    have bounds := (stepped.tracks.mem_consumed_iff (List.nil_append _).symm last).mp (by simp)
    rw [lastEmpty] at bounds lastFound
    rw [absent (bounds.2.1.antisymm (GoString.empty_le _))] at lastFound
    cases lastFound

theorem Stepped.recoverable_iff_settled (stepped : Stepped settings db itr consumed steps) :
    Recoverable db itr.ns itr.rangeQueryInfo.startKey itr.rangeQueryInfo.endKey
        itr.rangeQueryInfo.itrExhausted ↔
      Settled db itr.ns itr.rangeQueryInfo.startKey steps := by
  cases exhausted : itr.rangeQueryInfo.itrExhausted with
  | true => exact ⟨fun _ => stepped.settled_of_exhausted exhausted, fun _ => .inl rfl⟩
  | false =>
    have counted := stepped.running exhausted
    rcases List.eq_nil_or_concat consumed with rfl | ⟨front, last, moved⟩
    · have endKeyEq := stepped.untouched exhausted rfl
      rw [← counted, endKeyEq]
      simp [Recoverable, Settled]
    · rw [List.concat_eq_append] at moved
      have endKeyEq : itr.rangeQueryInfo.endKey = last.1 :=
        stepped.tracks.running exhausted last (by simp [moved])
      have lastFound := stepped.tracks.found last (by simp [moved])
      have bounded : Recoverable db itr.ns itr.rangeQueryInfo.startKey
              itr.rangeQueryInfo.endKey false ↔
            last.1 ≠ .empty := by
        rw [endKeyEq]
        constructor
        · rintro (impossible | bounded | ⟨_, absent⟩) lastEmpty
          · cases impossible
          · exact bounded lastEmpty
          · rw [← lastEmpty, lastFound] at absent
            cases absent
        · exact fun bounded => .inr (.inl bounded)
      rw [bounded]
      cases front with
      | nil =>
        rw [List.nil_append] at moved
        rw [moved] at stepped counted
        rw [← counted]
        exact stepped.last_ne_empty_iff
      | cons _ rest =>
        have several : ∃ more, steps = more + 2 := by
          rw [moved] at counted
          exact ⟨rest.length, by simpa using counted.symm⟩
        rcases several with ⟨more, rfl⟩
        refine ⟨fun _ => trivial, ?_⟩
        intro _ lastEmpty
        have impossible := stepped.tracks.front_eq_nil moved lastEmpty
        cases impossible

end

/-! ## Counting the steps of a run -/

/-- The exchange advanced the iterator. -/
def Advances (index : Nat) (exchange : Call × Response) : Prop :=
  exchange.1 = .next index ∧ exchange.2 ≠ .error

instance (index : Nat) (exchange : Call × Response) : Decidable (Advances index exchange) :=
  inferInstanceAs (Decidable (_ ∧ _))

def advances (exchanges : List (Call × Response)) (index : Nat) : Nat :=
  exchanges.countP fun exchange => decide (Advances index exchange)

/-- The exchange opened an iterator on a namespace from a start key on. -/
def Opens (ns startKey : GoString) (index : Nat) (exchange : Call × Response) : Prop :=
  ∃ endKey, exchange = (.getStateRangeScanIterator ns startKey endKey, .iterator index)

@[simp]
theorem advances_append_singleton (exchanges : List (Call × Response)) (exchange : Call × Response)
    (index : Nat) :
    advances (exchanges ++ [exchange]) index =
      advances exchanges index + if Advances index exchange then 1 else 0 := by
  by_cases advanced : Advances index exchange
  · simp [advances, advanced]
  · simp [advances, advanced]

/-- The iterators of the simulator are those of the exchanges so far. -/
structure Accounted (settings : Settings) (db : VersionedDB) (simulator : TxSimulator)
    (past : List (Call × Response)) : Prop where
  stepped : ∀ (index : Nat) (itr : ResultsItr), simulator.itrs[index]? = some itr →
      ∃ consumed, Stepped settings db itr consumed (advances past index)
  opening : ∀ (index : Nat) (itr : ResultsItr), simulator.itrs[index]? = some itr →
      ∃ exchange ∈ past, Opens itr.ns itr.rangeQueryInfo.startKey index exchange
  opened : ∀ (ns startKey : GoString) (index : Nat), ∀ exchange ∈ past,
      Opens ns startKey index exchange → ∃ itr, simulator.itrs[index]? = some itr ∧ itr.ns = ns ∧
          itr.rangeQueryInfo.startKey = startKey
  unopened : ∀ index, simulator.itrs.length ≤ index → advances past index = 0

theorem accounted_new (settings : Settings) (db : VersionedDB) :
    Accounted settings db TxSimulator.new [] := by
  refine ⟨?_, ?_, ?_, ?_⟩
  · simp [TxSimulator.new]
  · simp [TxSimulator.new]
  · simp
  · exact fun _ _ => rfl

section

variable {settings : Settings} {db : VersionedDB} {simulator : TxSimulator}
  {past : List (Call × Response)}

theorem Accounted.unrelated (accounted : Accounted settings db simulator past) {later : TxSimulator}
    (sameItrs : later.itrs = simulator.itrs) {exchange : Call × Response}
    (opensNone : ∀ ns startKey index, ¬ Opens ns startKey index exchange)
    (advancesNone : ∀ index, ¬ Advances index exchange) :
    Accounted settings db later (past ++ [exchange]) := by
  constructor
  · intro index itr found
    rw [advances_append_singleton, if_neg (advancesNone index), Nat.add_zero]
    exact accounted.stepped index itr (sameItrs ▸ found)
  · intro index itr found
    rcases accounted.opening index itr (sameItrs ▸ found) with ⟨opening, member, opens⟩
    exact ⟨opening, List.mem_append_left _ member, opens⟩
  · intro ns startKey index other member opens
    rcases List.mem_append.mp member with earlier | new
    · rw [sameItrs]
      exact accounted.opened ns startKey index other earlier opens
    · rw [List.mem_singleton.mp new] at opens
      exact absurd opens (opensNone ns startKey index)
  · intro index bound
    rw [advances_append_singleton, if_neg (advancesNone index), Nat.add_zero]
    exact accounted.unopened index (sameItrs ▸ bound)

variable {index : Nat}

private theorem getElem?_append_singleton {Item : Type} {items : List Item} {item found : Item}
    (lookup : (items ++ [item])[index]? = some found) :
    items[index]? = some found ∨ index = items.length ∧ found = item := by
  rw [List.getElem?_append] at lookup
  split at lookup
  · exact .inl lookup
  · rcases List.getElem?_eq_some_iff.mp lookup with ⟨bound, same⟩
    right
    rw [List.length_singleton] at bound
    refine ⟨by omega, ?_⟩
    simpa using same.symm

theorem Accounted.open (accounted : Accounted settings db simulator past)
    {ns startKey endKey : GoString}
    (opened : ResultsItr.new settings db ns startKey endKey = some itr) :
    Accounted settings db { simulator with itrs := simulator.itrs ++ [itr] }
      (past ++ [(.getStateRangeScanIterator ns startKey endKey,
          .iterator simulator.itrs.length)]) := by
  have advancesNone (index : Nat) : ¬ Advances index (.getStateRangeScanIterator ns startKey endKey,
          .iterator simulator.itrs.length) := by
    simp [Advances]
  have itrFacts : itr.ns = ns ∧ itr.rangeQueryInfo.startKey = startKey := by
    rcases Option.map_eq_some_iff.mp opened with ⟨_, _, rfl⟩
    exact ⟨rfl, rfl⟩
  constructor
  · intro index other found
    rw [advances_append_singleton, if_neg (advancesNone index), Nat.add_zero]
    rcases getElem?_append_singleton found with earlier | ⟨rfl, rfl⟩
    · exact accounted.stepped index other earlier
    · rw [accounted.unopened _ le_rfl]
      exact ⟨[], stepped_new opened⟩
  · intro index other found
    rcases getElem?_append_singleton found with earlier | ⟨rfl, rfl⟩
    · rcases accounted.opening index other earlier with ⟨opening, member, opens⟩
      exact ⟨opening, List.mem_append_left _ member, opens⟩
    · refine ⟨_, List.mem_append_right _ (List.mem_singleton_self _), endKey, ?_⟩
      rw [itrFacts.1, itrFacts.2]
  · intro otherNs otherStart index exchange member opens
    rcases List.mem_append.mp member with earlier | new
    · rcases accounted.opened otherNs otherStart index exchange earlier opens with
        ⟨other, found, facts⟩
      refine ⟨other, ?_, facts⟩
      rw [List.getElem?_append_left (List.getElem?_eq_some_iff.mp found).1]
      exact found
    · rw [List.mem_singleton.mp new] at opens
      rcases opens with ⟨_, same⟩
      cases same
      exact ⟨itr, List.getElem?_concat_length, itrFacts⟩
  · intro index bound
    rw [advances_append_singleton, if_neg (advancesNone index), Nat.add_zero]
    apply accounted.unopened
    rw [List.length_append] at bound
    omega

theorem Accounted.next (accounted : Accounted settings db simulator past)
    (found : simulator.itrs[index]? = some itr) :
    Accounted settings db
      { simulator with itrs := simulator.itrs.set index (itr.next settings.hashing).2 }
      (past ++ [(.next index, .queryResult (itr.next settings.hashing).1)]) := by
  have bound := (List.getElem?_eq_some_iff.mp found).1
  have sameRange := advanced_next settings.hashing itr
  have opensNone (ns startKey : GoString) (other : Nat) : ¬ Opens ns startKey other
        (.next index, .queryResult (itr.next settings.hashing).1) := by
    simp [Opens]
  constructor
  · intro other later lookup
    rw [advances_append_singleton]
    by_cases same : index = other
    · rw [← same, List.getElem?_set_self bound, Option.some.injEq] at lookup
      rcases accounted.stepped index itr found with ⟨_, stepped⟩
      rw [← same, ← lookup, if_pos (by simp [Advances])]
      exact stepped.next
    · rw [List.getElem?_set_ne same] at lookup
      rw [if_neg (by simp [Advances, same]), Nat.add_zero]
      exact accounted.stepped other later lookup
  · intro other later lookup
    by_cases same : index = other
    · rw [← same, List.getElem?_set_self bound, Option.some.injEq] at lookup
      rcases accounted.opening index itr found with ⟨opening, member, opens⟩
      rw [← same, ← lookup, sameRange.ns, sameRange.startKey]
      exact ⟨opening, List.mem_append_left _ member, opens⟩
    · rw [List.getElem?_set_ne same] at lookup
      rcases accounted.opening other later lookup with ⟨opening, member, opens⟩
      exact ⟨opening, List.mem_append_left _ member, opens⟩
  · intro ns startKey other exchange member opens
    rcases List.mem_append.mp member with earlier | new
    · rcases accounted.opened ns startKey other exchange earlier opens with ⟨opened, lookup, facts⟩
      by_cases same : index = other
      · rw [← same, found, Option.some.injEq] at lookup
        refine ⟨(itr.next settings.hashing).2, ?_, ?_⟩
        · rw [← same]
          exact List.getElem?_set_self bound
        · rw [sameRange.ns, sameRange.startKey, lookup]
          exact facts
      · exact ⟨opened, by rw [List.getElem?_set_ne same, lookup], facts⟩
    · rw [List.mem_singleton.mp new] at opens
      exact absurd opens (opensNone ns startKey other)
  · intro other unopened
    rw [List.length_set] at unopened
    have differs : index ≠ other := by omega
    rw [advances_append_singleton, if_neg (by simp [Advances, differs]), Nat.add_zero]
    exact accounted.unopened other unopened

theorem itrs_getStateMultipleKeys (ns : GoString) (keys : List GoString) :
    (simulator.getStateMultipleKeys db ns keys).2.itrs = simulator.itrs := by
  induction keys generalizing simulator with
  | nil => rfl
  | cons _ keys ih =>
    rw [TxSimulator.getStateMultipleKeys, ih]
    rfl

theorem itrs_setState (ns key : GoString) (value : Slice) :
    (simulator.setState settings ns key value).2.itrs = simulator.itrs := by
  unfold TxSimulator.setState
  split
  · rfl
  · rfl

theorem Accounted.serve (accounted : Accounted settings db simulator past) (request : Call) :
    Accounted settings db (simulator.serve settings db request).2
      (past ++ [(request, (simulator.serve settings db request).1)]) := by
  cases request with
  | getState ns key =>
    refine accounted.unrelated ?_ ?_ ?_
    · rfl
    · simp [Opens]
    · simp [Advances]
  | getStateMultipleKeys ns keys =>
    refine accounted.unrelated (itrs_getStateMultipleKeys ns keys) ?_ ?_
    · simp [Opens]
    · simp [Advances]
  | getStateRangeScanIterator ns startKey endKey =>
    simp only [TxSimulator.serve]
    cases opened : ResultsItr.new settings db ns startKey endKey with
    | none =>
      refine accounted.unrelated rfl ?_ ?_
      · simp [Opens]
      · simp [Advances]
    | some itr => exact accounted.open opened
  | next index =>
    simp only [TxSimulator.serve]
    cases found : simulator.itrs[index]? with
    | none =>
      refine accounted.unrelated rfl ?_ ?_
      · simp [Opens]
      · simp [Advances]
    | some itr => exact accounted.next found
  | setState ns key value =>
    refine accounted.unrelated (itrs_setState ns key value) ?_ ?_
    · simp [Opens]
    · simp [Advances]
  | deleteState ns key =>
    refine accounted.unrelated (itrs_setState ns key none) ?_ ?_
    · simp [Opens]
    · simp [Advances]

theorem Accounted.run (accounted : Accounted settings db simulator past) (simulation : Simulation) :
    Accounted settings db (simulation.run settings db simulator).2
      (past ++ (simulation.run settings db simulator).1) := by
  induction simulation generalizing simulator past with
  | finish =>
    rw [Simulation.run, List.append_nil]
    exact accounted
  | call request _ ih =>
    rw [Simulation.run, List.append_cons]
    exact ih _ (accounted.serve request)

end

/-! ## Transactions -/

/-- Every iterator that the simulation opened is settled by its steps. -/
def SettlesIterators (settings : Settings) (db : VersionedDB) (simulation : Simulation) : Prop :=
  let exchanges := (simulation.run settings db TxSimulator.new).1
  ∀ (ns startKey : GoString) (index : Nat), ∀ exchange ∈ exchanges,
    Opens ns startKey index exchange → Settled db ns startKey (advances exchanges index)

section

variable {settings : Settings} {db : VersionedDB} {simulation : Simulation}

/-- The condition for a database that is the state itself. -/
theorem validateTx_simulate_iff_settles
    (finite : (simulation.run settings db TxSimulator.new).1.length < 2 ^ 64) :
    validateTx settings.hashing db UpdateBatch.new
          (simulation.simulate settings db).2.wire = .ok .valid ↔
      SettlesIterators settings db simulation := by
  have faithful := (faithful_new settings db).run simulation
  have accounted := (accounted_new settings db).run simulation
  rw [List.nil_append] at accounted
  have small (index : Nat) :
      advances (simulation.run settings db TxSimulator.new).1 index < 2 ^ 64 :=
    List.countP_le_length.trans_lt finite
  rw [validateTx_wire]
  constructor
  · intro valid ns startKey index exchange member opens
    rcases accounted.opened ns startKey index exchange member opens with ⟨itr, found, rfl, rfl⟩
    -- A query is recorded once: the iterator may be represented by another.
    rcases faithful.exists_rangeQuery (List.mem_of_getElem? found) with
      ⟨other, otherOpened, sameNs, sameKey, recorded⟩
    rcases RWSetBuilder.exists_nsRwSet_of_rangeQueries recorded with ⟨nsRwSet, listed, nsEq, query⟩
    have otherValid := (validateTx_eq_valid valid nsRwSet listed).2 _ query
    rcases List.getElem?_of_mem otherOpened with ⟨otherIndex, otherFound⟩
    rcases accounted.stepped index itr found with ⟨consumed, stepped⟩
    rcases accounted.stepped otherIndex other otherFound with ⟨_, otherStepped⟩
    rw [nsEq, ← sameNs, otherStepped.validateRangeQuery_iff_recoverable
        (otherStepped.length_le.trans_lt (small otherIndex))] at otherValid
    rw [← stepped.recoverable_iff_settled]
    rcases stepped.tracks.completedInfo with ⟨startEq, endEq, exhaustedEq, _⟩
    rcases otherStepped.tracks.completedInfo with ⟨otherStartEq, otherEndEq, otherExhaustedEq, _⟩
    simp only [sameRangeQueryKey, Bool.and_eq_true, beq_iff_eq, startEq, endEq,
      exhaustedEq, otherStartEq, otherEndEq, otherExhaustedEq] at sameKey
    rw [sameKey.1.1, sameKey.1.2, sameKey.2, ← sameNs]
    exact otherValid
  · intro settles
    apply validateTx_eq_valid_of_forall
    · intro nsRwSet member kvRead read
      rcases (RWSetBuilder.recorded_of_mem_nsRwSets member).1 kvRead read with ⟨key, recorded⟩
      rw [reads_done] at recorded
      rw [faithful.reads _ key kvRead recorded]
      simp [validateKVRead, UpdateBatch.contains, newKVRead]
    · intro nsRwSet member _ query
      rw [(RWSetBuilder.recorded_of_mem_nsRwSets member).2] at query
      rcases faithful.exists_itr_of_rangeQuery query with ⟨itr, opened, sameNs, rfl⟩
      rcases List.getElem?_of_mem opened with ⟨index, found⟩
      rcases accounted.stepped index itr found with ⟨consumed, stepped⟩
      rcases accounted.opening index itr found with ⟨exchange, made, opens⟩
      rw [← sameNs]
      rw [stepped.validateRangeQuery_iff_recoverable (stepped.length_le.trans_lt (small index)),
        stepped.recoverable_iff_settled]
      exact settles _ _ index exchange made opens

/--
A transaction that is validated against the database it was simulated on is valid
exactly if all of its iterators are settled in the state that the database holds,
as long as it keeps to namespaces without zero bytes.
-/
theorem validateTx_simulate_eq_valid_iff {db : LevelDB.DB} {dbName : GoString} {channel : Channel}
    (holds : Holds db dbName channel) (free : NulFree dbName.bytes)
    (namespaced : Namespaced (simulation.simulate settings (reader db dbName)).2)
    (finite : (simulation.simulate settings (reader db dbName)).1.length < 2 ^ 64) :
    validateTx settings.hashing (reader db dbName) UpdateBatch.new
          (simulation.simulate settings (reader db dbName)).2.wire = .ok .valid ↔
      SettlesIterators settings channel.state simulation := by
  have agree := agree_of_holds holds free
  rw [validateTx_congr agree _ _ (namespaced_wire_iff.mpr namespaced)]
  rw [← simulate_congr agree namespaced] at finite ⊢
  exact validateTx_simulate_iff_settles finite

end

/-! ## An iterator that is never advanced -/

namespace Sample

def ns : GoString := .ascii "cc"

/-- The settings of the ledger; too few results are found to be hashed. -/
def settings : Settings where
  hashing := ⟨fun bytes => bytes, fun _ => []⟩
  queryReadsHashingEnabled := true
  maxDegreeQueryReadsHashing := 50
  validateKey _ := true

def dbName : GoString := .letter 'a'

def commit : Commit :=
  .of dbName [⟨ns, .letter 'b', ⟨some [1], ⟨1, 0⟩⟩⟩] ⟨1, 0⟩

/-- A database with one key. -/
def db : StateReader :=
  reader (LevelDB.writeBatch ∅ dbName commit.dbBatch) dbName

def channel : Channel :=
  ⟨VersionedDB.empty.applyUpdates commit.batch, some ⟨1, 0⟩⟩

/-- A chaincode that opens an iterator and advances it a number of times. -/
def advancing : Nat → Simulation
  | 0 => .finish
  | steps + 1 => .call (.next 0) fun _ => advancing steps

def query (steps : Nat) : Simulation :=
  .call (.getStateRangeScanIterator ns (.letter 'a') (.letter 'c')) fun _ => advancing steps

end Sample

/-- Both stopping points of the scan are found again. -/
theorem validateTx_simulate_eq_valid_iff_sample :
    [1, 2].Forall fun steps =>
      validateTx Sample.settings.hashing Sample.db UpdateBatch.new
          ((Sample.query steps).simulate Sample.settings Sample.db).2.wire = .ok .valid ∧
        SettlesIterators Sample.settings Sample.channel.state (Sample.query steps) := by
  have free : NulFree Sample.dbName.bytes := by decide
  have namespaced : IsNamespace Sample.ns := ⟨by decide, by decide⟩
  have wellFormed : Sample.commit.WellFormed :=
    Commit.wellFormed_of free (by simp [namespaced]) (by simp) _
  have own : Sample.commit.dbName = Sample.dbName := rfl
  have holds := (holds_empty Sample.dbName).commit free wellFormed
  rw [Channel.commit, if_pos own] at holds
  have recorded : ∀ steps ∈ [1, 2], ((Sample.query steps).simulate Sample.settings
        Sample.db).2.nsRwSets.map NsRwSet.nameSpace = [Sample.ns] := by
    decide +kernel
  have finite : ∀ steps ∈ [1, 2],
        ((Sample.query steps).simulate Sample.settings Sample.db).1.length < 2 ^ 64 := by
    decide +kernel
  have valid : ∀ steps ∈ [1, 2], validateTx Sample.settings.hashing Sample.db UpdateBatch.new
            ((Sample.query steps).simulate Sample.settings Sample.db).2.wire =
          .ok .valid := by
    decide +kernel
  rw [List.forall_iff_forall_mem]
  intro steps listed
  refine ⟨valid steps listed, ?_⟩
  have proper : Namespaced ((Sample.query steps).simulate Sample.settings Sample.db).2 := by
    intro nsRwSet member
    have named := recorded steps listed ▸ List.mem_map_of_mem member
    rw [List.mem_singleton.mp named]
    exact namespaced
  exact (validateTx_simulate_eq_valid_iff holds free proper (finite steps listed)).mp
    (valid steps listed)

/-- A transaction that only opens the iterator conflicts with its own state. -/
theorem unadvanced_iterator_conflicts :
    validateTx Sample.settings.hashing Sample.db UpdateBatch.new
        ((Sample.query 0).simulate Sample.settings Sample.db).2.wire =
      .ok .phantomReadConflict := by
  decide +kernel

end Fabric.Ledger.FalseConflicts
