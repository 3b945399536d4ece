import Fabric.Ledger.StateDB

/-!
# The combined iterator

While a block is validated, a range query is re-run on the committed state
with the pending updates of the block laid over it.  The combined iterator
walks the two sources in parallel, prefers the update when both hold a key,
skips deletions, and finally serves the end key when it is told to include
it.

The main result identifies what it returns: the scan of the state that would
result from applying the batch, followed by the end key.
-/

namespace Fabric.Ledger.CombinedIterator

open Library ByteString
open Library.OrderedStore (mergeUpdates scan)
open StateDB

/--
The state of the iterator.  The item fetched last from each source is kept at
the head of what the source still returns.
-/
structure CombinedItr where
  ns : GoString
  updates : UpdateBatch
  endKey : GoString
  includeEndKey : Bool
  dbItr : List VersionedKV
  updatesItr : List (GoString × VersionedValue)
  endKeyServed : Bool

/-- The item with the smaller key; deletions are skipped. -/
def selectItem : List VersionedKV → List (GoString × VersionedValue) →
    Option VersionedKV × List VersionedKV ×
      List (GoString × VersionedValue)
  | [], [] => (none, [], [])
  | dbItem :: dbItr, [] => (some dbItem, dbItr, [])
  | [], updatesItem :: updatesItr =>
    match updatesItem.2.stored with
    | none => selectItem [] updatesItr
    | some value => (some (updatesItem.1, value), [], updatesItr)
  | dbItem :: dbItr, updatesItem :: updatesItr =>
    match compare dbItem.1 updatesItem.1 with
    | .lt => (some dbItem, dbItr, updatesItem :: updatesItr)
    | .eq =>
      match updatesItem.2.stored with
      | none => selectItem dbItr updatesItr
      | some value => (some (updatesItem.1, value), dbItr, updatesItr)
    | .gt =>
      match updatesItem.2.stored with
      | none => selectItem (dbItem :: dbItr) updatesItr
      | some value => (some (updatesItem.1, value), dbItem :: dbItr, updatesItr)

section

/-! The reads of the database run in a monad of their own. -/

variable {m : Type → Type} [Monad m] (getState : GoString → GoString → m (Option StoredValue))
  (getStateRangeScanIterator :
    GoString → GoString → GoString → m (List VersionedKV))

def newCombinedIterator (updates : UpdateBatch) (ns startKey endKey : GoString)
    (includeEndKey : Bool) : m CombinedItr := do
  let dbItr ← getStateRangeScanIterator ns startKey endKey
  pure
    { ns := ns
      updates := updates
      endKey := endKey
      includeEndKey := includeEndKey
      dbItr := dbItr
      updatesItr := (NsIterator.new ns startKey endKey updates).results
      endKeyServed := false }

namespace CombinedItr

/-- The end key, served at most once and only if it is to be included. -/
def serveEndKeyIfNeeded (itr : CombinedItr) : m (Option VersionedKV × CombinedItr) :=
  if !itr.includeEndKey || itr.endKeyServed then
    pure (none, itr)
  else do
    let value ←
      match itr.updates.get itr.ns itr.endKey with
      | some entry => pure entry.stored
      | none => getState itr.ns itr.endKey
    pure (value.map fun value => (itr.endKey, value), { itr with endKeyServed := true })

def next (itr : CombinedItr) : m (Option VersionedKV × CombinedItr) :=
  match selectItem itr.dbItr itr.updatesItr with
  | (some item, dbItr, updatesItr) =>
    pure (some item, { itr with dbItr := dbItr, updatesItr := updatesItr })
  | (none, dbItr, updatesItr) =>
    serveEndKeyIfNeeded getState { itr with dbItr := dbItr, updatesItr := updatesItr }

/-- Call `next` until it returns nothing, at most the given number of times. -/
def drain : Nat → CombinedItr → m (List VersionedKV)
  | 0, _ => pure []
  | fuel + 1, itr => do
      let (item, later) ← itr.next getState
      match item with
      | none => pure []
      | some item => do
          let items ← drain fuel later
          pure (item :: items)

def results (itr : CombinedItr) : m (List VersionedKV) :=
  itr.drain getState (itr.dbItr.length + itr.updatesItr.length + 1)

end CombinedItr

/-- The results of an iterator that is created for a range and then drained. -/
def combinedResults (updates : UpdateBatch) (ns startKey endKey : GoString)
    (includeEndKey : Bool) : m (List VersionedKV) := do
  let itr ← newCombinedIterator getStateRangeScanIterator updates ns startKey endKey includeEndKey
  itr.results getState

end

/-- The results over a database whose reads return. -/
def resultsOn (db : StateReader) (updates : UpdateBatch) (ns startKey endKey : GoString)
    (includeEndKey : Bool) : List VersionedKV :=
  Id.run (combinedResults (fun ns key => pure (db.getState ns key))
    (fun ns startKey endKey => pure (db.getStateRangeScanIterator ns startKey endKey))
    updates ns startKey endKey includeEndKey)

/-! ## What the iterator returns -/

/-- The pending updates in the form that a merge takes. -/
private def pending (updates : List (GoString × VersionedValue)) :
    List (GoString × Option StoredValue) :=
  updates.map fun entry => (entry.1, entry.2.stored)

section

variable (dbItr : List VersionedKV) (updatesItr : List (GoString × VersionedValue))
include dbItr updatesItr

private theorem mergeUpdates_eq_selectItem :
    mergeUpdates dbItr (pending updatesItr) = (selectItem dbItr updatesItr).1.toList ++
        mergeUpdates (selectItem dbItr updatesItr).2.1
          (pending (selectItem dbItr updatesItr).2.2) := by
  fun_induction selectItem dbItr updatesItr with
  | case5 _ dbItr updatesItem updatesItr smaller =>
    cases stored : updatesItem.2.stored <;> simp [pending, stored, mergeUpdates, smaller]
  | _ => simp_all [pending, mergeUpdates]

private theorem selectItem_none (exhausted : (selectItem dbItr updatesItr).1 = none) :
    (selectItem dbItr updatesItr).2 = ([], []) := by
  fun_induction selectItem dbItr updatesItr <;> simp_all

end

namespace CombinedItr

/-- The end key as it stands with the updates laid over its stored value. -/
private def endKeyItem (stored : Option StoredValue) (itr : CombinedItr) :
    List VersionedKV :=
  if itr.includeEndKey && !itr.endKeyServed then
    ((((itr.updates.get itr.ns itr.endKey).map VersionedValue.stored).getD stored).map
      fun value => (itr.endKey, value)).toList
  else
    []

private def view (stored : Option StoredValue) (itr : CombinedItr) :
    List VersionedKV :=
  mergeUpdates itr.dbItr (pending itr.updatesItr) ++ itr.endKeyItem stored

section

variable {m : Type → Type} [Monad m] [LawfulMonad m]
  {getState : GoString → GoString → m (Option StoredValue)} {stored : Option StoredValue}

private theorem serveEndKeyIfNeeded_eq {itr : CombinedItr}
    (found : getState itr.ns itr.endKey = pure stored) :
    ∃ served, itr.serveEndKeyIfNeeded getState =
        pure ((itr.endKeyItem stored).head?, { itr with endKeyServed := served }) ∧
      endKeyItem stored { itr with endKeyServed := served } = [] ∧
      (itr.endKeyItem stored).tail = [] := by
  by_cases serve : itr.includeEndKey && !itr.endKeyServed
  · have included : itr.includeEndKey = true := by simp_all
    have unserved : itr.endKeyServed = false := by simp_all
    refine ⟨true, ?_, by simp [endKeyItem], ?_⟩
    · simp only [serveEndKeyIfNeeded, endKeyItem, included, unserved]
      cases itr.updates.get itr.ns itr.endKey with
      | none => cases stored <;> simp [found]
      | some entry => cases content : entry.stored <;> simp [content]
    · simp only [endKeyItem, serve, if_true]
      cases ((itr.updates.get itr.ns itr.endKey).map VersionedValue.stored).getD stored <;> rfl
  · have withheld : !itr.includeEndKey || itr.endKeyServed := by
      cases included : itr.includeEndKey <;> simp_all
    exact ⟨itr.endKeyServed, by simp [serveEndKeyIfNeeded, endKeyItem, withheld, serve],
      by simp [endKeyItem, serve], by simp [endKeyItem, serve]⟩

private theorem next_eq {itr : CombinedItr} (found : getState itr.ns itr.endKey = pure stored) :
    ∃ later : CombinedItr, itr.next getState = pure ((itr.view stored).head?, later) ∧
      later.view stored = (itr.view stored).tail ∧ later.ns = itr.ns ∧
      later.endKey = itr.endKey := by
  have merged := mergeUpdates_eq_selectItem itr.dbItr itr.updatesItr
  rcases selected : selectItem itr.dbItr itr.updatesItr with ⟨item, dbItr, updatesItr⟩
  rw [selected] at merged
  cases item with
  | some item =>
    refine ⟨{ itr with dbItr := dbItr, updatesItr := updatesItr }, ?_, ?_, rfl, rfl⟩
    · simp [next, selected, view, merged]
    · simp only [view, merged, Option.toList_some, List.cons_append, List.tail_cons]
      rfl
  | none =>
    have rest := selectItem_none itr.dbItr itr.updatesItr (by rw [selected])
    rw [selected] at rest
    obtain ⟨rfl, rfl⟩ := Prod.mk.inj rest
    have noItems : mergeUpdates itr.dbItr (pending itr.updatesItr) = [] := by
      simpa [pending, mergeUpdates] using merged
    rcases @serveEndKeyIfNeeded_eq m _ _ getState stored { itr with dbItr := [], updatesItr := [] }
        found with
      ⟨served, called, spent, alone⟩
    refine ⟨{ itr with dbItr := [], updatesItr := [], endKeyServed := served }, ?_, ?_, rfl, rfl⟩
    · rw [next, selected, view, noItems, List.nil_append]
      exact called
    · have unread : mergeUpdates ([] : List VersionedKV) (pending []) = [] := by
        simp [pending, mergeUpdates]
      rw [view, view, spent, noItems, unread, List.nil_append, List.nil_append]
      exact alone.symm

/-- Draining the iterator lists its view, given what a read of the end key returns. -/
private theorem drain_eq {itr : CombinedItr} (fuel : Nat)
    (found : getState itr.ns itr.endKey = pure stored)
    (enough : (itr.view stored).length ≤ fuel) :
    itr.drain getState fuel = pure (itr.view stored) := by
  induction fuel generalizing itr with
  | zero => rw [drain, List.length_eq_zero_iff.mp (Nat.le_zero.mp enough)]
  | succ fuel ih =>
    rcases next_eq found with ⟨later, called, advanced, sameNs, sameEnd⟩
    rw [drain, called, pure_bind]
    cases items : itr.view stored with
    | nil => rfl
    | cons item rest =>
      rw [items, List.tail_cons] at advanced
      have laterEnough : (later.view stored).length ≤ fuel := by
        rw [advanced]
        simpa [items] using enough
      simp [ih (by rw [sameNs, sameEnd, found]) laterEnough, advanced]

private theorem results_eq {itr : CombinedItr} (found : getState itr.ns itr.endKey = pure stored) :
    itr.results getState = pure (itr.view stored) := by
  refine drain_eq _ found ?_
  have merged := OrderedStore.length_mergeUpdates_le itr.dbItr (pending itr.updatesItr)
  have last : (itr.endKeyItem stored).length ≤ 1 := by
    unfold endKeyItem
    split
    · exact Option.length_toList_le
    · simp
  rw [view, List.length_append]
  simp only [pending, List.length_map] at merged ⊢
  omega

end

end CombinedItr

/-- The range of a state, and then its end key if it is to be included. -/
def closedRange (state : VersionedDB) (ns startKey endKey : GoString)
    (includeEndKey : Bool) : List VersionedKV :=
  state.getStateRangeScanIterator ns startKey endKey ++ if includeEndKey then
      ((state.getState ns endKey).map fun value => (endKey, value)).toList
    else
      []

theorem mem_closedRange_iff {state : VersionedDB} {ns startKey endKey : GoString} {includeEndKey : Bool}
    {entry : VersionedKV} :
    entry ∈ closedRange state ns startKey endKey includeEndKey ↔
      state.getState ns entry.1 = some entry.2 ∧ (startKey ≤ entry.1 ∧
            (endKey = .empty ∨ entry.1 < endKey) ∨
          includeEndKey ∧ entry.1 = endKey) := by
  have served : (entry ∈ if includeEndKey then
          ((state.getState ns endKey).map fun value => (endKey, value)).toList
        else
          []) ↔
        state.getState ns entry.1 = some entry.2 ∧ includeEndKey ∧ entry.1 = endKey := by
    rcases entry with ⟨_, value⟩
    cases includeEndKey with
    | false => simp
    | true =>
      simp only [if_true, Option.mem_toList, Option.map_eq_some_iff, Prod.mk.injEq, true_and]
      constructor
      · rintro ⟨_, found, rfl, rfl⟩
        exact ⟨found, rfl⟩
      · rintro ⟨found, rfl⟩
        exact ⟨value, found, rfl, rfl⟩
  rw [closedRange, List.mem_append, VersionedDB.mem_rangeScan_iff, served, ← and_or_left]

/--
Over a database whose reads return those of a state, the combined iterator
returns the range of the state with the batch applied.
-/
theorem combinedResults_eq {m : Type → Type} [Monad m] [LawfulMonad m]
    {getState : GoString → GoString → m (Option StoredValue)}
    {getStateRangeScanIterator : GoString → GoString → GoString → m (List VersionedKV)}
    {state : VersionedDB} {ns startKey endKey : GoString}
    (found : getState ns endKey = pure (state.getState ns endKey))
    (scanned : getStateRangeScanIterator ns startKey endKey =
        pure (state.getStateRangeScanIterator ns startKey endKey))
    (updates : UpdateBatch) (includeEndKey : Bool) :
    combinedResults getState getStateRangeScanIterator updates ns startKey endKey includeEndKey =
      pure (closedRange (state.applyUpdates updates) ns startKey endKey includeEndKey) := by
  rw [combinedResults, newCombinedIterator, scanned, pure_bind, pure_bind,
    CombinedItr.results_eq found, CombinedItr.view, closedRange]
  congr 2
  · simp only [NsIterator.results_new, VersionedDB.getStateRangeScanIterator,
      VersionedDB.applyUpdates, OrderedStore.scan_applyUpdates, OrderedStore.scan_map, pending]
  · simp [CombinedItr.endKeyItem, VersionedDB.getState_applyUpdates]

/-- The iterator reads the range and the end key, and nothing else. -/
theorem resultsOn_congr {left right : StateReader} {ns startKey endKey : GoString}
    (found : left.getState ns endKey = right.getState ns endKey)
    (scanned : left.getStateRangeScanIterator ns startKey endKey =
        right.getStateRangeScanIterator ns startKey endKey)
    (updates : UpdateBatch) (includeEndKey : Bool) :
    resultsOn left updates ns startKey endKey includeEndKey =
      resultsOn right updates ns startKey endKey includeEndKey := by
  have drained (db : StateReader) (itr : CombinedItr) :
      itr.results (fun ns key => (pure (db.getState ns key) : Id _)) =
        pure (itr.view (db.getState itr.ns itr.endKey)) :=
    CombinedItr.results_eq rfl
  simp only [resultsOn, combinedResults, newCombinedIterator, pure_bind, drained, found, scanned]

theorem resultsOn_eq (db : VersionedDB) (updates : UpdateBatch) (ns startKey endKey : GoString)
    (includeEndKey : Bool) :
    resultsOn db updates ns startKey endKey includeEndKey =
      closedRange (db.applyUpdates updates) ns startKey endKey includeEndKey := by
  rw [resultsOn, @combinedResults_eq Id _ _ _ _ db ns startKey endKey rfl rfl]
  rfl

end Fabric.Ledger.CombinedIterator
