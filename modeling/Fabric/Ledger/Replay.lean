import Fabric.Ledger.Simulator

/-!
# Replaying a simulation on another state

When does a simulation observe the same values on two states?  It is enough
that the states agree on the keys it recorded as read, and that each of its
iterators finds on the second state the entries it returned on the first one:
all entries of the range if the iterator was exhausted, and the same initial
entries otherwise.

The argument is a lockstep one.  Recorded reads are never dropped and
iterators only move forward, so the condition on the final record covers every
single call.
-/

namespace Fabric.Ledger.Replay

open Library ByteString StateDB RWSet QueryResults Simulator

/-- The entries that an iterator was opened on. -/
def rangeOf (db : StateReader) (itr : ResultsItr) : List VersionedKV :=
  db.getStateRangeScanIterator itr.ns itr.rangeQueryInfo.startKey itr.endKey

/-! ## Iterators only move forward -/

/-- The second iterator is the first one after some more calls of `next`. -/
structure Advanced (itr later : ResultsItr) : Prop where
  ns : later.ns = itr.ns
  startKey : later.rangeQueryInfo.startKey = itr.rangeQueryInfo.startKey
  endKey : later.endKey = itr.endKey
  remaining : later.dbItr <:+ itr.dbItr
  exhausted : itr.rangeQueryInfo.itrExhausted = true → later.rangeQueryInfo.itrExhausted = true

theorem Advanced.refl (itr : ResultsItr) : Advanced itr itr :=
  ⟨rfl, rfl, rfl, List.suffix_refl _, id⟩

theorem Advanced.trans {first second third : ResultsItr} (earlier : Advanced first second)
    (later : Advanced second third) :
    Advanced first third where
  ns := later.ns.trans earlier.ns
  startKey := later.startKey.trans earlier.startKey
  endKey := later.endKey.trans earlier.endKey
  remaining := later.remaining.trans earlier.remaining
  exhausted := fun exhausted => later.exhausted (earlier.exhausted exhausted)

theorem Advanced.rangeOf_eq {itr later : ResultsItr} (advanced : Advanced itr later)
    (db : StateReader) :
    rangeOf db later = rangeOf db itr := by
  rw [rangeOf, rangeOf, advanced.ns, advanced.startKey, advanced.endKey]

theorem advanced_next (hashing : Hashing) (itr : ResultsItr) :
    Advanced itr (itr.next hashing).2 := by
  cases items : itr.dbItr with
  | nil =>
    simp only [ResultsItr.next, items, ResultsItr.updateRangeQueryInfo]
    exact ⟨rfl, rfl, rfl, by simp [items], fun _ => rfl⟩
  | cons _ _ =>
    simp only [ResultsItr.next, items, ResultsItr.updateRangeQueryInfo]
    exact ⟨rfl, rfl, rfl, by simp [items], id⟩

/-! ## The record only grows -/

/-- The second simulator is the first one after some more calls. -/
structure Extends (simulator later : TxSimulator) : Prop where
  reads : ∀ ns key, key ∈ simulator.rwsetBuilder.reads ns → key ∈ later.rwsetBuilder.reads ns
  itrs : ∀ (index : Nat) (itr : ResultsItr), simulator.itrs[index]? = some itr →
        ∃ final, later.itrs[index]? = some final ∧ Advanced itr final

theorem Extends.refl (simulator : TxSimulator) : Extends simulator simulator :=
  ⟨fun _ _ => id, fun _ itr found => ⟨itr, found, Advanced.refl itr⟩⟩

theorem Extends.trans {first second third : TxSimulator}
    (earlier : Extends first second) (later : Extends second third) :
    Extends first third := by
  refine ⟨fun ns key recorded => later.reads ns key (earlier.reads ns key recorded), ?_⟩
  intro index itr found
  obtain ⟨middle, middleFound, middleAdvanced⟩ := earlier.itrs index itr found
  obtain ⟨final, finalFound, finalAdvanced⟩ := later.itrs index middle middleFound
  exact ⟨final, finalFound, middleAdvanced.trans finalAdvanced⟩

theorem mem_reads_addToReadSet (builder : RWSetBuilder) (ns key otherNs otherKey : GoString)
    (version : Option Height) :
    otherKey ∈ (builder.addToReadSet ns key version).reads otherNs ↔
      (ns = otherNs ∧ key = otherKey) ∨ otherKey ∈ builder.reads otherNs := by
  rw [RWSetBuilder.reads_addToReadSet]
  by_cases same : ns = otherNs
  · subst same
    simp
  · simp [same]

theorem extends_getState (db : StateReader) (simulator : TxSimulator) (ns key : GoString) :
    Extends simulator (simulator.getState db ns key).2 := by
  refine ⟨?_, fun _ itr found => ⟨itr, found, Advanced.refl itr⟩⟩
  intro _ _ recorded
  exact (mem_reads_addToReadSet ..).mpr (Or.inr recorded)

theorem extends_getStateMultipleKeys (db : StateReader) (simulator : TxSimulator) (ns : GoString)
    (keys : List GoString) :
    Extends simulator (simulator.getStateMultipleKeys db ns keys).2 := by
  induction keys generalizing simulator with
  | nil => exact Extends.refl simulator
  | cons key keys ih => exact (extends_getState db simulator ns key).trans (ih _)

theorem extends_setState (settings : Settings) (simulator : TxSimulator) (ns key : GoString)
    (value : Slice) :
    Extends simulator (simulator.setState settings ns key value).2 := by
  unfold TxSimulator.setState
  split
  · refine ⟨?_, fun _ itr found => ⟨itr, found, Advanced.refl itr⟩⟩
    intro _ _ recorded
    simpa using recorded
  · exact Extends.refl simulator

theorem extends_serve (settings : Settings) (db : StateReader) (simulator : TxSimulator)
    (request : Call) :
    Extends simulator (simulator.serve settings db request).2 := by
  cases request with
  | getState ns key => exact extends_getState db simulator ns key
  | getStateMultipleKeys ns keys => exact extends_getStateMultipleKeys db simulator ns keys
  | getStateRangeScanIterator ns _ _ =>
    simp only [TxSimulator.serve]
    split
    · exact Extends.refl simulator
    · refine ⟨fun _ _ => id, ?_⟩
      intro index itr found
      refine ⟨itr, ?_, Advanced.refl itr⟩
      rw [List.getElem?_append_left]
      · exact found
      · exact (List.getElem?_eq_some_iff.mp found).1
  | next index =>
    simp only [TxSimulator.serve]
    split
    · exact Extends.refl simulator
    · rename_i itr found
      refine ⟨fun _ _ => id, ?_⟩
      intro other otherItr otherFound
      by_cases same : index = other
      · subst same
        obtain rfl : itr = otherItr := by simpa [found] using otherFound
        refine ⟨(itr.next settings.hashing).2, ?_, advanced_next settings.hashing itr⟩
        exact List.getElem?_set_self (List.getElem?_eq_some_iff.mp found).1
      · exact ⟨otherItr, by simpa [List.getElem?_set, same] using otherFound,
          Advanced.refl otherItr⟩
  | setState ns key value => exact extends_setState settings simulator ns key value
  | deleteState ns key => exact extends_setState settings simulator ns key none

theorem extends_run (settings : Settings) (db : StateReader) (simulation : Simulation)
    (simulator : TxSimulator) :
    Extends simulator (simulation.run settings db simulator).2 := by
  induction simulation generalizing simulator with
  | finish => exact Extends.refl simulator
  | call request _ ih => exact (extends_serve settings db simulator request).trans (ih _ _)

/-! ## Lockstep -/

variable {index : Nat}

variable {Left Right : Type*} {lefts : List Left} {left : Left}

private theorem forall₂_getElem? {relation : Left → Right → Prop} {rights : List Right}
    (related : List.Forall₂ relation lefts rights) (found : lefts[index]? = some left) :
    ∃ right, rights[index]? = some right ∧ relation left right := by
  induction related generalizing index with
  | nil => simp at found
  | @cons leftHead rightHead _ _ head _ ih =>
    cases index with
    | zero =>
      obtain rfl : leftHead = left := by simpa using found
      exact ⟨rightHead, rfl, head⟩
    | succ index => exact ih (by simpa using found)

private theorem forall₂_set {relation : Left → Right → Prop} {rights : List Right}
    (related : List.Forall₂ relation lefts rights) {right : Right} (new : relation left right) :
    List.Forall₂ relation (lefts.set index left) (rights.set index right) := by
  induction related generalizing index with
  | nil => exact .nil
  | cons head tail ih =>
    cases index with
    | zero => exact .cons new tail
    | succ index => exact .cons head ih

section

variable (original replayed : StateReader)

/-- The same iterator on both states, after the same entries. -/
structure SameItr (left right : ResultsItr) : Prop where
  fields : right = { left with dbItr := right.dbItr }
  consumed : ∃ consumed, rangeOf original left = consumed ++ left.dbItr ∧
        rangeOf replayed left = consumed ++ right.dbItr

/-- The same record on both states. -/
structure SameSimulator (left right : TxSimulator) : Prop where
  rwsetBuilder : right.rwsetBuilder = left.rwsetBuilder
  itrs : List.Forall₂ (SameItr original replayed) left.itrs right.itrs

/-- What an iterator saw on the original state is there on the other one. -/
structure Covered (itr : ResultsItr) : Prop where
  exhausted : itr.rangeQueryInfo.itrExhausted = true → rangeOf replayed itr = rangeOf original itr
  consumed : ∀ consumed, rangeOf original itr = consumed ++ itr.dbItr →
        consumed <+: rangeOf replayed itr

/-- The states agree on everything that the simulator recorded. -/
structure Agreement (final : TxSimulator) : Prop where
  reads : ∀ ns key, key ∈ final.rwsetBuilder.reads ns →
        original.getState ns key = replayed.getState ns key
  itrs : ∀ itr ∈ final.itrs, Covered original replayed itr

variable {original replayed}

theorem SameItr.next {left right final : ResultsItr} (same : SameItr original replayed left right)
    (hashing : Hashing) (advanced : Advanced (left.next hashing).2 final)
    (covered : Covered original replayed final) : (right.next hashing).1 = (left.next hashing).1 ∧
      SameItr original replayed (left.next hashing).2 (right.next hashing).2 := by
  obtain ⟨fields, consumed, onOriginal, onReplayed⟩ := same
  have toFinal := (advanced_next hashing left).trans advanced
  cases items : left.dbItr with
  | nil =>
    -- The iterator is exhausted, so the whole ranges agree.
    have finalExhausted : final.rangeQueryInfo.itrExhausted = true := by
      refine advanced.exhausted ?_
      simp [ResultsItr.next, items, ResultsItr.updateRangeQueryInfo]
    have ranges := covered.exhausted finalExhausted
    rw [toFinal.rangeOf_eq, toFinal.rangeOf_eq, onReplayed, onOriginal, items] at ranges
    have rightItems : right.dbItr = [] := by simpa using ranges
    rw [fields, rightItems]
    simp only [ResultsItr.next, items, ResultsItr.updateRangeQueryInfo]
    refine ⟨trivial, ?_, consumed, ?_, ?_⟩
    · simp
    · simpa [rangeOf, items] using onOriginal
    · simpa [rangeOf, items, rightItems] using onReplayed
  | cons item rest =>
    -- What was consumed in the end begins with this item.
    have remaining : final.dbItr <:+ rest := by
      simpa [ResultsItr.next, items, ResultsItr.updateRangeQueryInfo] using advanced.remaining
    obtain ⟨between, restEq⟩ := remaining
    have wholeEq : rangeOf original final = (consumed ++ item :: between) ++ final.dbItr := by
      rw [toFinal.rangeOf_eq, onOriginal, items, ← restEq]
      simp
    obtain ⟨_, beyondEq⟩ := covered.consumed _ wholeEq
    rw [toFinal.rangeOf_eq, onReplayed, List.append_assoc, List.append_cancel_left_eq] at beyondEq
    rw [fields, ← beyondEq]
    simp only [ResultsItr.next, items, List.cons_append, ResultsItr.updateRangeQueryInfo]
    refine ⟨trivial, rfl, consumed ++ [item], ?_, ?_⟩
    · simpa [rangeOf, items] using onOriginal
    · simpa [rangeOf, ← beyondEq] using onReplayed

variable {left right final : TxSimulator}

theorem SameSimulator.getState (same : SameSimulator original replayed left right)
    (ns key : GoString) (extend : Extends (left.getState original ns key).2 final)
    (agreement : Agreement original replayed final) :
    (right.getState replayed ns key).1 = (left.getState original ns key).1 ∧
      SameSimulator original replayed (left.getState original ns key).2
        (right.getState replayed ns key).2 := by
  have recorded : key ∈ final.rwsetBuilder.reads ns := by
    refine extend.reads ns key ?_
    exact (mem_reads_addToReadSet ..).mpr (Or.inl ⟨rfl, rfl⟩)
  have agree := agreement.reads ns key recorded
  simp only [TxSimulator.getState, ← agree]
  exact ⟨trivial, by rw [same.rwsetBuilder], same.itrs⟩

theorem SameSimulator.getStateMultipleKeys (same : SameSimulator original replayed left right)
    (ns : GoString) (keys : List GoString)
    (extend : Extends (left.getStateMultipleKeys original ns keys).2 final)
    (agreement : Agreement original replayed final) :
    (right.getStateMultipleKeys replayed ns keys).1 =
        (left.getStateMultipleKeys original ns keys).1 ∧
      SameSimulator original replayed (left.getStateMultipleKeys original ns keys).2
        (right.getStateMultipleKeys replayed ns keys).2 := by
  induction keys generalizing left right with
  | nil => exact ⟨rfl, same⟩
  | cons key keys ih =>
    have first := same.getState ns key
        ((extends_getStateMultipleKeys original _ ns keys).trans extend)
        agreement
    have rest := ih first.2 extend
    simp only [TxSimulator.getStateMultipleKeys]
    exact ⟨by rw [first.1, rest.1], rest.2⟩

variable {left right : TxSimulator}

section

variable (same : SameSimulator original replayed left right) (settings : Settings)
include same settings

theorem SameSimulator.setState (ns key : GoString) (value : Slice) :
    (right.setState settings ns key value).1 = (left.setState settings ns key value).1 ∧
      SameSimulator original replayed (left.setState settings ns key value).2
        (right.setState settings ns key value).2 := by
  unfold TxSimulator.setState
  split
  · exact ⟨rfl, by rw [same.rwsetBuilder], same.itrs⟩
  · exact ⟨rfl, same⟩

theorem SameSimulator.serve (request : Call)
    (extend : Extends (left.serve settings original request).2 final)
    (agreement : Agreement original replayed final) : (right.serve settings replayed request).1 =
        (left.serve settings original request).1 ∧
      SameSimulator original replayed (left.serve settings original request).2
        (right.serve settings replayed request).2 := by
  cases request with
  | getState ns key =>
    have served := same.getState ns key extend agreement
    simp only [TxSimulator.serve]
    exact ⟨by rw [served.1], served.2⟩
  | getStateMultipleKeys ns keys =>
    have served := same.getStateMultipleKeys ns keys extend agreement
    simp only [TxSimulator.serve]
    exact ⟨by rw [served.1], served.2⟩
  | getStateRangeScanIterator ns _ _ =>
    simp only [TxSimulator.serve, ResultsItr.new]
    cases newRangeQueryResultsHelper settings.queryReadsHashingEnabled
        settings.maxDegreeQueryReadsHashing with
    | none => exact ⟨rfl, same⟩
    | some _ =>
      refine ⟨?_, same.rwsetBuilder, ?_⟩
      · simp [same.itrs.length_eq]
      · refine List.rel_append same.itrs (.cons ?_ .nil)
        exact ⟨rfl, [], rfl, rfl⟩
  | next index =>
    cases found : left.itrs[index]? with
    | none =>
      have rightNone : right.itrs[index]? = none := by
        rw [List.getElem?_eq_none_iff] at found ⊢
        rwa [← same.itrs.length_eq]
      simp only [TxSimulator.serve, found, rightNone]
      exact ⟨trivial, same⟩
    | some leftItr =>
      obtain ⟨_, rightFound, sameItr⟩ := forall₂_getElem? same.itrs found
      simp only [TxSimulator.serve, found] at extend
      obtain ⟨finalItr, finalFound, advanced⟩ := extend.itrs index (leftItr.next settings.hashing).2
          (List.getElem?_set_self (List.getElem?_eq_some_iff.mp found).1)
      have served := sameItr.next settings.hashing advanced
          (agreement.itrs finalItr (List.mem_of_getElem? finalFound))
      simp only [TxSimulator.serve, found, rightFound]
      exact ⟨by rw [served.1], same.rwsetBuilder, forall₂_set same.itrs served.2⟩
  | setState ns key value => exact same.setState settings ns key value
  | deleteState ns key => exact same.setState settings ns key none

theorem SameSimulator.run (simulation : Simulation)
    (agreement : Agreement original replayed (simulation.run settings original left).2) :
    (simulation.run settings replayed right).1 = (simulation.run settings original left).1 ∧
      SameSimulator original replayed (simulation.run settings original left).2
        (simulation.run settings replayed right).2 := by
  induction simulation generalizing left right with
  | finish => exact ⟨rfl, same⟩
  | call request continuation ih =>
    have served := same.serve settings request
        (extends_run settings original (continuation _) _) agreement
    simp only [Simulation.run] at agreement ⊢
    rw [served.1]
    have rest := ih _ served.2 agreement
    exact ⟨by rw [rest.1], rest.2⟩

private theorem SameSimulator.done_eq :
    right.done settings = left.done settings := by
  have infos : ∀ {lefts rights : List ResultsItr} (builder : RWSetBuilder),
        List.Forall₂ (SameItr original replayed) lefts rights → rights.foldl (fun builder itr =>
                builder.addToRangeQuerySet itr.ns (itr.completedInfo settings.hashing)) builder =
            lefts.foldl (fun builder itr =>
                builder.addToRangeQuerySet itr.ns
                  (itr.completedInfo settings.hashing)) builder := by
    intro lefts rights builder related
    induction related generalizing builder with
    | nil => rfl
    | cons head _ ih =>
      rw [List.foldl_cons, List.foldl_cons, ih, head.fields]
      rfl
  rw [TxSimulator.done, TxSimulator.done, same.rwsetBuilder]
  exact infos _ same.itrs

end

/--
A simulation observes the same values and produces the same read-write set on
every state that agrees with the original one on what it recorded.
-/
theorem simulate_eq_of_agreement (settings : Settings) (simulation : Simulation)
    (agreement : Agreement original replayed (simulation.run settings original TxSimulator.new).2) :
    simulation.simulate settings replayed = simulation.simulate settings original := by
  have fresh : SameSimulator original replayed TxSimulator.new TxSimulator.new := ⟨rfl, .nil⟩
  have replay := fresh.run settings simulation agreement
  simp only [Simulation.simulate, replay.1,
    TxSimulator.getTxSimulationResults, replay.2.done_eq settings]

end

end Fabric.Ledger.Replay
