import Mathlib.Data.List.Basic

/-!
# Iterators and the lists they enumerate

An iterator is a state together with a `next` operation that returns an item,
or nothing once it is exhausted.  `Enumerates` says that a list-valued view of
the state lists what the following calls return; `drain` then collects exactly
that list.
-/

namespace Fabric.Library.Iterator

variable {State Item : Type*}

/-- Call `next` until it returns nothing, at most the given number of times. -/
def drain (next : State → Option Item × State) : Nat → State → List Item
  | 0, _ => []
  | fuel + 1, state =>
    match next state with
    | (none, _) => []
    | (some item, later) => item :: drain next fuel later

/-- On the states of an invariant, the view lists the items still to come. -/
structure Enumerates (next : State → Option Item × State) (invariant : State → Prop)
    (view : State → List Item) : Prop where
  returns : ∀ state, invariant state → (next state).1 = (view state).head?
  preserves : ∀ state, invariant state → invariant (next state).2
  advances : ∀ state, invariant state → view (next state).2 = (view state).tail

theorem Enumerates.drain_eq {next : State → Option Item × State} {invariant : State → Prop}
    {view : State → List Item} (enumerates : Enumerates next invariant view)
    (fuel : Nat) (state : State) (holds : invariant state) (enough : (view state).length ≤ fuel) :
    drain next fuel state = view state := by
  induction fuel generalizing state with
  | zero => simpa [drain] using (List.length_eq_zero_iff.mp (by omega)).symm
  | succ fuel ih =>
    have returned := enumerates.returns state holds
    have advanced := enumerates.advances state holds
    rcases result : next state with ⟨item, later⟩
    rw [result] at returned advanced
    cases item with
    | none =>
      have exhausted : view state = [] := List.head?_eq_none_iff.mp returned.symm
      simp [drain, result, exhausted]
    | some item =>
      obtain ⟨rest, split⟩ := List.head?_eq_some_iff.mp returned.symm
      have laterHolds := enumerates.preserves state holds
      rw [result] at laterHolds
      have laterView : view later = rest := by
        simpa [split] using advanced
      have laterEnough : (view later).length ≤ fuel := by
        rw [laterView]
        simpa [split] using enough
      simp [drain, result, split, ih later laterHolds laterEnough, laterView]

end Fabric.Library.Iterator
