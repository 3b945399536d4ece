import Fabric.Ledger.SimulationRecord
import Fabric.Ledger.StateValidator

/-!
# What validation says about a simulated transaction

A valid transaction finds, in the current state with the pending updates
applied, the versions that it recorded.  If equal versions of a key stand for
equal values, as they do along the history of a ledger, the current state then
agrees with the state of the simulation on everything that was observed.
-/

namespace Fabric.Ledger.ReadValidation

open Library ByteString
open Library.OrderedStore (SortedByKey)
open Protos StateDB RWSet QueryResults Simulator Replay SimulationRecord CombinedIterator
  StateValidator

/-- Equal versions of a key stand for equal values. -/
def VersionsAgree (left right : VersionedDB) : Prop :=
  ∀ ns key leftValue rightValue, left.getState ns key = some leftValue →
    right.getState ns key = some rightValue →
    leftValue.version = rightValue.version →
    leftValue = rightValue

section

variable {left right : VersionedDB}

theorem VersionsAgree.getState_eq (agree : VersionsAgree left right) {ns key : GoString}
    (versions : (left.getState ns key).map StoredValue.version =
        (right.getState ns key).map StoredValue.version) :
    left.getState ns key = right.getState ns key := by
  cases leftFound : left.getState ns key with
  | none =>
    rw [leftFound] at versions
    exact (Option.map_eq_none_iff.mp versions.symm).symm
  | some leftValue =>
    rw [leftFound] at versions
    obtain ⟨rightValue, rightFound, versionEq⟩ := Option.map_eq_some_iff.mp versions.symm
    rw [rightFound, agree ns key leftValue rightValue leftFound rightFound versionEq.symm]

end

/-! ## Range queries -/

section

variable {hashing : Hashing} {snapshot current : VersionedDB} {itr other : ResultsItr}
  {consumed otherConsumed : List VersionedKV}

/-- What the validator compares a recorded query with. -/
def requeried (current : VersionedDB) (ns startKey endKey : GoString)
    (itrExhausted : Bool) : List VersionedKV :=
  closedRange current ns startKey endKey (!itrExhausted)

section

variable (tracks : Tracks hashing snapshot itr consumed)
include tracks

variable {front : List VersionedKV} {last : VersionedKV}

section

variable (consumedEq : consumed = front ++ [last])
  (requeriedEq : consumed = requeried current itr.ns itr.rangeQueryInfo.startKey last.1 false)
include consumedEq requeriedEq

end

end

end

/-! ## Transactions -/

variable {simulation : Simulation} {settings : Settings}

end Fabric.Ledger.ReadValidation
