import Fabric.Ledger.QueryResults
import Fabric.Ledger.RWSet

/-!
# Transaction simulation

A chaincode runs against a transaction simulator: it reads keys, iterates over
key ranges and writes, and each answer may influence what it does next.  A
simulation is therefore a tree of calls that branches on the responses.  The
simulator records on the way what validation needs later.

Reads are answered from the committed state alone, so a simulation never sees
its own writes.  The database that answers them is a parameter.
-/

namespace Fabric.Ledger.Simulator

open Library ByteString Protos StateDB RWSet QueryResults

/-- How a simulator hashes the results of queries, and the keys that it accepts. -/
structure Settings where
  hashing : Hashing
  queryReadsHashingEnabled : Bool
  maxDegreeQueryReadsHashing : UInt32
  validateKey : GoString → Bool

/-- The wrapper around a database iterator that captures the query. -/
structure ResultsItr where
  ns : GoString
  endKey : GoString
  dbItr : List VersionedKV
  rangeQueryInfo : RangeQueryInfo
  rangeQueryResultsHelper : RangeQueryResultsHelper

namespace ResultsItr

/-- The end key of the query is set later, when it is known. -/
def new (settings : Settings) (db : StateReader)
    (ns startKey endKey : GoString) : Option ResultsItr :=
  (newRangeQueryResultsHelper settings.queryReadsHashingEnabled
      settings.maxDegreeQueryReadsHashing).map fun helper =>
    { ns := ns
      endKey := endKey
      dbItr := db.getStateRangeScanIterator ns startKey endKey
      rangeQueryInfo := ⟨startKey, .empty, false, none⟩
      rangeQueryResultsHelper := helper }

def updateRangeQueryInfo (hashing : Hashing) (itr : ResultsItr)
    (queryResult : Option VersionedKV) : ResultsItr :=
  match queryResult with
  | none =>
    { itr with
      rangeQueryInfo :=
        { itr.rangeQueryInfo with
          itrExhausted := true
          endKey := itr.endKey } }
  | some (key, value) =>
    { itr with
      rangeQueryResultsHelper := itr.rangeQueryResultsHelper.addResult hashing
          (newKVRead key (some value.version))
      rangeQueryInfo := { itr.rangeQueryInfo with endKey := key } }

/-- Serves a result and records it. -/
def next (hashing : Hashing) (itr : ResultsItr) : Option (GoString × Bytes) × ResultsItr :=
  match itr.dbItr with
  | [] => (none, itr.updateRangeQueryInfo hashing none)
  | (key, value) :: dbItr =>
    (some (key, value.value), { itr with dbItr := dbItr }.updateRangeQueryInfo hashing
        (some (key, value)))

/-- The query as it is recorded when the simulation ends. -/
def completedInfo (hashing : Hashing) (itr : ResultsItr) : RangeQueryInfo :=
  let (results, summary) := itr.rangeQueryResultsHelper.done hashing
  let rangeQueryInfo := if results.isEmpty then itr.rangeQueryInfo
    else
      { itr.rangeQueryInfo with readsInfo := some (.rawReads ⟨results⟩) }
  match summary with
  | none => rangeQueryInfo
  | some summary => { rangeQueryInfo with readsInfo := some (.readsMerkleHashes summary) }

end ResultsItr

/-! ## The simulator -/

/-- The state of a simulator: what is recorded, and the open iterators. -/
structure TxSimulator where
  rwsetBuilder : RWSetBuilder
  itrs : List ResultsItr

def TxSimulator.new : TxSimulator := ⟨RWSetBuilder.new, []⟩

/-- The calls a chaincode can make; iterators are named by their index. -/
inductive Call where
  | getState (ns key : GoString)
  | getStateMultipleKeys (ns : GoString) (keys : List GoString)
  | getStateRangeScanIterator (ns startKey endKey : GoString)
  | next (itr : Nat)
  | setState (ns key : GoString) (value : Slice)
  | deleteState (ns key : GoString)
deriving DecidableEq

/-- What an operation returns. -/
inductive Response where
  | value (value : Slice)
  | values (values : List Slice)
  | iterator (itr : Nat)
  | queryResult (result : Option (GoString × Bytes))
  | done
  | error
deriving DecidableEq

namespace TxSimulator

/-- Reads a key and records its version. -/
def getState (db : StateReader) (simulator : TxSimulator) (ns key : GoString) :
    Slice × TxSimulator :=
  let versionedValue := db.getState ns key
  (versionedValue.map StoredValue.value,
    { simulator with
      rwsetBuilder := simulator.rwsetBuilder.addToReadSet ns key
          (versionedValue.map StoredValue.version) })

def getStateMultipleKeys (db : StateReader) (simulator : TxSimulator) (ns : GoString) :
    List GoString → List Slice × TxSimulator
  | [] => ([], simulator)
  | key :: keys =>
    let (value, afterKey) := simulator.getState db ns key
    let (values, afterKeys) := getStateMultipleKeys db afterKey ns keys
    (value :: values, afterKeys)

/-- Records a write; the database is unchanged. -/
def setState (settings : Settings) (simulator : TxSimulator)
    (ns key : GoString) (value : Slice) : Response × TxSimulator :=
  if settings.validateKey key then
    (.done, { simulator with rwsetBuilder := simulator.rwsetBuilder.addToWriteSet ns key value })
  else
    (.error, simulator)

/-- Answers one call. -/
def serve (settings : Settings) (db : StateReader) (simulator : TxSimulator) :
    Call → Response × TxSimulator
  | .getState ns key =>
    let (value, later) := simulator.getState db ns key
    (.value value, later)
  | .getStateMultipleKeys ns keys =>
    let (values, later) := simulator.getStateMultipleKeys db ns keys
    (.values values, later)
  | .getStateRangeScanIterator ns startKey endKey =>
    match ResultsItr.new settings db ns startKey endKey with
    | none => (.error, simulator)
    | some itr =>
      (.iterator simulator.itrs.length, { simulator with itrs := simulator.itrs ++ [itr] })
  | .next index =>
    match simulator.itrs[index]? with
    | none => (.error, simulator)
    | some itr =>
      let (result, later) := itr.next settings.hashing
      (.queryResult result, { simulator with itrs := simulator.itrs.set index later })
  | .setState ns key value => simulator.setState settings ns key value
  | .deleteState ns key => simulator.setState settings ns key none

/-- Record the range queries of all iterators, in the order of opening. -/
def done (settings : Settings) (simulator : TxSimulator) : RWSetBuilder :=
  simulator.itrs.foldl (fun builder itr =>
      builder.addToRangeQuerySet itr.ns (itr.completedInfo settings.hashing))
    simulator.rwsetBuilder

def getTxSimulationResults (settings : Settings) (simulator : TxSimulator) : TxRwSet :=
  (simulator.done settings).getTxReadWriteSet

end TxSimulator

/-- A deterministic chaincode: the next call depends on the responses. -/
inductive Simulation where
  | finish
  | call (request : Call) (continuation : Response → Simulation)

/-- Runs a simulation to its end. -/
def Simulation.run (settings : Settings) (db : StateReader) :
    Simulation → TxSimulator → List (Call × Response) × TxSimulator
  | .finish, simulator => ([], simulator)
  | .call request continuation, simulator =>
    let (response, later) := simulator.serve settings db request
    let (exchanges, final) := (continuation response).run settings db later
    ((request, response) :: exchanges, final)

/-- What the chaincode observed and the read-write set it produced. -/
def Simulation.simulate (settings : Settings) (db : StateReader) (simulation : Simulation) :
    List (Call × Response) × TxRwSet :=
  let (exchanges, final) := simulation.run settings db TxSimulator.new
  (exchanges, final.getTxSimulationResults settings)

end Fabric.Ledger.Simulator
