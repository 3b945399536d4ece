import Fabric.Ledger.StoredReads

/-!
# The stored state of a channel

The blocks of a channel are validated one after the other on the LevelDB database
of the channel, and the batch of each block is committed to it, between the
commits of the other channels that share the LevelDB.  As long as the
transactions keep to namespaces that are not empty and contain no zero byte, the
database reads as the state that the valid transactions lead to when they are
executed one at a time, and a valid transaction could have been simulated on the
database at its place.
-/

namespace Fabric.Ledger.CommittedState

open Library Outcome ByteString SeparatedKeys Protos QueryResults StateDB RWSet Simulator
  StateValidator Serializability StateLevelDB StoredReads

/-! ## Runs on the database -/

/--
The validated blocks of a run that starts from the empty database, the databases
after its commits, newest first, and the number of the last block.
-/
inductive Run (codec : Codec) (hashing : Hashing) (dbName : GoString) :
    List (Block × Progress) → List LevelDB.DB → LevelDB.DB → Option UInt64 → Prop where
  | genesis : Run codec hashing dbName [] [∅] ∅ none
  | commit
      {blocks : List (Block × Progress)} {states : List LevelDB.DB} {db later : LevelDB.DB}
      {lastBlock : Option UInt64} {block : Block} {header : BlockHeader} {progress : Progress}
      {commit : Commit}
      (history : Run codec hashing dbName blocks states db lastBlock)
      (hasHeader : block.header = some header)
      (increasing : ∀ last ∈ lastBlock, last < header.number)
      (namespaced : NamespacedBlock codec block)
      (validated : validateAndPrepareBatch codec hashing (reader db dbName) block true =
          .ok progress)
      (own : commit.dbName = dbName) (prepared : commit.batch = progress.updates)
      (wellFormed : commit.WellFormed) (applied : (commit.apply db : Outcome Unit _) = .ok later) :
      Run codec hashing dbName (blocks ++ [(block, progress)]) (later :: states) later
        (some header.number)
  /-- A commit of another channel. -/
  | other
      {blocks : List (Block × Progress)} {states : List LevelDB.DB} {db later : LevelDB.DB}
      {lastBlock : Option UInt64} {commit : Commit}
      (history : Run codec hashing dbName blocks states db lastBlock)
      (foreign : commit.dbName ≠ dbName) (wellFormed : commit.WellFormed)
      (applied : (commit.apply db : Outcome Unit _) = .ok later) :
      Run codec hashing dbName blocks (later :: states) later lastBlock

/-- The database of the name holds a state, with some savepoint. -/
def HoldsState (db : LevelDB.DB) (dbName : GoString) (state : VersionedDB) : Prop :=
  ∃ savePoint, Holds db dbName ⟨state, savePoint⟩

section

variable {codec : Codec} {hashing : Hashing} {dbName : GoString} {db later : LevelDB.DB}
  {state : VersionedDB} {commit : Commit}

theorem HoldsState.agree (holds : HoldsState db dbName state) (free : NulFree dbName.bytes) :
    Agree (reader db dbName) state := by
  rcases holds with ⟨_, holds⟩
  exact agree_of_holds holds free

section

variable (holds : HoldsState db dbName state) (free : NulFree dbName.bytes)
  (wellFormed : commit.WellFormed) (applied : (commit.apply db : Outcome Unit _) = .ok later)
include holds free wellFormed applied

theorem HoldsState.commit_own (own : commit.dbName = dbName) :
    HoldsState later dbName (state.applyUpdates commit.batch) := by
  rcases holds with ⟨_, holds⟩
  cases applied.symm.trans (Commit.apply_eq db commit)
  have held := holds.commit free wellFormed
  rw [Channel.commit, if_pos own] at held
  exact ⟨_, held⟩

end

variable {blocks : List (Block × Progress)} {states : List LevelDB.DB} {lastBlock : Option UInt64}

/--
The second database is the first one after the writes of the valid transactions
of a block from a position on, each committed by itself.
-/
inductive Replayed (codec : Codec) (dbName : GoString) (blockNum : UInt64)
    (txsFilter : TxValidationFlags) : Nat → LevelDB.DB → List Bytes → LevelDB.DB → Prop where
  | done (txIndex : Nat) (db : LevelDB.DB) : Replayed codec dbName blockNum txsFilter txIndex db [] db
  /-- An invalid transaction, or one without a read-write set. -/
  | skip {txIndex : Nat} {db later : LevelDB.DB} {envBytes : Bytes} {data : List Bytes}
      (idle : txsFilter[txIndex]? = some TxValidationCode.valid.number →
          transactionRWSet codec envBytes = none)
      (rest : Replayed codec dbName blockNum txsFilter (txIndex + 1) db data later) :
      Replayed codec dbName blockNum txsFilter txIndex db (envBytes :: data) later
  | write {txIndex : Nat} {db written later : LevelDB.DB} {envBytes : Bytes} {data : List Bytes}
      {txRWSet : TxRwSet} {commit : Commit}
      (valid : txsFilter[txIndex]? = some TxValidationCode.valid.number)
      (carried : transactionRWSet codec envBytes = some txRWSet)
      (prepared : addWriteSetToBatch txRWSet ⟨blockNum, UInt64.ofNat txIndex⟩ .new =
          .ok commit.batch)
      (own : commit.dbName = dbName) (wellFormed : commit.WellFormed)
      (applied : (commit.apply db : Outcome Unit _) = .ok written)
      (rest : Replayed codec dbName blockNum txsFilter (txIndex + 1) written data later) :
      Replayed codec dbName blockNum txsFilter txIndex db (envBytes :: data) later

theorem Replayed.holds {blockNum : UInt64} {txsFilter : TxValidationFlags} {txIndex : Nat}
    {data : List Bytes} (replayed : Replayed codec dbName blockNum txsFilter txIndex db data later)
    (free : NulFree dbName.bytes) {state : VersionedDB} (holds : HoldsState db dbName state) :
    HoldsState later dbName (serialFrom codec blockNum txsFilter txIndex state data) := by
  induction replayed generalizing state with
  | done _ _ => exact holds
  | @skip txIndex _ _ envBytes _ idle _ ih =>
    have unchanged : commitAt codec blockNum txsFilter txIndex state envBytes = state := by
      rw [commitAt]
      split_ifs with valid
      · rw [idle valid]
      · rfl
    rw [serialFrom, unchanged]
    exact ih holds
  | write valid carried prepared own wellFormed applied _ ih =>
    have written := holds.commit_own free wellFormed applied own
    rw [applyUpdates_addWriteSetToBatch state prepared, VersionedDB.applyUpdates_new] at written
    rw [serialFrom, commitAt, if_pos valid, carried]
    exact ih written

end

namespace Sample

open Reader

def dbName : GoString := StateLevelDB.Sample.dbName

/-- The commit of one value of a transaction. -/
def commit (ns key : GoString) (height : Height) : Commit :=
  .of dbName [⟨ns, key, ⟨some [118], height⟩⟩] height

/-- A commit of another channel. -/
def foreign : Commit := StateLevelDB.Sample.commit StateLevelDB.Sample.other 2 ⟨7, 0⟩

/-- The database after the first block. -/
def first : LevelDB.DB :=
  LevelDB.writeBatch ∅ dbName (commit ns (.letter 'k') ⟨1, 0⟩).dbBatch

/-- The database after the commit of the other channel. -/
def second : LevelDB.DB :=
  LevelDB.writeBatch first StateLevelDB.Sample.other foreign.dbBatch

/-- The database with the write of the first transaction of the second block. -/
def before : LevelDB.DB :=
  LevelDB.writeBatch second dbName (commit ns (.letter 'z') ⟨2, 0⟩).dbBatch

theorem free : NulFree dbName.bytes := by decide

theorem isNamespace_ns : IsNamespace ns := ⟨by decide, by decide⟩

theorem commit_wellFormed (key : GoString) (height : Height) :
    (commit ns key height).WellFormed :=
  Commit.wellFormed_of free (by simp [isNamespace_ns]) (by simp) height

theorem namespacedTx {tx : Reader.Transaction} {txRWSet : TxRwSet}
    (found : transactionRWSet codec tx.envelope = some txRWSet)
    (named : ∀ nsRWSet ∈ txRWSet.nsRwSets, nsRWSet.nameSpace = ns) :
    NamespacedTx codec tx.envelope := by
  intro other otherFound nsRWSet member
  cases found.symm.trans otherFound
  rw [named nsRWSet member]
  exact isNamespace_ns

theorem namespaced_first : NamespacedBlock codec Reader.first := by
  rintro _ ⟨⟩
  simp only [List.map_cons, List.map_nil, List.forall_mem_singleton]
  exact @namespacedTx _ ⟨[⟨ns, (writer ns (.letter 'k')).kvRWSet⟩]⟩ (by decide) (by simp)

theorem holds_empty_state : HoldsState ∅ dbName .empty :=
  ⟨none, holds_empty dbName⟩

/-- Two channels share the database; the first block is committed. -/
theorem run : Run codec settings.hashing dbName
      [(Reader.first, validated .empty Reader.first)] [second, first, ∅] second (some 1) := by
  have prepared : validateAndPrepareBatch codec settings.hashing (reader ∅ dbName) Reader.first
          true = .ok (validated .empty Reader.first) := by
    rw [validateAndPrepareBatch_congr (holds_empty_state.agree free) _ true namespaced_first]
    exact validated_first
  have hasHeader : Reader.first.header = some ⟨1, none, none⟩ := rfl
  have committed : Run codec settings.hashing dbName
        [(Reader.first, validated .empty Reader.first)] [first, ∅] first (some 1) :=
    .commit .genesis hasHeader (by simp) namespaced_first prepared rfl rfl
      (commit_wellFormed (.letter 'k') ⟨1, 0⟩) (Commit.apply_eq ∅ _)
  exact .other committed (by decide) (StateLevelDB.Sample.commit_wellFormed (by decide) 2 _)
    (Commit.apply_eq first foreign)

end Sample

namespace Aliased

open Reader

/-- A namespace whose name contains a zero byte. -/
def joined : GoString := ⟨[97, 0, 98]⟩

def writing : Reader.Transaction := writer joined (.letter 'k')

/-- The key of the namespace `a` that is stored as the key `k` of the other namespace. -/
def key : GoString := ⟨[98, 0, 107]⟩

/-- Reads the key, which has no value. -/
def reading : Reader.Transaction where
  ns := ns
  kvRWSet := ⟨[⟨key, none⟩], [], []⟩
  envelope := [2]

def simulation : Simulation :=
  .call (.getState ns key) fun _ => .finish

def codec : Codec :=
  codecOf [writing, reading]

def commit : Commit := Sample.commit joined (.letter 'k') ⟨1, 0⟩

end Aliased

end Fabric.Ledger.CommittedState
