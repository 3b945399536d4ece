import Fabric.Ledger.Encoding
import Fabric.Ledger.LevelDB

/-!
# The state database on LevelDB

A key of a namespace is stored behind the namespace and a zero byte, in the
database of its channel, which is itself a part of the shared LevelDB; the height
of the last committed block is stored under a key of its own.  The database
therefore stacks two layers of names before each key.

The main result says that this is one `VersionedDB` and one savepoint for each
channel: as long as names contain no zero byte, what is committed to one
database is read back from it, key by key and by ranges, and from no other.
-/

namespace Fabric.Ledger.StateLevelDB

open Library Outcome ByteString OrderedStore SeparatedKeys StateDB Encoding
open Std (ExtTreeMap)

variable {Reason : Type}

/-! ## The database -/

def savePointKey : Bytes := [0]

def lastKeyIndicator : UInt8 := 1

/-- Namespace and key, parted by a zero byte. -/
def constructCompositeKey (ns key : GoString) : Bytes :=
  joined ns.bytes key.bytes

/-- Namespace and key; a key without a zero byte panics. -/
def splitCompositeKey (compositeKey : Bytes) : Outcome Reason (GoString × GoString) :=
  match split compositeKey with
  | some parts => .ok (⟨parts.1⟩, ⟨parts.2⟩)
  | none => .panic

/-- Reads a key. -/
def getState (db : LevelDB.DB) (dbName ns key : GoString) : Outcome Reason (Option StoredValue) :=
  match LevelDB.get db dbName (constructCompositeKey ns key) with
  | none => .ok none
  | some dbVal => do
      let stored ← decodeValue dbVal
      .ok (some stored)

/-- Reads keys in order. -/
def getStateMultipleKeys (db : LevelDB.DB) (dbName ns : GoString) (keys : List GoString) :
    Outcome Reason (List (Option StoredValue)) :=
  keys.mapM (getState db dbName ns)

/-- What the scanner makes of an entry of the iterator. -/
def scannerNext (entry : Bytes × Bytes) : Outcome Reason VersionedKV := do
  let (_, key) ← splitCompositeKey entry.1
  let stored ← decodeValue entry.2
  .ok (key, stored)

/--
The results of a range scan.  For an empty end key the separator, which is then
the last byte of the composite key, is replaced.
-/
def getStateRangeScanIterator (db : LevelDB.DB) (dbName ns startKey endKey : GoString) :
    Outcome Reason (List VersionedKV) := do
  let compositeStartKey := constructCompositeKey ns startKey
  let compositeEndKey := if endKey = .empty then
      (constructCompositeKey ns endKey).dropLast ++ [lastKeyIndicator]
    else
      constructCompositeKey ns endKey
  let entries ← LevelDB.getIterator db dbName (some compositeStartKey) (some compositeEndKey)
  entries.mapM scannerNext

/-- The new value of a key, or its deletion. -/
structure Update where
  ns : GoString
  key : GoString
  entry : VersionedValue

/-- Adds one update to a batch. -/
def addUpdate (dbBatch : LevelDB.UpdateBatch) (update : Update) :
    Outcome Reason LevelDB.UpdateBatch :=
  let compositeKey := constructCompositeKey update.ns update.key
  match update.entry.value with
  | none => .ok (dbBatch.delete compositeKey)
  | some value => dbBatch.put compositeKey (some (encodeValue value update.entry.version))

/-- Commit a batch, given its entries in the order in which they are visited. -/
def applyUpdates (db : LevelDB.DB) (dbName : GoString) (updates : List Update)
    (height : Height) : Outcome Reason LevelDB.DB := do
  let dbBatch ← updates.foldlM addUpdate LevelDB.UpdateBatch.new
  let dbBatch ← dbBatch.put savePointKey (some (toBytes height))
  .ok (LevelDB.writeBatch db dbName dbBatch)

/-- The height of the last commit. -/
def getLatestSavePoint (db : LevelDB.DB) (dbName : GoString) : Outcome Reason (Option Height) :=
  match LevelDB.get db dbName savePointKey with
  | none => .ok none
  | some versionBytes => do
      let (version, _) ← newHeightFromBytes versionBytes
      .ok (some version)

/-! ## Channels and commits -/

/-- What the database of a channel is for: its state and its savepoint. -/
structure Channel where
  state : VersionedDB
  savePoint : Option Height

def Channel.empty : Channel := ⟨VersionedDB.empty, none⟩

/-- A batch that is committed to the database of a channel. -/
structure Commit where
  dbName : GoString
  batch : UpdateBatch
  height : Height
  /-- The entries of the batch in the order in which its maps are visited. -/
  visited : List Update

/-- Namespaces are not empty and contain no zero byte. -/
def IsNamespace (ns : GoString) : Prop :=
  NulFree ns.bytes ∧ ns ≠ .empty

/-- A commit writes to names that can be told apart. -/
structure Commit.WellFormed (commit : Commit) : Prop where
  dbName : NulFree commit.dbName.bytes
  namespaces : ∀ update ∈ commit.visited, IsNamespace update.ns
  visits : ∀ ns key entry, ⟨ns, key, entry⟩ ∈ commit.visited ↔ commit.batch.get ns key = some entry
  once : (commit.visited.map fun update => (update.ns, update.key)).Nodup

def Commit.apply (db : LevelDB.DB) (commit : Commit) : Outcome Reason LevelDB.DB :=
  applyUpdates db commit.dbName commit.visited commit.height

/-- Commits from an empty store. -/
def applyCommits (commits : List Commit) : Outcome Reason LevelDB.DB :=
  commits.foldlM Commit.apply ∅

/-- Commit a batch to a channel; the batches of other channels are ignored. -/
def Channel.commit (dbName : GoString) (channel : Channel) (commit : Commit) : Channel :=
  if commit.dbName = dbName then ⟨channel.state.applyUpdates commit.batch, some commit.height⟩
  else channel

/-- The channel that a database holds after a sequence of commits. -/
def channelAfter (commits : List Commit) (dbName : GoString) : Channel :=
  commits.foldl (Channel.commit dbName) Channel.empty

/-- The value of the last commit to the database that writes the key. -/
def lastWritten (commits : List Commit) (dbName ns key : GoString) : Option StoredValue :=
  let updates := commits.filterMap fun commit =>
      if commit.dbName = dbName then commit.batch.get ns key else none
  updates.getLast?.bind VersionedValue.stored

/-- The commit of entries that are listed in the order of their visit. -/
def Commit.of (dbName : GoString) (updates : List Update) (height : Height) : Commit where
  dbName := dbName
  batch := updates.foldl (fun batch update => batch.set update.ns update.key update.entry) .new
  height := height
  visited := updates

theorem mem_visited_iff {updates : List Update}
    (once : (updates.map fun update => (update.ns, update.key)).Nodup)
    (ns key : GoString) (entry : VersionedValue) :
    ⟨ns, key, entry⟩ ∈ updates ↔
      (updates.foldl (fun batch update => batch.set update.ns update.key update.entry)
        UpdateBatch.new).get ns key = some entry := by
  induction updates using List.reverseRecOn with
  | nil => simp
  | append_singleton updates update ih =>
    rw [List.map_append, List.nodup_append] at once
    rw [List.foldl_concat, UpdateBatch.get_set, List.mem_append, List.mem_singleton, ih once.1]
    split_ifs with same
    · rcases update with ⟨_, _, written⟩
      rcases same with ⟨rfl, rfl⟩
      rw [or_iff_right]
      · simp [eq_comm]
      · intro found
        exact once.2.2 _ (List.mem_map_of_mem ((ih once.1).mpr found)) _ (by simp) rfl
    · apply or_iff_left
      rintro rfl
      exact same ⟨rfl, rfl⟩

theorem Commit.wellFormed_of {dbName : GoString} {updates : List Update}
    (free : NulFree dbName.bytes) (namespaces : ∀ update ∈ updates, IsNamespace update.ns)
    (once : (updates.map fun update => (update.ns, update.key)).Nodup) (height : Height) :
    (Commit.of dbName updates height).WellFormed :=
  ⟨free, namespaces, mem_visited_iff once, once⟩

/-! ## Composite keys -/

section

variable {ns other key otherKey : GoString}

theorem constructCompositeKey_inj
    (namespaced : IsNamespace ns) (otherNamespaced : IsNamespace other)
    (equal : constructCompositeKey ns key = constructCompositeKey other otherKey) :
    ns = other ∧ key = otherKey := by
  rcases joined_inj namespaced.1 otherNamespaced.1 equal with ⟨names, keys⟩
  exact ⟨GoString.bytes_injective names, GoString.bytes_injective keys⟩

theorem constructCompositeKey_ne_savePointKey (namespaced : IsNamespace ns) :
    constructCompositeKey ns key ≠ savePointKey := by
  have empty : NulFree [] := List.not_mem_nil
  intro equal
  rcases @joined_inj _ _ _ [] namespaced.1 empty equal with ⟨names, _⟩
  exact namespaced.2 (GoString.bytes_injective names)

end

/-! ## The batch of a commit -/

/-- The stored bytes of an entry, if it is not a deletion. -/
def encodedEntry (entry : VersionedValue) : Option Bytes :=
  entry.value.map fun value => encodeValue value entry.version

def Update.write (update : Update) : GoString × Option (Option Bytes) :=
  (⟨constructCompositeKey update.ns update.key⟩, some (encodedEntry update.entry))

theorem foldlM_addUpdate (updates : List Update) (dbBatch : LevelDB.UpdateBatch) :
    (updates.foldlM addUpdate dbBatch : Outcome Reason _) =
      .ok ⟨applyAll dbBatch.kvs (updates.map Update.write)⟩ := by
  induction updates generalizing dbBatch with
  | nil => rfl
  | cons update updates ih =>
    rcases update with ⟨_, _, _ | _, _⟩
    · exact ih _
    · exact ih _

/-- The batch that a commit writes to its database. -/
def Commit.dbBatch (commit : Commit) : LevelDB.UpdateBatch :=
  ⟨(applyAll ∅ (commit.visited.map Update.write)).insert ⟨savePointKey⟩
    (some (toBytes commit.height))⟩

theorem Commit.apply_eq (db : LevelDB.DB) (commit : Commit) : (commit.apply db : Outcome Reason _) =
      .ok (LevelDB.writeBatch db commit.dbName commit.dbBatch) := by
  rw [Commit.apply, applyUpdates, foldlM_addUpdate]
  rfl

theorem Commit.WellFormed.getElem?_dbBatch
    {commit : Commit} (wellFormed : commit.WellFormed) {ns : GoString}
    (namespaced : IsNamespace ns) (key : GoString) :
    commit.dbBatch.kvs[(⟨constructCompositeKey ns key⟩ : GoString)]? =
      (commit.batch.get ns key).map encodedEntry := by
  have distinct : (⟨savePointKey⟩ : GoString) ≠ ⟨constructCompositeKey ns key⟩ := by
    intro equal
    exact constructCompositeKey_ne_savePointKey namespaced (congrArg GoString.bytes equal).symm
  have written : commit.dbBatch.kvs[(⟨constructCompositeKey ns key⟩ : GoString)]? =
        (applyAll (∅ : ExtTreeMap GoString (Option Bytes)) (commit.visited.map Update.write))[
            (⟨constructCompositeKey ns key⟩ : GoString)]? := by
    simp [Commit.dbBatch, ExtTreeMap.getElem?_insert, distinct]
  rw [written]
  cases found : commit.batch.get ns key with
  | some entry =>
    have once : ((commit.visited.map Update.write).map Prod.fst).Nodup := by
      have pairs := wellFormed.once
      rw [List.Nodup, List.pairwise_map] at pairs
      rw [List.map_map, List.Nodup, List.pairwise_map]
      apply List.Pairwise.imp_of_mem ?_ pairs
      intro left right leftMember rightMember differ equal
      rcases constructCompositeKey_inj (wellFormed.namespaces left leftMember)
          (wellFormed.namespaces right rightMember)
          (congrArg GoString.bytes equal) with ⟨names, keys⟩
      exact differ (Prod.ext names keys)
    have member := (wellFormed.visits ns key entry).mpr found
    exact getElem?_applyAll_of_mem _ once _ _ _ (List.mem_map_of_mem member)
  | none =>
    rw [getElem?_applyAll_of_not_mem]
    · simp
    · intro _ member
      rcases List.mem_map.mp member with ⟨⟨_, _, entry⟩, visited, equal⟩
      rcases constructCompositeKey_inj (wellFormed.namespaces _ visited) namespaced
          (congrArg GoString.bytes (congrArg Prod.fst equal)) with
        ⟨names, keys⟩
      simp only at names keys
      subst names keys
      rw [(wellFormed.visits _ _ _).mp visited] at found
      cases found

/-! ## What a database holds -/

def encoded (stored : StoredValue) : Bytes :=
  encodeValue stored.value stored.version

/-- The database of the name holds a channel. -/
structure Holds (db : LevelDB.DB) (dbName : GoString) (channel : Channel) : Prop where
  state : ∀ ns key, IsNamespace ns → LevelDB.get db dbName (constructCompositeKey ns key) =
        (channel.state.getState ns key).map encoded
  savePoint : LevelDB.get db dbName savePointKey = channel.savePoint.map toBytes

theorem encodedEntry_eq (entry : VersionedValue) :
    encodedEntry entry = entry.stored.map encoded := by
  rcases entry with ⟨_ | _, _⟩
  · rfl
  · rfl

theorem holds_empty (dbName : GoString) : Holds ∅ dbName Channel.empty where
  state ns key _ := by
    simp [LevelDB.get, Channel.empty]
  savePoint := by
    simp [LevelDB.get, Channel.empty]

theorem Holds.commit {db : LevelDB.DB} {dbName : GoString} {channel : Channel}
    (holds : Holds db dbName channel) (free : NulFree dbName.bytes)
    {commit : Commit} (wellFormed : commit.WellFormed) :
    Holds (LevelDB.writeBatch db commit.dbName commit.dbBatch) dbName
      (channel.commit dbName commit) := by
  by_cases same : commit.dbName = dbName
  · subst same
    rw [Channel.commit, if_pos rfl]
    constructor
    · intro ns key namespaced
      rw [LevelDB.get_writeBatch_self, wellFormed.getElem?_dbBatch namespaced,
        holds.state ns key namespaced, VersionedDB.getState_applyUpdates]
      cases commit.batch.get ns key with
      | none => rfl
      | some entry => exact encodedEntry_eq entry
    · simp [LevelDB.get_writeBatch_self, Commit.dbBatch]
  · rw [Channel.commit, if_neg same]
    constructor
    · intro ns key namespaced
      rw [LevelDB.get_writeBatch_other wellFormed.dbName free same]
      exact holds.state ns key namespaced
    · rw [LevelDB.get_writeBatch_other wellFormed.dbName free same]
      exact holds.savePoint

/-- A sequence of commits succeeds, and each database holds its channel. -/
theorem holds_applyCommits {commits : List Commit}
    (wellFormed : ∀ commit ∈ commits, commit.WellFormed) :
    ∃ db : LevelDB.DB, (applyCommits commits : Outcome Reason _) = .ok db ∧
      ∀ dbName, NulFree dbName.bytes → Holds db dbName (channelAfter commits dbName) := by
  have run : ∀ (db : LevelDB.DB) (channels : GoString → Channel),
        (∀ dbName, NulFree dbName.bytes → Holds db dbName (channels dbName)) →
        ∃ later : LevelDB.DB, (commits.foldlM Commit.apply db : Outcome Reason _) = .ok later ∧
          ∀ dbName, NulFree dbName.bytes → Holds later dbName
              (commits.foldl (Channel.commit dbName) (channels dbName)) := by
    induction commits with
    | nil =>
      intro db channels holds
      exact ⟨db, rfl, holds⟩
    | cons commit commits ih =>
      intro db channels holds
      rw [List.forall_mem_cons] at wellFormed
      rw [List.foldlM_cons, Commit.apply_eq, ok_bind]
      apply ih wellFormed.2 _ (fun dbName => (channels dbName).commit dbName commit)
      intro dbName free
      exact (holds dbName free).commit free wellFormed.1
  exact run ∅ (fun _ => Channel.empty) fun dbName _ => holds_empty dbName

/-! ## Reading a channel -/

section

variable {db : LevelDB.DB} {dbName ns : GoString} {channel : Channel}

theorem decodeValue_encoded (stored : StoredValue) :
    (decodeValue (encoded stored) : Outcome Reason _) = .ok stored :=
  decodeValue_encodeValue stored.value stored.version

theorem Holds.getState_eq (holds : Holds db dbName channel) (namespaced : IsNamespace ns)
    (key : GoString) : (getState db dbName ns key : Outcome Reason _) =
      .ok (channel.state.getState ns key) := by
  rw [getState, holds.state ns key namespaced]
  cases channel.state.getState ns key with
  | none => rfl
  | some _ => simp only [Option.map_some, decodeValue_encoded, ok_bind]

theorem Holds.getLatestSavePoint_eq (holds : Holds db dbName channel) :
    (getLatestSavePoint db dbName : Outcome Reason _) = .ok channel.savePoint := by
  rw [getLatestSavePoint, holds.savePoint]
  cases channel.savePoint with
  | none => rfl
  | some height =>
    have read : (newHeightFromBytes (toBytes height ++ []) : Outcome Reason _) =
          .ok (height, (toBytes height).length) :=
      newHeightFromBytes_toBytes height []
    rw [List.append_nil] at read
    simp only [Option.map_some, read, ok_bind]

theorem lt_scanEnd_iff (ns endKey : GoString) (compositeKey : Bytes) {startKey : GoString}
    (lower : constructCompositeKey ns startKey ≤ compositeKey) :
    (compositeKey < if endKey = .empty then
          (constructCompositeKey ns endKey).dropLast ++ [lastKeyIndicator]
        else
          constructCompositeKey ns endKey) ↔
      ∃ key : GoString, compositeKey = constructCompositeKey ns key ∧
        (endKey = .empty ∨ key < endKey) := by
  by_cases unbounded : endKey = .empty
  · subst unbounded
    have bound : (constructCompositeKey ns GoString.empty).dropLast ++ [lastKeyIndicator] =
          ns.bytes ++ [1] := by
      rw [constructCompositeKey, joined, GoString.empty, List.dropLast_concat]
      rfl
    rw [if_pos rfl, bound]
    constructor
    · intro upper
      rcases exists_joined_of_lt_bound lower upper with ⟨rest, equal⟩
      exact ⟨⟨rest⟩, equal, Or.inl rfl⟩
    · rintro ⟨key, rfl, _⟩
      exact joined_lt_bound ns.bytes key.bytes
  · rw [if_neg unbounded]
    constructor
    · intro upper
      rcases exists_joined_of_lt_joined lower upper with ⟨rest, rfl⟩
      exact ⟨⟨rest⟩, rfl, Or.inr ((joined_lt_joined_iff _ _ _).mp upper)⟩
    · rintro ⟨key, rfl, absurdity | smaller⟩
      · exact absurd absurdity unbounded
      · exact (joined_lt_joined_iff _ _ _).mpr smaller

theorem Holds.rangeScan_eq (holds : Holds db dbName channel) (free : NulFree dbName.bytes)
    (namespaced : IsNamespace ns) (startKey endKey : GoString) :
    (getStateRangeScanIterator db dbName ns startKey endKey : Outcome Reason _) =
      .ok (channel.state.getStateRangeScanIterator ns startKey endKey) := by
  let stored (entry : VersionedKV) : Bytes × Bytes :=
    (constructCompositeKey ns entry.1, encoded entry.2)
  let results := channel.state.getStateRangeScanIterator ns startKey endKey
  rcases LevelDB.mapM_entriesBetween free
      (LevelDB.rangeOf_bounded dbName (constructCompositeKey ns startKey)
        (if endKey = .empty then (constructCompositeKey ns endKey).dropLast ++ [lastKeyIndicator]
        else constructCompositeKey ns endKey)) with
    ⟨entries, iterates, sorted, mem_iff⟩
  have resultsSorted : SortedByKey (results.map stored) := by
    rw [SortedByKey, List.pairwise_map]
    apply List.Pairwise.imp ?_ (VersionedDB.rangeScan_sortedByKey _ ns startKey endKey)
    intro _ _ smaller
    exact (joined_lt_joined_iff _ _ _).mpr smaller
  have same : entries = results.map stored := by
    apply sorted.eq_of_mem_iff resultsSorted
    rintro ⟨compositeKey, _⟩
    rw [mem_iff, List.mem_map]
    constructor
    · rintro ⟨found, lower, upper⟩
      rw [lt_scanEnd_iff ns endKey compositeKey lower] at upper
      rcases upper with ⟨key, rfl, inside⟩
      rw [holds.state ns key namespaced, Option.map_eq_some_iff] at found
      rcases found with ⟨content, found, rfl⟩
      refine ⟨(key, content), ?_, rfl⟩
      rw [VersionedDB.mem_rangeScan_iff]
      exact ⟨found, (joined_le_joined_iff _ _ _).mp lower, inside⟩
    · rintro ⟨⟨key, content⟩, member, equal⟩
      rw [VersionedDB.mem_rangeScan_iff] at member
      rcases member with ⟨found, lower, inside⟩
      cases equal
      have lower : constructCompositeKey ns startKey ≤ constructCompositeKey ns key :=
        (joined_le_joined_iff _ _ _).mpr lower
      rw [holds.state ns key namespaced, found, lt_scanEnd_iff ns endKey _ lower]
      exact ⟨rfl, lower, key, rfl, inside⟩
  have scanned : (results.mapM (scannerNext ∘ stored) : Outcome Reason _) =
        .ok (results.map id) := by
    apply mapM_of_forall_ok
    rintro ⟨key, content⟩ _
    simp only [Function.comp, scannerNext, stored, splitCompositeKey, constructCompositeKey,
      split_joined namespaced.1, decodeValue_encoded, ok_bind, id_eq]
  simp only [getStateRangeScanIterator, LevelDB.getIterator, Slice.bytes, Option.getD_some]
  rw [iterates, ok_bind, same, List.mapM_map, scanned, List.map_id]

end

/-! ## Commits as maps -/

theorem getState_channelAfter (commits : List Commit) (dbName ns key : GoString) :
    (channelAfter commits dbName).state.getState ns key = lastWritten commits dbName ns key := by
  induction commits using List.reverseRecOn with
  | nil => simp [channelAfter, Channel.empty, lastWritten]
  | append_singleton commits commit ih =>
    have step : channelAfter (commits ++ [commit]) dbName =
          (channelAfter commits dbName).commit dbName commit := by
      rw [channelAfter, List.foldl_concat]
      rfl
    rw [step, lastWritten, List.filterMap_append]
    by_cases same : commit.dbName = dbName
    · rw [Channel.commit, if_pos same, VersionedDB.getState_applyUpdates, ih]
      cases found : commit.batch.get ns key with
      | none => simp [lastWritten, same, found]
      | some _ => simp [same, found]
    · rw [Channel.commit, if_neg same, ih]
      simp [lastWritten, same]

/--
Committed to databases that share one LevelDB, batches are read back as from
separate maps: a key has the value of the last commit to its own database that
writes it, a range scan returns the keys of its namespace that are present, in
order, and each database has its own savepoint.
-/
theorem reads_channelAfter (commits : List Commit)
    (wellFormed : ∀ commit ∈ commits, commit.WellFormed) :
    ∃ db : LevelDB.DB, (applyCommits commits : Outcome Reason _) = .ok db ∧
      ∀ dbName, NulFree dbName.bytes → (∀ ns, IsNamespace ns → (∀ key,
            (getState db dbName ns key : Outcome Reason _) =
              .ok (lastWritten commits dbName ns key)) ∧
          (∀ keys, (getStateMultipleKeys db dbName ns keys : Outcome Reason _) =
              .ok (keys.map (lastWritten commits dbName ns))) ∧
          (∀ startKey endKey, ∃ results, (getStateRangeScanIterator db dbName ns startKey endKey :
                Outcome Reason _) = .ok results ∧
              SortedByKey results ∧
              ∀ key value, (key, value) ∈ results ↔ lastWritten commits dbName ns key = some value ∧
                    startKey ≤ key ∧
                    (endKey = .empty ∨ key < endKey))) ∧
        (getLatestSavePoint db dbName : Outcome Reason _) =
          .ok (channelAfter commits dbName).savePoint := by
  rcases holds_applyCommits wellFormed with ⟨db, applied, holds⟩
  refine ⟨db, applied, ?_⟩
  intro dbName free
  have held := holds dbName free
  refine ⟨?_, held.getLatestSavePoint_eq⟩
  intro ns namespaced
  refine ⟨?_, ?_, ?_⟩
  · intro key
    rw [held.getState_eq namespaced, getState_channelAfter]
  · intro keys
    have reads : (channelAfter commits dbName).state.getState ns =
          lastWritten commits dbName ns := by
      ext1 key
      exact getState_channelAfter commits dbName ns key
    rw [getStateMultipleKeys, mapM_of_forall_ok fun key _ => held.getState_eq namespaced key, reads]
  · intro startKey endKey
    refine ⟨_, held.rangeScan_eq free namespaced startKey endKey,
        VersionedDB.rangeScan_sortedByKey _ _ _ _, ?_⟩
    intro key value
    rw [VersionedDB.mem_rangeScan_iff, getState_channelAfter]

namespace Sample

def dbName : GoString := .letter 'a'

def other : GoString := .letter 'b'

def ns : GoString := .ascii "cc"

/-- A key that is itself a zero byte and a byte one. -/
def key : GoString := ⟨[0, 1]⟩

def entry (mark : UInt8) : VersionedValue :=
  ⟨some [mark], ⟨1, 0⟩⟩

def commit (dbName : GoString) (mark : UInt8) (height : Height) : Commit :=
  .of dbName [⟨ns, key, entry mark⟩] height

theorem commit_wellFormed {dbName : GoString} (free : NulFree dbName.bytes) (mark : UInt8)
    (height : Height) : (commit dbName mark height).WellFormed := by
  have namespaced : IsNamespace ns := ⟨by decide, by decide⟩
  exact Commit.wellFormed_of free (by simp [namespaced]) (by simp) height

end Sample

/-- Two channels that write the same key of the same namespace. -/
theorem reads_channelAfter_two :
    ∃ db : LevelDB.DB, (applyCommits [Sample.commit Sample.dbName 1 ⟨1, 0⟩,
          Sample.commit Sample.other 2 ⟨7, 0⟩] : Outcome Unit _) = .ok db ∧
      (getState db Sample.dbName Sample.ns Sample.key : Outcome Unit _) = .ok (some ⟨[1], ⟨1, 0⟩⟩) ∧
      (getState db Sample.other Sample.ns Sample.key : Outcome Unit _) = .ok (some ⟨[2], ⟨1, 0⟩⟩) ∧
      (getLatestSavePoint db Sample.dbName : Outcome Unit _) = .ok (some ⟨1, 0⟩) ∧
      (getLatestSavePoint db Sample.other : Outcome Unit _) = .ok (some ⟨7, 0⟩) := by
  have free : NulFree Sample.dbName.bytes := by decide
  have otherFree : NulFree Sample.other.bytes := by decide
  have wellFormed : ∀ commit ∈ [Sample.commit Sample.dbName 1 ⟨1, 0⟩,
            Sample.commit Sample.other 2 ⟨7, 0⟩],
        commit.WellFormed := by
    rw [List.forall_mem_cons, List.forall_mem_singleton]
    exact ⟨Sample.commit_wellFormed free 1 _, Sample.commit_wellFormed otherFree 2 _⟩
  rcases @reads_channelAfter Unit _ wellFormed with ⟨db, applied, _⟩
  refine ⟨db, applied, ?_⟩
  apply of_exists_ok applied
  decide +kernel

end Fabric.Ledger.StateLevelDB
