import Fabric.Ledger.LevelDB

/-!
# The ids of the ledgers of a peer

The provider of ledgers lists the ids of the ledgers that have been created.  The
same database holds a flag while a ledger is under construction, and a creation
that fails at the first block leaves the flag behind.
-/

namespace Fabric.Ledger.IdStore

open Library ByteString OrderedStore LevelDB
open Std (ExtTreeMap)

/-! ## The store -/

def underConstructionLedgerKey : GoString := .ascii "underConstructionLedgerKey"

def ledgerKeyPrefix : GoString := .letter 'l'

def encodeLedgerKey (ledgerID : GoString) : GoString := ⟨ledgerKeyPrefix.bytes ++ ledgerID.bytes⟩

/-- What follows the prefix; a key that is shorter panics. -/
def decodeLedgerID (key : GoString) : Outcome Unit GoString :=
  if key.bytes.length < ledgerKeyPrefix.bytes.length then .panic
  else .ok ⟨key.bytes.drop ledgerKeyPrefix.bytes.length⟩

/-- Record a ledger and drop the flag; a recorded ledger is an error. -/
def createLedgerID (db : DB) (ledgerID : GoString) : Option DB :=
  if encodeLedgerKey ledgerID ∈ db then none
  else some ((db.insert (encodeLedgerKey ledgerID) []).erase underConstructionLedgerKey)

/--
The rounds of the loop over the iterator.  At the flag the next round starts
without a step of the iterator.
-/
def listFrom : Nat → List (GoString × Bytes) → List GoString → Option (Outcome Unit (List GoString))
  | 0, _, _ => none
  | _ + 1, [], ids => some (.ok ids)
  | fuel + 1, entry :: rest, ids =>
    if entry.1 = underConstructionLedgerKey then listFrom fuel (entry :: rest) ids
    else
      match decodeLedgerID entry.1 with
      | .ok id => listFrom fuel rest (ids ++ [id])
      | .error reason => some (.error reason)
      | .panic => some .panic

/-- The listed ids, if the given number of rounds is enough. -/
def getAllLedgerIds (rounds : Nat) (db : DB) : Option (Outcome Unit (List GoString)) :=
  listFrom rounds db.toList []

/-! ## Creating ledgers -/

/-- What may fail while a ledger is created. -/
inductive Failure where
  | chainID
  | ledgerIDExists
  | read
  | setFlag
  | openInternal
  | unsetFlag
  | commit
  | createLedgerID

/-- Create the ledger of a genesis block, whose id may be missing. -/
def create (fails : Failure → Bool) (ledgerID : Option GoString) (db : DB) :
    Outcome Failure GoString × DB :=
  match ledgerID with
  | none => (.error .chainID, db)
  | some ledgerID =>
    if fails .read then (.error .read, db)
    else if encodeLedgerKey ledgerID ∈ db then (.error .ledgerIDExists, db)
    else if fails .setFlag then (.error .setFlag, db)
    else
      let flagged := db.insert underConstructionLedgerKey ledgerID.bytes
      if fails .openInternal then
        if fails .unsetFlag then (.panic, flagged)
        else (.error .openInternal, flagged.erase underConstructionLedgerKey)
      else if fails .commit then (.error .commit, flagged)
      else if fails .createLedgerID then (.panic, flagged)
      else
        match createLedgerID flagged ledgerID with
        | none => (.panic, flagged)
        | some later => (.ok ledgerID, later)

/-- The id that a call of `Create` has recorded. -/
def recorded : Outcome Failure GoString → List GoString
  | .ok id => [id]
  | _ => []

/-- The stores that calls of `Create` lead to, with the ids that were recorded. -/
inductive Reachable : DB → List GoString → Prop where
  | new : Reachable ∅ []
  | create {db : DB} {ids : List GoString} (reachable : Reachable db ids) (fails : Failure → Bool)
      (ledgerID : Option GoString) :
      Reachable (create fails ledgerID db).2 (ids ++ recorded (create fails ledgerID db).1)

/-! ## What is listed -/

theorem encodeLedgerKey_injective : Function.Injective encodeLedgerKey := by
  intro _ _ same
  rw [encodeLedgerKey, encodeLedgerKey, GoString.mk.injEq, List.append_cancel_left_eq] at same
  exact GoString.bytes_injective same

theorem encodeLedgerKey_ne (id : GoString) : encodeLedgerKey id ≠ underConstructionLedgerKey := by
  intro same
  have first := congrArg (fun key => key.bytes.head?) same
  cases first

/-- Apart from the flag, the store holds the recorded ids. -/
def Records (db : DB) (ids : List GoString) : Prop :=
  ∀ key, key ≠ underConstructionLedgerKey → (key ∈ db ↔ key ∈ ids.map encodeLedgerKey)

section

variable {db : DB} {ids : List GoString}

section

variable (records : Records db ids)
include records

theorem Records.insert_flag (value : Bytes) :
    Records (db.insert underConstructionLedgerKey value) ids := by
  intro key other
  rw [← records key other]
  simp [Ne.symm other]

theorem Records.erase_flag :
    Records (db.erase underConstructionLedgerKey) ids := by
  intro key other
  rw [← records key other]
  simp [Ne.symm other]

theorem Records.insert (id : GoString) :
    Records (db.insert (encodeLedgerKey id) []) (ids ++ [id]) := by
  intro key other
  rw [List.map_append, List.mem_append, ← records key other, ExtTreeMap.mem_insert, or_comm]
  simp [@eq_comm _ key]

theorem Records.create (fails : Failure → Bool) (ledgerID : Option GoString) :
    Records (create fails ledgerID db).2 (ids ++ recorded (create fails ledgerID db).1) := by
  unfold IdStore.create
  cases ledgerID with
  | none => simpa [recorded] using records
  | some id =>
    have flagged := records.insert_flag id.bytes
    simp only [createLedgerID]
    split_ifs
    all_goals simp only [recorded, List.append_nil]
    · exact records
    · exact records
    · exact records
    · exact flagged
    · exact flagged.erase_flag
    · exact flagged
    · exact flagged
    · exact flagged
    · exact (flagged.insert id).erase_flag

end

theorem Reachable.records (reachable : Reachable db ids) : Records db ids := by
  induction reachable with
  | new =>
    intro _ _
    simp
  | create _ fails ledgerID records => exact records.create fails ledgerID

end

variable {entries : List (GoString × Bytes)} {ids : List GoString}

theorem listFrom_eq (ids : List GoString)
    (encoded : ∀ entry ∈ entries, ∃ id, encodeLedgerKey id = entry.1) :
    ∃ found, listFrom (entries.length + 1) entries ids = some (.ok (ids ++ found)) ∧
      found.map encodeLedgerKey = entries.map Prod.fst := by
  induction entries generalizing ids with
  | nil => exact ⟨[], by rw [List.append_nil]; rfl, rfl⟩
  | cons entry _ ih =>
    rcases List.forall_mem_cons.mp encoded with ⟨⟨id, same⟩, encoded⟩
    rcases ih (ids ++ [id]) encoded with ⟨found, listed, keys⟩
    have decoded : decodeLedgerID entry.1 = .ok id := by
      rw [← same]
      simp [decodeLedgerID, encodeLedgerKey]
    refine ⟨id :: found, ?_, by rw [List.map_cons, List.map_cons, same, keys]⟩
    rw [List.length_cons, listFrom, if_neg (same ▸ encodeLedgerKey_ne id), decoded]
    rw [List.append_assoc] at listed
    exact listed

theorem listFrom_ne (flag : underConstructionLedgerKey ∈ entries.map Prod.fst) (rounds : Nat)
    (result : List GoString) : listFrom rounds entries ids ≠ some (.ok result) := by
  induction rounds generalizing entries ids with
  | zero => nofun
  | succ rounds ih =>
    cases entries with
    | nil => cases flag
    | cons _ _ =>
      rw [listFrom]
      split_ifs with here
      · exact ih flag
      · have below := (List.mem_cons.mp flag).resolve_left (Ne.symm here)
        split
        · exact ih below
        · nofun
        · nofun

/--
In every store that is reached, the listing ends with the recorded ids, each once,
exactly if the flag is not set.
-/
theorem ledger_ids_listed_iff {db : DB} (reachable : Reachable db ids) :
    (∃ rounds listed, getAllLedgerIds rounds db = some (.ok listed) ∧ listed.Nodup ∧
      ∀ id, id ∈ listed ↔ id ∈ ids) ↔ underConstructionLedgerKey ∉ db := by
  have records := reachable.records
  have keys : ∀ key, key ∈ db.toList.map Prod.fst ↔ key ∈ db := by
    intro key
    rw [ExtTreeMap.map_fst_toList_eq_keys, ExtTreeMap.mem_keys]
  constructor
  · rintro ⟨rounds, listed, returned, _⟩ flag
    exact listFrom_ne ((keys _).mpr flag) rounds listed returned
  · intro unset
    have encoded : ∀ entry ∈ db.toList, ∃ id, encodeLedgerKey id = entry.1 := by
      intro entry member
      have present := (keys _).mp (List.mem_map_of_mem member)
      have other : entry.1 ≠ underConstructionLedgerKey := fun same => unset (same ▸ present)
      rcases List.mem_map.mp ((records _ other).mp present) with ⟨id, _, same⟩
      exact ⟨id, same⟩
    rcases listFrom_eq [] encoded with ⟨found, listed, same⟩
    refine ⟨_, found, listed, ?_, ?_⟩
    · apply List.Nodup.of_map encodeLedgerKey
      rw [same]
      exact (toList_sortedByKey db).nodup_keys
    · intro id
      rw [← List.mem_map_of_injective encodeLedgerKey_injective, same, keys,
        records _ (encodeLedgerKey_ne id), List.mem_map_of_injective encodeLedgerKey_injective]

/-- The first block of the first ledger is not committed. -/
theorem ledger_ids_never_listed :
    ∃ db, Reachable db [] ∧ ∀ rounds, getAllLedgerIds rounds db = none := by
  refine ⟨_, Reachable.new.create (fun | .commit => true | _ => false) (some ⟨[]⟩), ?_⟩
  intro rounds
  induction rounds with
  | zero => rfl
  | succ rounds ih => exact ih

/-- Between two ledgers, the creation of a third one fails at its first block. -/
theorem ledger_ids_listed_iff_created :
    ∃ db, Reachable db [.letter 'b', .letter 'a'] ∧ ∃ rounds listed,
      getAllLedgerIds rounds db = some (.ok listed) ∧ listed.Nodup ∧
        ∀ id, id ∈ listed ↔ id ∈ [GoString.letter 'b', .letter 'a'] := by
  have first := Reachable.new.create (fun _ => false) (some (.letter 'b'))
  have failed := first.create (fun | .commit => true | _ => false) (some (.letter 'c'))
  have reachable := failed.create (fun _ => false) (some (.letter 'a'))
  exact ⟨_, reachable, (ledger_ids_listed_iff reachable).mpr (by decide)⟩

end Fabric.Ledger.IdStore
