import Fabric.Ledger.StateLevelDB

/-!
# The state database on CouchDB

A batch is applied by a remote call for each update, one after the other.  The
savepoint is written last: after a restart the blocks after the savepoint are
applied again.  A call may fail, and one that fails may have been carried out
all the same.
-/

namespace Fabric.Ledger.StateCouchDB

open Library ByteString StateDB
open StateLevelDB (Update constructCompositeKey)
open Std (ExtTreeMap)

/-! ## The database and its replies -/

/-- A value with its version and namespace: wrapped if it is JSON, attached otherwise. -/
structure CouchDoc where
  version : Height
  chaincodeID : GoString
  data : Slice
  valueBytes : Slice
deriving DecidableEq

/-- The document that says up to where blocks have been committed. -/
structure SavepointData where
  height : Height
  updateSeq : GoString

/-- The documents by their ids.  The id of the savepoint has no zero byte, as other ids have. -/
structure CouchDatabase where
  documents : ExtTreeMap GoString CouchDoc
  savepoint : Option SavepointData

def CouchDatabase.height (db : CouchDatabase) : Option Height :=
  db.savepoint.map SavepointData.height

/-- How a call that changes a document ends. -/
inductive Reply where
  | success
  | failure (carriedOut : Bool)
deriving DecidableEq

def Reply.takesEffect : Reply → Bool
  | .success => true
  | .failure carriedOut => carriedOut

/-- The database and the arguments of a call, with the replies that it will get. -/
structure Call where
  db : CouchDatabase
  /-- The updates in the order in which the maps of the batch are visited. -/
  updates : List (Update × Reply)
  height : Height
  /-- What the full commit reports, if there is no error. -/
  fullCommit : Option Bool
  /-- The update sequence of the database, if there is no error. -/
  databaseInfo : Option GoString
  savepoint : Reply

/-- Why a request to the database fails. -/
inductive CouchError where
  | saveDoc
  | fullCommit
  | databaseInfo
  | savepoint

/-! ## Applying a batch -/

def docID (update : Update) : GoString :=
  ⟨constructCompositeKey update.ns update.key⟩

section

variable (isJSON : Bytes → Bool)

/-- The document that an update asks for; a nil value is a deletion. -/
def couchDoc (update : Update) : Option CouchDoc :=
  update.entry.value.map fun value =>
    if isJSON value then ⟨update.entry.version, update.ns, some value, none⟩
    else ⟨update.entry.version, update.ns, none, some value⟩

/-- The documents after the call for an update. -/
def sendUpdate (documents : ExtTreeMap GoString CouchDoc) (sent : Update × Reply) :
    ExtTreeMap GoString CouchDoc :=
  if sent.2.takesEffect = false then documents
  else
    match couchDoc isJSON sent.1 with
    | none => documents.erase (docID sent.1)
    | some doc => documents.insert (docID sent.1) doc

/-- The calls for the updates, and whether all were made.  An error of a deletion is ignored. -/
def sendUpdates (documents : ExtTreeMap GoString CouchDoc) :
    List (Update × Reply) → ExtTreeMap GoString CouchDoc × Bool
  | [] => (documents, true)
  | sent :: rest =>
    if sent.1.entry.value ≠ none ∧ sent.2 ≠ .success then (sendUpdate isJSON documents sent, false)
    else sendUpdates (sendUpdate isJSON documents sent) rest

def recordSavepoint (call : Call) (documents : ExtTreeMap GoString CouchDoc) :
    CouchDatabase × Except CouchError Unit :=
  let unchanged : CouchDatabase := ⟨documents, call.db.savepoint⟩
  if call.fullCommit ≠ some true then (unchanged, .error .fullCommit)
  else
    match call.databaseInfo with
    | none => (unchanged, .error .databaseInfo)
    | some updateSeq =>
      (if call.savepoint.takesEffect then ⟨documents, some ⟨call.height, updateSeq⟩⟩ else unchanged,
        if call.savepoint = .success then .ok () else .error .savepoint)

def applyUpdates (call : Call) : CouchDatabase × Except CouchError Unit :=
  match sendUpdates isJSON call.db.documents call.updates with
  | (documents, true) => recordSavepoint call documents
  | (documents, false) => (⟨documents, call.db.savepoint⟩, .error .saveDoc)

/-! ## Recovery -/

/-- Every put and every delete of the batch has taken effect. -/
def InEffect (call : Call) (later : CouchDatabase) : Prop :=
  ∀ sent ∈ call.updates, later.documents[docID sent.1]? = couchDoc isJSON sent.1

/--
A call that returns nil has done its work, and the savepoint is not advanced
unless it is done.
-/
structure Recoverable (call : Call) : Prop where
  returned : (applyUpdates isJSON call).2 = .ok () →
      InEffect isJSON call (applyUpdates isJSON call).1 ∧
        (applyUpdates isJSON call).1.height = some call.height
  advanced : (applyUpdates isJSON call).1.height ≠ call.db.height →
      InEffect isJSON call (applyUpdates isJSON call).1

/-- Every put, the full commit and the request for the update sequence succeed. -/
structure Reached (call : Call) : Prop where
  puts : ∀ sent ∈ call.updates, sent.1.entry.value ≠ none → sent.2 = .success
  fullCommit : call.fullCommit = some true
  databaseInfo : call.databaseInfo ≠ none

/-- The savepoint is written, or it is advanced by a call that fails. -/
def Saved (call : Call) : Prop :=
  call.savepoint = .success ∨
    call.savepoint = .failure true ∧ some call.height ≠ call.db.height

/--
Updates of one document ask for the same, and a document that is to be deleted
is absent or a call that deletes it takes effect.
-/
structure Settles (call : Call) : Prop where
  compatible : ∀ sent ∈ call.updates, ∀ other ∈ call.updates, docID other.1 = docID sent.1 →
      couchDoc isJSON other.1 = couchDoc isJSON sent.1
  deletions : ∀ sent ∈ call.updates, sent.1.entry.value = none →
      call.db.documents[docID sent.1]? = none ∨
        ∃ other ∈ call.updates, docID other.1 = docID sent.1 ∧ other.2.takesEffect = true

/-- What the last call with an effect leaves of a document. -/
def held (documents : ExtTreeMap GoString CouchDoc) (updates : List (Update × Reply))
    (id : GoString) : Option CouchDoc :=
  updates.foldl (fun before sent =>
      if docID sent.1 = id ∧ sent.2.takesEffect = true then couchDoc isJSON sent.1 else before)
    documents[id]?

end

variable {isJSON : Bytes → Bool}

section

variable (documents : ExtTreeMap GoString CouchDoc)
include documents

theorem getElem?_sendUpdate (sent : Update × Reply) (id : GoString) :
    (sendUpdate isJSON documents sent)[id]? =
      if docID sent.1 = id ∧ sent.2.takesEffect = true then couchDoc isJSON sent.1
      else documents[id]? := by
  rw [sendUpdate]
  cases sent.2.takesEffect with
  | false => simp
  | true =>
    cases couchDoc isJSON sent.1 with
    | none | some _ => simp [ExtTreeMap.getElem?_erase, ExtTreeMap.getElem?_insert]

theorem sendUpdates_snd (updates : List (Update × Reply)) :
    (sendUpdates isJSON documents updates).2 = true ↔
      ∀ sent ∈ updates, sent.1.entry.value ≠ none → sent.2 = .success := by
  induction updates generalizing documents with
  | nil => simp [sendUpdates]
  | cons sent rest ih =>
    rw [sendUpdates, List.forall_mem_cons]
    split
    next fails =>
      apply iff_of_false nofun
      rintro ⟨succeeds, _⟩
      exact fails.2 (succeeds fails.1)
    next passes =>
      rw [ih, and_iff_right]
      intro put
      by_contra fails
      exact passes ⟨put, fails⟩

theorem getElem?_sendUpdates {updates : List (Update × Reply)}
    (sends : (sendUpdates isJSON documents updates).2 = true) (id : GoString) :
    (sendUpdates isJSON documents updates).1[id]? = held isJSON documents updates id := by
  induction updates generalizing documents with
  | nil => rfl
  | cons sent rest ih =>
    rw [sendUpdates] at sends ⊢
    split at sends
    next => cases sends
    next passes =>
      rw [if_neg passes, ih _ sends, held, held, List.foldl_cons, getElem?_sendUpdate]

end

section

variable {documents : ExtTreeMap GoString CouchDoc} {updates : List (Update × Reply)} {id : GoString}

theorem held_of_effect {doc : Option CouchDoc}
    (same : ∀ sent ∈ updates, docID sent.1 = id → couchDoc isJSON sent.1 = doc)
    (effect : ∃ sent ∈ updates, docID sent.1 = id ∧ sent.2.takesEffect = true) :
    held isJSON documents updates id = doc := by
  induction updates using List.reverseRecOn with
  | nil => simp at effect
  | append_singleton updates sent ih =>
    rw [held, List.foldl_concat]
    split
    next last => exact same sent (by simp) last.1
    next earlier =>
      apply ih fun other member => same other (List.mem_append_left _ member)
      rcases effect with ⟨other, member, changes⟩
      rcases List.mem_append.mp member with front | last
      · exact ⟨other, front, changes⟩
      · rw [List.mem_singleton] at last
        exact absurd (last ▸ changes) earlier

theorem held_of_no_effect
    (none : ∀ sent ∈ updates, ¬ (docID sent.1 = id ∧ sent.2.takesEffect = true)) :
    held isJSON documents updates id = documents[id]? := by
  induction updates using List.reverseRecOn with
  | nil => rfl
  | append_singleton updates sent ih =>
    rw [held, List.foldl_concat, if_neg (none sent (by simp))]
    exact ih fun other member => none other (List.mem_append_left _ member)

end

/-- Where every put succeeds, the documents are those of the batch exactly if the call settles. -/
theorem held_eq_iff_settles {call : Call}
    (puts : ∀ sent ∈ call.updates, sent.1.entry.value ≠ none → sent.2 = .success) :
    (∀ sent ∈ call.updates, held isJSON call.db.documents call.updates (docID sent.1) =
        couchDoc isJSON sent.1) ↔
      Settles isJSON call := by
  constructor
  · intro inEffect
    constructor
    · intro sent member other otherMember same
      rw [← inEffect other otherMember, same, inEffect sent member]
    · intro sent member deletion
      by_cases effect : ∃ other ∈ call.updates,
          docID other.1 = docID sent.1 ∧ other.2.takesEffect = true
      · exact .inr effect
      · left
        rw [← held_of_no_effect fun other listed changes => effect ⟨other, listed, changes⟩,
          inEffect sent member, couchDoc, deletion]
        rfl
  · intro settles sent member
    by_cases effect : ∃ other ∈ call.updates,
        docID other.1 = docID sent.1 ∧ other.2.takesEffect = true
    · exact held_of_effect (settles.compatible sent member) effect
    · have deletion : sent.1.entry.value = none := by
        by_contra put
        refine effect ⟨sent, member, rfl, ?_⟩
        rw [puts sent member put]
        rfl
      rw [held_of_no_effect fun other listed changes => effect ⟨other, listed, changes⟩,
        (settles.deletions sent member deletion).resolve_right effect, couchDoc, deletion]
      rfl

theorem applyUpdates_cases (isJSON : Bytes → Bool) (call : Call) :
    Reached call ∧
        ((applyUpdates isJSON call).2 = .ok () ↔ call.savepoint = .success) ∧
        (applyUpdates isJSON call).1.height =
          (if call.savepoint.takesEffect then some call.height else call.db.height) ∧
        (∀ id, (applyUpdates isJSON call).1.documents[id]? =
          held isJSON call.db.documents call.updates id) ∨
      ¬ Reached call ∧ (applyUpdates isJSON call).2 ≠ .ok () ∧
        (applyUpdates isJSON call).1.height = call.db.height := by
  have puts := @sendUpdates_snd isJSON call.db.documents call.updates
  have documents := @getElem?_sendUpdates isJSON call.db.documents call.updates
  rw [applyUpdates]
  generalize sendUpdates isJSON call.db.documents call.updates = result at puts documents ⊢
  rcases result with ⟨later, _ | _⟩
  · refine .inr ⟨fun reached => ?_, nofun, rfl⟩
    cases puts.mpr reached.puts
  · simp only [recordSavepoint]
    split
    next fails => exact .inr ⟨fun reached => fails reached.fullCommit, nofun, rfl⟩
    next committed =>
      cases informed : call.databaseInfo with
      | none => exact .inr ⟨fun reached => reached.databaseInfo informed, nofun, rfl⟩
      | some updateSeq =>
        refine .inl ⟨⟨puts.mp rfl, not_not.mp committed, ?_⟩, ?_, ?_, ?_⟩
        · rw [informed]
          nofun
        · simp
        · dsimp only
          split <;> rfl
        · intro id
          rw [← documents rfl id]
          dsimp only
          split <;> rfl

/--
A batch is applied recoverably exactly if, where the savepoint is reached and
saved, the deletions that fail have taken effect or have nothing to delete.  The
failure of a deletion does not keep the savepoint from being reached.
-/
theorem applyUpdates_recoverable_iff (isJSON : Bytes → Bool) (call : Call) :
    Recoverable isJSON call ↔ (Reached call → Saved call → Settles isJSON call) := by
  rcases applyUpdates_cases isJSON call with
    ⟨reached, returns, height, documents⟩ | ⟨stops, fails, height⟩
  · have inEffect : InEffect isJSON call (applyUpdates isJSON call).1 ↔ Settles isJSON call := by
      rw [← held_eq_iff_settles reached.puts]
      simp only [InEffect, documents]
    rw [← inEffect]
    constructor
    · rintro ⟨returned, advanced⟩ _ (success | ⟨failure, other⟩)
      · exact (returned (returns.mpr success)).1
      · apply advanced
        rw [height, failure]
        exact other
    · intro saves
      constructor
      · intro returned
        have success := returns.mp returned
        refine ⟨saves reached (.inl success), ?_⟩
        rw [height, success]
        rfl
      · intro advanced
        apply saves reached
        rw [height] at advanced
        cases replied : call.savepoint with
        | success => exact .inl replied
        | failure carriedOut =>
          rw [replied] at advanced
          cases carriedOut with
          | false => cases advanced rfl
          | true => exact .inr ⟨replied, advanced⟩
  · constructor
    · intro _ reached
      exact absurd reached stops
    · intro _
      exact ⟨fun returned => absurd returned fails, fun advanced => absurd height advanced⟩

namespace Sample

def update : Update := ⟨.letter 'a', .letter 'k', ⟨none, ⟨2, 0⟩⟩⟩

/-- The deletion of a document fails, and the other calls succeed. -/
def call : Call where
  db :=
    { documents := (∅ : ExtTreeMap GoString CouchDoc).insert (docID update)
        ⟨⟨1, 0⟩, .letter 'a', none, some []⟩
      savepoint := some ⟨⟨1, 0⟩, .empty⟩ }
  updates := [(update, .failure false)]
  height := ⟨2, 0⟩
  fullCommit := some true
  databaseInfo := some .empty
  savepoint := .success

end Sample

/-- A document outlives its deletion, and the savepoint is past the block that deletes it. -/
theorem failed_deletion_not_recoverable :
    (applyUpdates (fun _ => false) Sample.call).2 = .ok () ∧
      (applyUpdates (fun _ => false) Sample.call).1.height = some ⟨2, 0⟩ ∧
      ¬ Recoverable (fun _ => false) Sample.call := by
  refine ⟨rfl, rfl, ?_⟩
  intro recoverable
  exact absurd ((recoverable.returned rfl).1 _ List.mem_cons_self) (by decide +kernel)

end Fabric.Ledger.StateCouchDB
