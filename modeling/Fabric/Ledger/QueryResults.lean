import Fabric.Library.HashCommitment
import Fabric.Protos

/-!
# Summaries of range query results

During simulation the results of a range query are recorded either as they
are, or, once there are more than `maxDegree` of them, as the top level of a
tree of hashes that is built while the caller iterates.  Validation builds
the same tree from the current state and compares.

`RangeQueryResultsHelper.represents` is the invariant of the construction: the
hashes held in the tree, read from the top level down, followed by the pending
results, commit to all results added so far, in order.
-/

namespace Fabric.Ledger.QueryResults

open Library ByteString HashCommitment Protos

/-- The hash function and the encoding of query results. -/
structure Hashing where
  hash : Bytes → Bytes
  serializeKVReads : List KVRead → Bytes

instance : Countable KVRead := by
  have injective : Function.Injective fun read : KVRead =>
        (read.key.bytes.map UInt8.toNat, read.version.map fun version =>
            (version.blockNum.toNat, version.txNum.toNat)) := by
    rintro ⟨⟨leftKey⟩, leftVersion⟩ ⟨⟨rightKey⟩, rightVersion⟩ equal
    obtain ⟨keys, versions⟩ := Prod.mk.inj equal
    have toNat_injective : Function.Injective UInt8.toNat :=
      fun _ _ => UInt8.toNat_inj.mp
    have pair_injective : Function.Injective fun version : Version =>
          (version.blockNum.toNat, version.txNum.toNat) := by
      rintro ⟨leftBlock, leftTx⟩ ⟨rightBlock, rightTx⟩ pairs
      simpa [UInt64.toNat_inj] using pairs
    obtain rfl : leftKey = rightKey :=
      List.map_injective_iff.mpr toNat_injective keys
    obtain rfl : leftVersion = rightVersion :=
      Option.map_injective pair_injective versions
    rfl
  exact injective.countable

/-- What a recorded summary says about the entries that were returned. -/
def Summarises (hashing : Hashing) (readsInfo : Option ReadsInfo) (reads : List KVRead) : Prop :=
  match readsInfo with
  | none => reads = []
  | some (.rawReads raw) => raw.kvReads = reads
  | some (.readsMerkleHashes summary) =>
    CommitsAll hashing.hash hashing.serializeKVReads summary.maxLevelHashes reads

/-! ## The tree of hashes -/

/--
The levels of the tree from the leaf level up to the highest level reached so
far.  A level is emptied when its hashes are combined into one on the level
above.
-/
structure MerkleTree where
  tree : List (List Bytes)
  maxDegree : UInt32
deriving DecidableEq

/-- A tree whose nodes would have fewer than two children is refused. -/
def newMerkleTree (maxDegree : UInt32) : Option MerkleTree :=
  if maxDegree < 2 then none else some ⟨[[]], maxDegree⟩

def computeCombinedHash (hash : Bytes → Bytes) (hashes : List Bytes) : Bytes :=
  hash hashes.flatten

/-- Append a hash to the lowest level, combining levels that overflow. -/
def updateLevels (hash : Bytes → Bytes) (maxDegree : UInt32) :
    List (List Bytes) → Bytes → List (List Bytes)
  | [], next => [[next]]
  | currentLevelHashes :: above, next =>
    let grown := currentLevelHashes ++ [next]
    if UInt32.ofNat grown.length ≤ maxDegree then grown :: above
    else [] :: updateLevels hash maxDegree above (computeCombinedHash hash grown)

/-- The hashes that a level hands to the level above when it is closed. -/
def promote (hash : Bytes → Bytes) : List Bytes → List Bytes
  | [] => []
  | [single] => [single]
  | hashes => [computeCombinedHash hash hashes]

/-- Close all levels below the highest one, carrying hashes upwards. -/
def closeLevels (hash : Bytes → Bytes) (carried : List Bytes) :
    List (List Bytes) → List (List Bytes)
  | [] => [carried]
  | [top] => [top ++ carried]
  | level :: next :: above =>
    [] :: closeLevels hash (promote hash (level ++ carried)) (next :: above)

namespace MerkleTree

def getMaxLevel (mt : MerkleTree) : UInt32 :=
  UInt32.ofNat mt.tree.length

def getMaxLevelHashes (mt : MerkleTree) : List Bytes :=
  mt.tree.getLast?.getD []

def isEmpty (mt : MerkleTree) : Bool :=
  mt.getMaxLevel == 1 && mt.getMaxLevelHashes.isEmpty

/-- Adds a hash at the leaves. -/
def update (hash : Bytes → Bytes) (mt : MerkleTree) (next : Bytes) : MerkleTree :=
  { mt with tree := updateLevels hash mt.maxDegree mt.tree next }

/-- Complete the tree; the highest level may overflow one more time. -/
def done (hash : Bytes → Bytes) (mt : MerkleTree) : MerkleTree :=
  let closed : MerkleTree := { mt with tree := closeLevels hash [] mt.tree }
  let finalHashes := closed.getMaxLevelHashes
  if mt.maxDegree < UInt32.ofNat finalHashes.length then
    { closed with tree := closed.tree.dropLast ++ [[], [computeCombinedHash hash finalHashes]] }
  else
    closed

def getSummery (mt : MerkleTree) : QueryReadsMerkleSummary where
  maxDegree := mt.maxDegree
  maxLevel := mt.getMaxLevel
  maxLevelHashes := mt.getMaxLevelHashes

end MerkleTree

def summaryEqual (summary : QueryReadsMerkleSummary)
    (other : Option QueryReadsMerkleSummary) : Bool :=
  match other with
  | none => false
  | some other => summary == other

/-! ## The helper -/

/-- The results not yet hashed, and the tree when hashing is enabled. -/
structure RangeQueryResultsHelper where
  pendingResults : List KVRead
  mt : Option MerkleTree
  maxDegree : UInt32
deriving DecidableEq

def newRangeQueryResultsHelper (enableHashing : Bool) (maxDegree : UInt32) :
    Option RangeQueryResultsHelper :=
  if enableHashing then (newMerkleTree maxDegree).map fun mt => ⟨[], some mt, maxDegree⟩
  else some ⟨[], none, maxDegree⟩

namespace RangeQueryResultsHelper

variable (hashing : Hashing)

section

variable (helper : RangeQueryResultsHelper)

/-- Hashes what is pending into the tree. -/
def processPendingResults (mt : MerkleTree) : RangeQueryResultsHelper :=
  let digest := hashing.hash (hashing.serializeKVReads helper.pendingResults)
  { helper with
    pendingResults := []
    mt := some (mt.update hashing.hash digest) }

/-- Adds one result. -/
def addResult (kvRead : KVRead) : RangeQueryResultsHelper :=
  let added := { helper with pendingResults := helper.pendingResults ++ [kvRead] }
  match helper.mt with
  | none => added
  | some mt =>
    if helper.maxDegree < UInt32.ofNat added.pendingResults.length then
      added.processPendingResults hashing mt
    else
      added

/-- The raw results, or the summary of the tree if anything was hashed. -/
def done : List KVRead × Option QueryReadsMerkleSummary :=
  match helper.mt with
  | none => (helper.pendingResults, none)
  | some mt =>
    if mt.isEmpty then
      (helper.pendingResults, none)
    else if helper.pendingResults.isEmpty then
      (helper.pendingResults, some (mt.done hashing.hash).getSummery)
    else
      let digest := hashing.hash (hashing.serializeKVReads helper.pendingResults)
      ([], some ((mt.update hashing.hash digest).done hashing.hash).getSummery)

/-- The state of the summary while results are still being added. -/
def getMerkleSummary : Option QueryReadsMerkleSummary :=
  helper.mt.map MerkleTree.getSummery

/-- Adds results in order. -/
def addResults (kvReads : List KVRead) : RangeQueryResultsHelper :=
  kvReads.foldl (addResult hashing) helper

end

end RangeQueryResultsHelper

/-! ## The tree commits to the results -/

section

variable {hash : Bytes → Bytes} {encode : List KVRead → Bytes}

/-- The hashes of the tree, oldest results first. -/
def levelHashes (levels : List (List Bytes)) : List Bytes :=
  levels.reverse.flatten

@[simp]
theorem levelHashes_cons (level : List Bytes) (above : List (List Bytes)) :
    levelHashes (level :: above) = levelHashes above ++ level := by
  simp [levelHashes]

@[simp]
theorem levelHashes_nil : levelHashes [] = [] :=
  rfl

theorem updateLevels_commits (maxDegree : UInt32) (levels : List (List Bytes)) (next : Bytes)
    {older newer : List KVRead} (levelsCommit : CommitsAll hash encode (levelHashes levels) older)
    (nextCommits : Commits hash encode next newer) :
    CommitsAll hash encode (levelHashes (updateLevels hash maxDegree levels next))
      (older ++ newer) := by
  induction levels generalizing next older newer with
  | nil =>
    obtain rfl : older = [] := by simpa using levelsCommit
    simpa [updateLevels] using CommitsAll.singleton nextCommits
  | cons level _ ih =>
    rw [levelHashes_cons] at levelsCommit
    obtain ⟨_, right, rfl, aboveCommit, levelCommits⟩ := levelsCommit.split
    have grownCommits : CommitsAll hash encode (level ++ [next]) (right ++ newer) :=
      levelCommits.append (CommitsAll.singleton nextCommits)
    rw [List.append_assoc]
    simp only [updateLevels]
    split
    · rw [levelHashes_cons]
      exact aboveCommit.append grownCommits
    · rw [levelHashes_cons, List.append_nil]
      exact ih _ aboveCommit (grownCommits.combine (by simp))

variable {leaves : List KVRead}

private theorem promote_commits {hashes : List Bytes}
    (commits : CommitsAll hash encode hashes leaves) :
    CommitsAll hash encode (promote hash hashes) leaves := by
  unfold promote
  split
  · exact commits
  · exact commits
  · rename_i several _
    refine CommitsAll.singleton (commits.combine ?_)
    rintro rfl
    contradiction

theorem closeLevels_commits (levels : List (List Bytes)) (carried : List Bytes)
    (commits : CommitsAll hash encode (levelHashes levels ++ carried) leaves) :
    CommitsAll hash encode (levelHashes (closeLevels hash carried levels))
      leaves := by
  induction levels generalizing carried leaves with
  | nil => simpa [closeLevels] using commits
  | cons _ above ih =>
    rw [levelHashes_cons, List.append_assoc] at commits
    cases above with
    | nil => simpa [closeLevels] using commits
    | cons _ above =>
      obtain ⟨_, _, rfl, aboveCommit, levelCommits⟩ := commits.split
      rw [closeLevels, levelHashes_cons, List.append_nil]
      exact ih _ (aboveCommit.append (promote_commits levelCommits))

theorem levelHashes_closeLevels (levels : List (List Bytes)) (carried : List Bytes) :
    levelHashes (closeLevels hash carried levels) =
      (closeLevels hash carried levels).getLast?.getD [] := by
  induction levels generalizing carried with
  | nil => simp [closeLevels]
  | cons level above ih =>
    cases above with
    | nil => simp [closeLevels]
    | cons next above =>
      have step := ih (promote hash (level ++ carried))
      have nonempty : closeLevels hash (promote hash (level ++ carried)) (next :: above) ≠ [] := by
        cases above <;> simp [closeLevels]
      rw [closeLevels, levelHashes_cons, List.append_nil, step,
        List.getLast?_cons_of_ne_nil nonempty]

theorem MerkleTree.done_commits (mt : MerkleTree)
    (commits : CommitsAll hash encode (levelHashes mt.tree) leaves) :
    CommitsAll hash encode (mt.done hash).getMaxLevelHashes leaves := by
  have closed : CommitsAll hash encode ((closeLevels hash [] mt.tree).getLast?.getD []) leaves := by
    rw [← levelHashes_closeLevels]
    exact closeLevels_commits mt.tree [] (by simpa using commits)
  by_cases overflow : mt.maxDegree < UInt32.ofNat
          ((closeLevels hash [] mt.tree).getLast?.getD []).length
  · have nonempty : (closeLevels hash [] mt.tree).getLast?.getD [] ≠ [] := by
      intro empty
      rw [empty] at overflow
      simp at overflow
    simpa [MerkleTree.done, MerkleTree.getMaxLevelHashes, overflow, computeCombinedHash] using
      CommitsAll.singleton (closed.combine nonempty)
  · simpa [MerkleTree.done, MerkleTree.getMaxLevelHashes, overflow] using closed

/-! ## The helper represents the results it was given -/

/-- The highest level holds a hash, unless nothing was hashed yet. -/
def Filled (mt : MerkleTree) : Prop :=
  mt.tree = [[]] ∨ mt.tree.getLast? ≠ some []

private theorem updateLevels_getLast?
    (maxDegree : UInt32) (levels : List (List Bytes)) (next : Bytes)
    (filled : levels.getLast? ≠ some []) :
    (updateLevels hash maxDegree levels next).getLast? ≠ some [] := by
  induction levels generalizing next with
  | nil => simp [updateLevels]
  | cons level above ih =>
    cases above with
    | nil =>
      simp only [updateLevels]
      split <;> simp
    | cons upper above =>
      have aboveFilled : (upper :: above).getLast? ≠ some [] := by
        simpa using filled
      rw [updateLevels]
      split
      · simpa using aboveFilled
      · have step := ih (computeCombinedHash hash (level ++ [next])) aboveFilled
        have nonempty (digest : Bytes) :
            updateLevels hash maxDegree (upper :: above) digest ≠ [] := by
          simp only [updateLevels]
          split <;> simp
        rw [List.getLast?_cons_of_ne_nil (nonempty _)]
        exact step

theorem update_filled (mt : MerkleTree) (next : Bytes) (filled : Filled mt) :
    Filled (mt.update hash next) := by
  right
  rcases filled with fresh | filled
  · simp only [MerkleTree.update, fresh, updateLevels]
    split <;> simp
  · exact updateLevels_getLast? mt.maxDegree mt.tree next filled

theorem isEmpty_tree {mt : MerkleTree} (filled : Filled mt) (empty : mt.isEmpty = true) :
    mt.tree = [[]] := by
  rcases filled with fresh | filled
  · exact fresh
  · simp only [MerkleTree.isEmpty, MerkleTree.getMaxLevel, MerkleTree.getMaxLevelHashes,
      Bool.and_eq_true, beq_iff_eq, List.isEmpty_iff] at empty
    cases last : mt.tree.getLast? with
    | none =>
      rw [List.getLast?_eq_none_iff] at last
      rw [last] at empty
      exact absurd empty.1 (by decide)
    | some top =>
      rw [last] at empty
      obtain rfl : top = [] := by simpa using empty.2
      exact absurd last filled

end

/--
The helper holds the given results: those already hashed are committed to by
the tree, the others are pending.
-/
def RangeQueryResultsHelper.Represents (hashing : Hashing) (helper : RangeQueryResultsHelper)
    (results : List KVRead) : Prop :=
  ∃ hashed, results = hashed ++ helper.pendingResults ∧
      match helper.mt with
      | none => hashed = []
      | some mt =>
        Filled mt ∧ CommitsAll hashing.hash hashing.serializeKVReads (levelHashes mt.tree) hashed

namespace RangeQueryResultsHelper

variable {hashing : Hashing} {helper : RangeQueryResultsHelper}

theorem represents_new {enableHashing : Bool} {maxDegree : UInt32}
    (created : newRangeQueryResultsHelper enableHashing maxDegree = some helper) :
    helper.Represents hashing [] := by
  cases enableHashing with
  | false =>
    obtain rfl : _ = helper := by
      simpa [newRangeQueryResultsHelper] using created
    exact ⟨[], rfl, rfl⟩
  | true =>
    simp only [newRangeQueryResultsHelper, newMerkleTree, if_true] at created
    split at created
    · simp at created
    · obtain rfl : _ = helper := by simpa using created
      exact ⟨[], rfl, Or.inl rfl, by simp⟩

variable {results : List KVRead}

section

variable (represents : helper.Represents hashing results)
include represents

theorem Represents.addResult (kvRead : KVRead) :
    (helper.addResult hashing kvRead).Represents hashing (results ++ [kvRead]) := by
  obtain ⟨hashed, resultsEq, committed⟩ := represents
  cases tree : helper.mt with
  | none =>
    refine ⟨hashed, ?_, ?_⟩
    · simp [RangeQueryResultsHelper.addResult, tree, resultsEq]
    · simpa [RangeQueryResultsHelper.addResult, tree] using committed
  | some mt =>
    rw [tree] at committed
    simp only [RangeQueryResultsHelper.addResult, tree]
    split
    · refine ⟨hashed ++ (helper.pendingResults ++ [kvRead]), ?_, ?_, ?_⟩
      · simp [processPendingResults, resultsEq]
      · exact update_filled mt _ committed.1
      · exact updateLevels_commits mt.maxDegree mt.tree _ committed.2 (commits_leaf (by simp))
    · refine ⟨hashed, ?_, ?_⟩
      · simp [resultsEq]
      · simpa [tree] using committed

theorem Represents.addResults
    (kvReads : List KVRead) : (helper.addResults hashing kvReads).Represents hashing
      (results ++ kvReads) := by
  induction kvReads generalizing helper results with
  | nil => simpa [RangeQueryResultsHelper.addResults] using represents
  | cons kvRead kvReads ih =>
    have step := ih (represents.addResult kvRead)
    simpa [RangeQueryResultsHelper.addResults] using step

/-- What `done` hands out determines the results, up to hash collisions. -/
theorem Represents.done :
    (helper.done hashing = (results, none)) ∨ ∃ summary, helper.done hashing = ([], some summary) ∧
          CommitsAll hashing.hash hashing.serializeKVReads summary.maxLevelHashes results := by
  obtain ⟨hashed, rfl, committed⟩ := represents
  cases tree : helper.mt with
  | none =>
    left
    obtain rfl : hashed = [] := by simpa [tree] using committed
    simp [RangeQueryResultsHelper.done, tree]
  | some mt =>
    rw [tree] at committed
    by_cases empty : mt.isEmpty = true
    · left
      have fresh := isEmpty_tree committed.1 empty
      obtain rfl : hashed = [] := by
        simpa [fresh] using committed.2
      simp [RangeQueryResultsHelper.done, tree, empty]
    · right
      cases pending : helper.pendingResults with
      | nil =>
        refine ⟨(mt.done hashing.hash).getSummery, ?_, ?_⟩
        · simp [RangeQueryResultsHelper.done, tree, empty, pending]
        · rw [List.append_nil]
          exact MerkleTree.done_commits mt committed.2
      | cons first rest =>
        have updated := updateLevels_commits mt.maxDegree mt.tree
            (hashing.hash (hashing.serializeKVReads (first :: rest)))
            committed.2 (commits_leaf (by simp))
        let completed := mt.update hashing.hash
            (hashing.hash (hashing.serializeKVReads (first :: rest)))
        refine ⟨(completed.done hashing.hash).getSummery, ?_, ?_⟩
        · simp [RangeQueryResultsHelper.done, tree, empty, pending, completed]
        · exact MerkleTree.done_commits completed updated

end

end RangeQueryResultsHelper

end Fabric.Ledger.QueryResults
