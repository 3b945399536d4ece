import Fabric.Ledger.QueryGrowth
import Mathlib.Data.Nat.Digits.Lemmas

/-!
# The shape of a summary

The tree of hashes counts in base `maxDegree + 1`.  A level that is full is
combined into one hash of the level above, as a digit is carried, so the numbers
of pending results and of hashes on the levels are the digits of the number of
results.

From this follows when a summary is returned and how many hashes it has.  A
summary identifies the results it was built from.  Lengths are compared in 32
bits: with the largest of all degrees nothing is ever hashed.
-/

namespace Fabric.Ledger.QueryShape

open Library ByteString HashCommitment Protos QueryResults QueryGrowth

/-! ## The digits of a tree -/

/-- The numbers of hashes on the levels, from the leaf level up. -/
def sizes (levels : List (List Bytes)) : List Nat :=
  levels.map List.length

/-- The degree is at least two, and one more does not wrap around. -/
structure Regular (maxDegree : UInt32) : Prop where
  atLeastTwo : 2 ≤ maxDegree.toNat
  fits : maxDegree.toNat + 1 < 2 ^ 32

def base (maxDegree : UInt32) : Nat :=
  maxDegree.toNat + 1

/-- No level has more hashes than a node has children. -/
def Fits (maxDegree : UInt32) (levels : List (List Bytes)) : Prop :=
  ∀ size ∈ sizes levels, size < base maxDegree

variable {hash : Bytes → Bytes}

section

variable {maxDegree : UInt32}

section

variable (regular : Regular maxDegree)
include regular

theorem Regular.ofNat_le_iff {length : Nat} (bound : length ≤ base maxDegree) :
    UInt32.ofNat length ≤ maxDegree ↔ length < base maxDegree := by
  have small : length < 2 ^ 32 := bound.trans_lt regular.fits
  rw [UInt32.le_iff_toNat_le, UInt32.toNat_ofNat_of_lt' small, base, Nat.lt_succ_iff]

variable {levels : List (List Bytes)}

theorem updateLevels_sizes (fits : Fits maxDegree levels) (next : Bytes) :
    Fits maxDegree (updateLevels hash maxDegree levels next) ∧ Nat.ofDigits (base maxDegree)
          (sizes (updateLevels hash maxDegree levels next)) =
        Nat.ofDigits (base maxDegree) (sizes levels) + 1 := by
  have positive := regular.atLeastTwo
  induction levels generalizing next with
  | nil =>
    constructor
    · simp [Fits, sizes, updateLevels, base]
      omega
    · simp [sizes, updateLevels]
  | cons level above ih =>
    have here : level.length < base maxDegree := fits _ (by simp [sizes])
    have rest : Fits maxDegree above := fun size member => fits size (List.mem_cons_of_mem _ member)
    have added : (level ++ [next]).length = level.length + 1 := by simp
    have within := regular.ofNat_le_iff (added ▸ here : (level ++ [next]).length ≤ base maxDegree)
    simp only [updateLevels, within]
    split_ifs with room
    · constructor
      · intro size member
        rcases List.mem_cons.mp member with rfl | member
        · exact room
        · exact rest size member
      · simp only [sizes, List.map_cons, Nat.ofDigits_cons, added]
        omega
    · rcases ih rest (computeCombinedHash hash (level ++ [next])) with ⟨restFits, carried⟩
      constructor
      · intro size member
        rcases List.mem_cons.mp member with rfl | member
        · exact Nat.succ_pos _
        · exact restFits size member
      · have full : level.length + 1 = base maxDegree := by omega
        simp only [sizes, List.map_cons, Nat.ofDigits_cons, List.length_nil] at carried ⊢
        rw [carried, Nat.mul_add, ← full]
        omega

theorem Regular.one_lt_base : 1 < base maxDegree := by
  have positive := regular.atLeastTwo
  rw [base]
  omega

/-- The levels of a tree that holds hashes are the digits of their number. -/
theorem sizes_eq_digits (fits : Fits maxDegree levels) (filled : levels.getLast? ≠ some []) :
    sizes levels = Nat.digits (base maxDegree) (Nat.ofDigits (base maxDegree) (sizes levels)) := by
  refine (Nat.digits_ofDigits (base maxDegree) regular.one_lt_base _ fits ?_).symm
  intro nonempty last
  apply filled
  have levelsNonempty : levels ≠ [] := by
    rintro rfl
    exact nonempty rfl
  rw [List.getLast?_eq_some_getLast levelsNonempty]
  simpa [sizes, List.getLast_map] using last

end

end

/-! ## Trees and helpers that count -/

/-- A tree over a number of leaves. -/
structure Leaves (mt : MerkleTree) (maxDegree : UInt32) (leaves : Nat) : Prop where
  degree : mt.maxDegree = maxDegree
  nonempty : mt.tree ≠ []
  filled : Filled mt
  fits : Fits maxDegree mt.tree
  count : Nat.ofDigits (base maxDegree) (sizes mt.tree) = leaves

variable {leaves : Nat}

theorem Leaves.update {mt : MerkleTree} {maxDegree : UInt32} (tree : Leaves mt maxDegree leaves)
    (regular : Regular maxDegree) (hash : Bytes → Bytes) (next : Bytes) :
    Leaves (mt.update hash next) maxDegree (leaves + 1) ∧
      Grown mt.tree (mt.update hash next).tree := by
  rcases tree with ⟨rfl, nonempty, filled, fits, rfl⟩
  have updated := @updateLevels_sizes hash _ regular _ fits next
  have grown := @grown_updateLevels hash _ mt.maxDegree nonempty next
  refine ⟨?_, grown⟩
  exact
    { degree := rfl
      nonempty := grown.ne_nil nonempty
      filled := update_filled mt next filled
      fits := updated.1
      count := updated.2 }

/-- A helper with hashing that was given a number of results. -/
structure Counted (helper : RangeQueryResultsHelper) (mt : MerkleTree) (maxDegree : UInt32)
    (count : Nat) : Prop where
  tree : helper.mt = some mt
  degree : helper.maxDegree = maxDegree
  leaves : Leaves mt maxDegree (count / base maxDegree)
  pending : helper.pendingResults.length = count % base maxDegree

theorem counted_new {maxDegree : UInt32} {fresh : RangeQueryResultsHelper}
    (created : newRangeQueryResultsHelper true maxDegree = some fresh) :
    2 ≤ maxDegree.toNat ∧ Counted fresh ⟨[[]], maxDegree⟩ maxDegree 0 := by
  simp only [newRangeQueryResultsHelper, newMerkleTree, if_true] at created
  split_ifs at created with small
  · cases created
  · cases created
    refine ⟨UInt32.le_iff_toNat_le.mp (UInt32.not_lt.mp small), ?_⟩
    exact
      { tree := rfl
        degree := rfl
        leaves := by
          rw [Nat.zero_div]
          constructor
          · rfl
          · exact List.cons_ne_nil _ _
          · exact .inl rfl
          · simp [Fits, sizes, base]
          · simp [sizes]
        pending := (Nat.zero_mod _).symm }

namespace Counted

variable {hashing : Hashing} {maxDegree : UInt32} {helper : RangeQueryResultsHelper}
  {mt : MerkleTree} {count : Nat}

theorem addResult (counted : Counted helper mt maxDegree count)
    (regular : Regular maxDegree) (kvRead : KVRead) :
    ∃ later, Counted (helper.addResult hashing kvRead) later maxDegree (count + 1) ∧
        Grown mt.tree later.tree := by
  have modulus : 0 < base maxDegree := Nat.zero_lt_one.trans regular.one_lt_base
  have below := Nat.mod_lt count modulus
  have division := Nat.div_add_mod count (base maxDegree)
  have added : (helper.pendingResults ++ [kvRead]).length = count % base maxDegree + 1 := by
    rw [List.length_append, List.length_singleton, counted.pending]
  have within := regular.ofNat_le_iff (Nat.succ_le_of_lt below)
  rw [← UInt32.not_lt] at within
  simp only [RangeQueryResultsHelper.addResult, counted.tree, counted.degree, added]
  by_cases room : count % base maxDegree + 1 < base maxDegree
  · have kept : count + 1 = count % base maxDegree + 1 +
            base maxDegree * (count / base maxDegree) := by
      omega
    rw [if_neg (within.mpr room)]
    refine ⟨mt, ?_, Grown.refl _⟩
    exact
      { tree := rfl
        degree := rfl
        leaves := by
          rw [kept, Nat.add_mul_div_left _ _ modulus, Nat.div_eq_of_lt room, Nat.zero_add]
          exact counted.leaves
        pending := by
          rw [kept, Nat.add_mul_mod_self_left, Nat.mod_eq_of_lt room]
          exact added }
  · -- the pending results make up a leaf
    have carried : count + 1 = base maxDegree * (count / base maxDegree + 1) := by
      rw [Nat.mul_add]
      omega
    rw [if_pos (not_not.mp (within.not.mpr room))]
    have updated := counted.leaves.update regular hashing.hash (hashing.hash
          (hashing.serializeKVReads (helper.pendingResults ++ [kvRead])))
    refine ⟨_, ?_, updated.2⟩
    exact
      { tree := rfl
        degree := rfl
        leaves := by
          rw [carried, Nat.mul_div_cancel_left _ modulus]
          exact updated.1
        pending := by
          rw [carried, Nat.mul_mod_right]
          rfl }

theorem addResults (counted : Counted helper mt maxDegree count)
    (regular : Regular maxDegree) (kvReads : List KVRead) :
    ∃ later, Counted (helper.addResults hashing kvReads) later maxDegree (count + kvReads.length) ∧
        Grown mt.tree later.tree := by
  induction kvReads generalizing helper mt count with
  | nil => exact ⟨mt, counted, Grown.refl _⟩
  | cons kvRead kvReads ih =>
    rcases counted.addResult regular kvRead with ⟨_, added, grown⟩
    rcases ih added with ⟨later, hashed, grownLater⟩
    refine ⟨later, ?_, grown.trans grownLater⟩
    rw [List.length_cons, Nat.add_comm kvReads.length, ← Nat.add_assoc]
    exact hashed

end Counted

/-! ## Completed trees -/

section

variable {maxDegree : UInt32} {mt : MerkleTree}

theorem length_promote_le (hashes : List Bytes) : (promote hash hashes).length ≤ 1 := by
  unfold promote
  split <;> simp

theorem exists_topLevel_closeLevels {levels : List (List Bytes)} (nonempty : levels ≠ [])
    {carried : List Bytes} (single : carried.length ≤ 1) :
    ∃ extra : List Bytes, extra.length ≤ 1 ∧
      topLevel (closeLevels hash carried levels) = topLevel levels ++ extra := by
  induction levels generalizing carried with
  | nil => exact absurd rfl nonempty
  | cons level above ih =>
    cases above with
    | nil => exact ⟨carried, single, rfl⟩
    | cons upper above =>
      have higher : upper :: above ≠ [] := List.cons_ne_nil _ _
      have closed : closeLevels hash (promote hash (level ++ carried)) (upper :: above) ≠ [] := by
        cases above <;> exact List.cons_ne_nil _ _
      rw [closeLevels, topLevel_cons _ closed, topLevel_cons _ higher]
      exact ih higher (length_promote_le _)

theorem Leaves.isEmpty_iff (tree : Leaves mt maxDegree leaves) (regular : Regular maxDegree) :
    mt.isEmpty = true ↔ leaves = 0 := by
  constructor
  · intro empty
    rw [← tree.count, isEmpty_tree tree.filled empty]
    simp [sizes]
  · rintro rfl
    rcases tree.filled with fresh | filled
    · simp [MerkleTree.isEmpty, MerkleTree.getMaxLevel, MerkleTree.getMaxLevelHashes, fresh]
    · have digits := sizes_eq_digits regular tree.fits filled
      rw [tree.count, Nat.digits_zero, sizes, List.map_eq_nil_iff] at digits
      exact absurd digits tree.nonempty

/-- The highest level is neither empty nor has it more than `maxDegree` hashes. -/
theorem Leaves.length_topLevel (tree : Leaves mt maxDegree leaves) (occupied : leaves ≠ 0) :
    1 ≤ (topLevel mt.tree).length ∧ (topLevel mt.tree).length ≤ maxDegree.toNat := by
  have last := List.getLast?_eq_some_getLast tree.nonempty
  have top : topLevel mt.tree = mt.tree.getLast tree.nonempty := by
    rw [topLevel, last, Option.getD_some]
  rw [top]
  constructor
  · rcases tree.filled with fresh | filled
    · rw [← tree.count, fresh] at occupied
      exact absurd (by simp [sizes]) occupied
    · rw [last, ne_eq, Option.some.injEq] at filled
      exact List.length_pos_of_ne_nil filled
  · apply Nat.le_of_lt_succ
    apply tree.fits
    exact List.mem_map_of_mem (List.getLast_mem tree.nonempty)

theorem Leaves.done (tree : Leaves mt maxDegree leaves) (regular : Regular maxDegree)
    (occupied : leaves ≠ 0) : (mt.done hash).maxDegree = maxDegree ∧
      1 ≤ (mt.done hash).getMaxLevelHashes.length ∧
      (mt.done hash).getMaxLevelHashes.length ≤ maxDegree.toNat := by
  rcases tree.length_topLevel occupied with ⟨_, _⟩
  rcases @exists_topLevel_closeLevels hash _ tree.nonempty [] (Nat.zero_le _)
    with ⟨extra, _, closed⟩
  have final : (closeLevels hash [] mt.tree).getLast?.getD [] = topLevel mt.tree ++ extra := closed
  have counted : (topLevel mt.tree ++ extra).length ≤ base maxDegree := by
    rw [List.length_append, base]
    omega
  have within := regular.ofNat_le_iff counted
  have positive := regular.atLeastTwo
  simp only [MerkleTree.done, MerkleTree.getMaxLevelHashes, final, tree.degree]
  split_ifs with overflow
  · simp
    omega
  · rw [UInt32.not_lt, within] at overflow
    simp only [final, true_and]
    rw [List.length_append, base] at overflow
    rw [List.length_append]
    omega

end

theorem Counted.done {hashing : Hashing} {maxDegree : UInt32}
    {helper : RangeQueryResultsHelper} {mt : MerkleTree} {count : Nat}
    (counted : Counted helper mt maxDegree count) (regular : Regular maxDegree) :
    if count ≤ maxDegree.toNat then
      helper.done hashing = (helper.pendingResults, none)
    else
      ∃ summary : QueryReadsMerkleSummary, helper.done hashing = ([], some summary) ∧
          summary.maxDegree = maxDegree ∧
          1 ≤ summary.maxLevelHashes.length ∧
          summary.maxLevelHashes.length ≤ maxDegree.toNat := by
  have modulus : 0 < base maxDegree := Nat.zero_lt_one.trans regular.one_lt_base
  have few : count / base maxDegree = 0 ↔ count ≤ maxDegree.toNat := by
    rw [Nat.div_eq_zero_iff_lt modulus, base, Nat.lt_succ_iff]
  have empty := counted.leaves.isEmpty_iff regular
  rw [few] at empty
  simp only [RangeQueryResultsHelper.done, counted.tree, empty]
  split_ifs with short none
  · rfl
  · refine ⟨_, Prod.ext (List.isEmpty_iff.mp none) rfl, ?_⟩
    exact counted.leaves.done regular (few.not.mpr short)
  · refine ⟨_, rfl, ?_⟩
    exact (counted.leaves.update regular _ _).1.done regular (Nat.succ_ne_zero _)

/-! ## The output for a list of results -/

section

variable (hashing : Hashing) (maxDegree : UInt32)

/-- The output of a helper with hashing that is given all results. -/
def output (results : List KVRead) : Option (List KVRead × Option QueryReadsMerkleSummary) := do
  let helper ← newRangeQueryResultsHelper true maxDegree
  some ((helper.addResults hashing results).done hashing)

/-- A summary stands for the results, and is not larger than they were. -/
structure WellShaped (results : List KVRead) : Prop where
  identifies : ∀ other, output hashing maxDegree other = output hashing maxDegree results →
        other = results
  summary : ∀ raw summary, output hashing maxDegree results = some (raw, some summary) →
        raw = [] ∧ 1 ≤ summary.maxLevelHashes.length ∧
          summary.maxLevelHashes.length ≤ maxDegree.toNat
  summarised : (∃ raw summary, output hashing maxDegree results = some (raw, some summary)) ↔
      maxDegree.toNat < results.length

end

section

variable {hashing : Hashing} {maxDegree : UInt32}

theorem newRangeQueryResultsHelper_of_le (atLeastTwo : 2 ≤ maxDegree) :
    newRangeQueryResultsHelper true maxDegree = some ⟨[], some ⟨[[]], maxDegree⟩, maxDegree⟩ := by
  rw [newRangeQueryResultsHelper, if_pos rfl, newMerkleTree,
    if_neg (UInt32.not_lt.mpr atLeastTwo), Option.map_some]

theorem output_eq (atLeastTwo : 2 ≤ maxDegree) (results : List KVRead) :
    output hashing maxDegree results = some ((RangeQueryResultsHelper.addResults hashing
          ⟨[], some ⟨[[]], maxDegree⟩, maxDegree⟩ results).done hashing) := by
  rw [output, newRangeQueryResultsHelper_of_le atLeastTwo]
  rfl

theorem output_injective (free : CollisionFree hashing.hash hashing.serializeKVReads)
    (atLeastTwo : 2 ≤ maxDegree) :
    Function.Injective (output hashing maxDegree) := by
  have fresh : RangeQueryResultsHelper.Represents hashing
        ⟨[], some ⟨[[]], maxDegree⟩, maxDegree⟩ [] :=
    RangeQueryResultsHelper.represents_new (newRangeQueryResultsHelper_of_le atLeastTwo)
  intro left right equal
  rw [output_eq atLeastTwo, output_eq atLeastTwo, Option.some.injEq] at equal
  have leftDone := (fresh.addResults left).done
  have rightDone := (fresh.addResults right).done
  rw [List.nil_append] at leftDone rightDone
  rcases leftDone with leftRaw | ⟨leftSummary, leftHashed, leftCommits⟩
  · rcases rightDone with rightRaw | ⟨rightSummary, rightHashed, _⟩
    · rw [leftRaw, rightRaw] at equal
      exact (Prod.mk.inj equal).1
    · rw [leftRaw, rightHashed] at equal
      cases (Prod.mk.inj equal).2
  · rcases rightDone with rightRaw | ⟨rightSummary, rightHashed, rightCommits⟩
    · rw [leftHashed, rightRaw] at equal
      cases (Prod.mk.inj equal).2
    · rw [leftHashed, rightHashed] at equal
      have same : leftSummary = rightSummary := Option.some.inj (Prod.mk.inj equal).2
      subst same
      exact CommitsAll.unique free leftCommits rightCommits

/-- A length of 32 bits never exceeds the largest degree. -/
theorem output_of_not_fits (atLeastTwo : 2 ≤ maxDegree) (largest : ¬ maxDegree.toNat + 1 < 2 ^ 32)
    (results : List KVRead) :
    output hashing maxDegree results = some (results, none) := by
  have within (length : Nat) : ¬ maxDegree < UInt32.ofNat length := by
    rw [UInt32.lt_iff_toNat_lt]
    have bound := (UInt32.ofNat length).toNat_lt
    omega
  have pending (before : List KVRead) : RangeQueryResultsHelper.addResults hashing
          ⟨before, some ⟨[[]], maxDegree⟩, maxDegree⟩ results =
        ⟨before ++ results, some ⟨[[]], maxDegree⟩, maxDegree⟩ := by
    induction results generalizing before with
    | nil => simp [RangeQueryResultsHelper.addResults]
    | cons kvRead results ih =>
      have added : RangeQueryResultsHelper.addResult hashing
              ⟨before, some ⟨[[]], maxDegree⟩, maxDegree⟩ kvRead =
            ⟨before ++ [kvRead], some ⟨[[]], maxDegree⟩, maxDegree⟩ :=
        if_neg (within _)
      have rest := ih (before ++ [kvRead])
      rw [List.append_assoc, List.singleton_append] at rest
      rw [RangeQueryResultsHelper.addResults, List.foldl_cons, added]
      exact rest
  rw [output_eq atLeastTwo, pending]
  rfl

theorem output_of_regular (atLeastTwo : 2 ≤ maxDegree) (fits : maxDegree.toNat + 1 < 2 ^ 32)
    (results : List KVRead) :
    if results.length ≤ maxDegree.toNat then
      ∃ raw, output hashing maxDegree results = some (raw, none)
    else
      ∃ summary : QueryReadsMerkleSummary,
        output hashing maxDegree results = some ([], some summary) ∧ summary.maxDegree = maxDegree ∧
          1 ≤ summary.maxLevelHashes.length ∧
          summary.maxLevelHashes.length ≤ maxDegree.toNat := by
  have regular : Regular maxDegree := ⟨UInt32.le_iff_toNat_le.mp atLeastTwo, fits⟩
  have fresh := (counted_new (newRangeQueryResultsHelper_of_le atLeastTwo)).2
  rcases @Counted.addResults hashing _ _ _ _ fresh regular results with ⟨_, counted, _⟩
  rw [Nat.zero_add] at counted
  have done := @Counted.done hashing _ _ _ _ counted regular
  rw [output_eq atLeastTwo]
  split_ifs at done ⊢ with few
  · exact ⟨_, congrArg some done⟩
  · rcases done with ⟨summary, done, shape⟩
    exact ⟨summary, congrArg some done, shape⟩

/--
Summaries identify the results and have the right shape, except that with the
largest degree no number of results is large enough for a summary.
-/
theorem query_summary_well_shaped_iff (free : CollisionFree hashing.hash hashing.serializeKVReads)
    (atLeastTwo : 2 ≤ maxDegree) (results : List KVRead) :
    WellShaped hashing maxDegree results ↔
      maxDegree.toNat + 1 < 2 ^ 32 ∨ results.length ≤ maxDegree.toNat := by
  by_cases fits : maxDegree.toNat + 1 < 2 ^ 32
  · refine iff_of_true ?_ (.inl fits)
    have shape := @output_of_regular hashing _ atLeastTwo fits results
    refine ⟨fun other same => output_injective free atLeastTwo same, ?_, ?_⟩
    · intro raw summary found
      split_ifs at shape with few
      · rcases shape with ⟨_, missing⟩
        rw [found] at missing
        cases missing
      · rcases shape with ⟨_, same, _, bounds⟩
        rw [found] at same
        cases same
        exact ⟨rfl, bounds⟩
    · split_ifs at shape with few
      · rcases shape with ⟨_, missing⟩
        refine iff_of_false ?_ (Nat.not_lt.mpr few)
        rintro ⟨_, _, found⟩
        rw [found] at missing
        cases missing
      · rcases shape with ⟨summary, found, _⟩
        exact iff_of_true ⟨_, _, found⟩ (Nat.lt_of_not_le few)
  · have raw := @output_of_not_fits hashing _ atLeastTwo fits results
    rw [or_iff_right fits]
    constructor
    · intro shaped
      apply Nat.le_of_not_lt
      intro many
      rcases shaped.summarised.mpr many with ⟨_, _, found⟩
      rw [raw] at found
      cases found
    · intro few
      refine ⟨fun other same => output_injective free atLeastTwo same, ?_, ?_⟩
      · intro _ _ found
        rw [raw] at found
        cases found
      · refine iff_of_false ?_ (Nat.not_lt.mpr few)
        rintro ⟨_, _, found⟩
        rw [raw] at found
        cases found

end

namespace Sample

/-- Digests and encodings that can be told apart. -/
noncomputable def hashing : Hashing where
  hash := markedCopy
  serializeKVReads := taggedNumber

def kvRead : KVRead := ⟨.letter 'k', some ⟨1, 0⟩⟩

end Sample

/-- Three results under a degree of two. -/
theorem query_summary_well_shaped_three :
    WellShaped Sample.hashing 2 (List.replicate 3 Sample.kvRead) :=
  (query_summary_well_shaped_iff collisionFree_markedCopy (by decide) _).mpr (.inl (by decide))

/-- More results than the largest degree, and still no summary. -/
theorem no_summary_for_largest_degree :
    CollisionFree Sample.hashing.hash Sample.hashing.serializeKVReads ∧
      (4294967295 : UInt32).toNat < (List.replicate (2 ^ 32) Sample.kvRead).length ∧
      output Sample.hashing 4294967295 (List.replicate (2 ^ 32) Sample.kvRead) =
        some (List.replicate (2 ^ 32) Sample.kvRead, none) := by
  refine ⟨collisionFree_markedCopy, ?_, ?_⟩
  · rw [List.length_replicate]
    decide
  · exact output_of_not_fits (by decide) (by decide) _

section

open Outcome StateDB RWSet StateValidator

variable {hashing : Hashing} {maxDegree : UInt32}

namespace Sample

def recorded : List VersionedKV :=
  [(.letter 'a', ⟨[], ⟨1, 0⟩⟩), (.letter 'b', ⟨[], ⟨1, 1⟩⟩), (.letter 'c', ⟨[], ⟨2, 0⟩⟩)]

/-- A database whose scans return the recorded entries. -/
def unchanged : StateReader := ⟨fun _ _ => none, fun _ _ _ => recorded⟩

end Sample

end

end Fabric.Ledger.QueryShape
