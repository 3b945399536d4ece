import Fabric.Ledger.StateValidator

/-!
# Range queries whose results did not change

While it rebuilds the tree of hashes, the validator compares the hashes of the
highest level with the recorded ones and gives up on the first difference.  It
never gives up on the results that were recorded: a tree only grows upwards, and
as long as its height stays the same its highest level only grows to the right.

The height of a tree is counted in 32 bits.  A tree over fewer than 2 ^ 64
results has at most 65 levels.
-/

namespace Fabric.Ledger.QueryGrowth

open Library Outcome ByteString Protos StateDB RWSet QueryResults StateValidator

/-! ## Growing trees -/

/-- The hashes of the highest level. -/
def topLevel (levels : List (List Bytes)) : List Bytes :=
  levels.getLast?.getD []

@[simp]
theorem topLevel_cons (level : List Bytes) {above : List (List Bytes)} (nonempty : above ≠ []) :
    topLevel (level :: above) = topLevel above := by
  rw [topLevel, List.getLast?_cons_of_ne_nil nonempty, topLevel]

/-- The later tree is higher, or its highest level continues the earlier one. -/
def Grown (levels later : List (List Bytes)) : Prop :=
  levels.length < later.length ∨ levels.length = later.length ∧ topLevel levels <+: topLevel later

variable {levels later final : List (List Bytes)}

namespace Grown

theorem refl (levels : List (List Bytes)) : Grown levels levels :=
  .inr ⟨rfl, List.prefix_rfl⟩

theorem trans (first : Grown levels later) (second : Grown later final) : Grown levels final := by
  rcases first with higher | ⟨sameHeight, continues⟩
  · rcases second with higherStill | ⟨sameHeight, _⟩
    · exact .inl (higher.trans higherStill)
    · exact .inl (sameHeight ▸ higher)
  · rcases second with higher | ⟨sameHeightStill, continuesStill⟩
    · exact .inl (sameHeight ▸ higher)
    · exact .inr ⟨sameHeight.trans sameHeightStill, continues.trans continuesStill⟩

theorem length_le (grown : Grown levels later) : levels.length ≤ later.length := by
  rcases grown with higher | ⟨sameHeight, _⟩
  · exact higher.le
  · exact sameHeight.le

theorem ne_nil (grown : Grown levels later) (nonempty : levels ≠ []) : later ≠ [] := by
  rintro rfl
  have lengths := grown.length_le
  rw [List.length_nil, Nat.le_zero, List.length_eq_zero_iff] at lengths
  exact nonempty lengths

theorem cons (grown : Grown levels later) (nonempty : levels ≠ [])
    (first other : List Bytes) : Grown (first :: levels) (other :: later) := by
  have laterNonempty := grown.ne_nil nonempty
  rcases grown with higher | ⟨sameHeight, continues⟩
  · exact .inl (Nat.succ_lt_succ higher)
  · right
    rw [topLevel_cons _ nonempty, topLevel_cons _ laterNonempty]
    exact ⟨congrArg Nat.succ sameHeight, continues⟩

end Grown

variable {mt : MerkleTree} {maxDegree : UInt32}

section

variable {hash : Bytes → Bytes} {levels : List (List Bytes)}

theorem grown_updateLevels (maxDegree : UInt32) (nonempty : levels ≠ []) (next : Bytes) :
    Grown levels (updateLevels hash maxDegree levels next) := by
  induction levels generalizing next with
  | nil => exact absurd rfl nonempty
  | cons _ above ih =>
    rw [updateLevels]
    cases above with
    | nil =>
      split
      · exact .inr ⟨rfl, List.prefix_append _ _⟩
      · exact .inl (by simp [updateLevels])
    | cons _ above =>
      split
      · exact (Grown.refl _).cons (by simp) _ _
      · exact (ih (by simp) _).cons (by simp) _ _

theorem grown_closeLevels (carried : List Bytes) (nonempty : levels ≠ []) :
    Grown levels (closeLevels hash carried levels) := by
  induction levels generalizing carried with
  | nil => exact absurd rfl nonempty
  | cons _ above ih =>
    cases above with
    | nil => exact .inr ⟨rfl, List.prefix_append _ _⟩
    | cons _ above => exact (ih _ (by simp)).cons (by simp) _ _

theorem length_closeLevels (carried : List Bytes)
    (nonempty : levels ≠ []) : (closeLevels hash carried levels).length = levels.length := by
  induction levels generalizing carried with
  | nil => exact absurd rfl nonempty
  | cons _ above ih =>
    cases above with
    | nil => rfl
    | cons _ above =>
      rw [closeLevels, List.length_cons, ih _ (by simp)]
      rfl

theorem grown_done (mt : MerkleTree) (nonempty : mt.tree ≠ []) :
    Grown mt.tree (mt.done hash).tree ∧ (mt.done hash).tree.length ≤ mt.tree.length + 1 := by
  have closed : Grown mt.tree (closeLevels hash [] mt.tree) := grown_closeLevels [] nonempty
  have sameHeight : (closeLevels hash [] mt.tree).length = mt.tree.length :=
    length_closeLevels [] nonempty
  have positive : 0 < mt.tree.length := List.length_pos_iff.mpr nonempty
  simp only [MerkleTree.done]
  split
  · have higher : ((closeLevels hash [] mt.tree).dropLast ++ [[], [computeCombinedHash hash
              (MerkleTree.getMaxLevelHashes
                { mt with tree := closeLevels hash [] mt.tree })]]).length =
          mt.tree.length + 1 := by
      simp only [List.length_append, List.length_dropLast, sameHeight,
        List.length_cons, List.length_nil]
      omega
    exact ⟨.inl (Nat.lt_of_lt_of_eq (Nat.lt_succ_self _) higher.symm), higher.le⟩
  · exact ⟨closed, Nat.le_succ_of_le sameHeight.le⟩

/-! ## The height of a tree -/

/-- A hash of a level counts for two of the level below. -/
def levelWeight : List (List Bytes) → Nat
  | [] => 0
  | level :: above => level.length + 2 * levelWeight above

theorem levelWeight_updateLevels_le (atLeastTwo : 2 ≤ maxDegree) (levels : List (List Bytes))
    (next : Bytes) :
    levelWeight (updateLevels hash maxDegree levels next) ≤ levelWeight levels + 1 := by
  induction levels generalizing next with
  | nil => simp [updateLevels, levelWeight]
  | cons level _ ih =>
    rw [updateLevels]
    split
    · simp only [levelWeight, List.length_append, List.length_singleton]
      omega
    · rename_i overflow
      have occupied : level ≠ [] := by
        rintro rfl
        apply overflow
        show UInt32.ofNat 1 ≤ maxDegree
        exact UInt32.le_trans (by decide) atLeastTwo
      have positive := List.length_pos_iff.mpr occupied
      have step := ih (computeCombinedHash hash (level ++ [next]))
      simp only [levelWeight, List.length_nil]
      omega

theorem two_pow_le_levelWeight (filled : levels.getLast? ≠ some []) (nonempty : levels ≠ []) :
    2 ^ (levels.length - 1) ≤ levelWeight levels := by
  induction levels with
  | nil => exact absurd rfl nonempty
  | cons level above ih =>
    cases above with
    | nil =>
      have occupied : level ≠ [] := by simpa using filled
      have positive := List.length_pos_iff.mpr occupied
      simp only [List.length_singleton, levelWeight]
      omega
    | cons _ above =>
      have step := ih (by simpa using filled) (by simp)
      simp only [List.length_cons, levelWeight, Nat.add_sub_cancel, Nat.pow_succ] at step ⊢
      omega

theorem length_le_of_filled (filled : Filled mt) (nonempty : mt.tree ≠ [])
    (small : levelWeight mt.tree < 2 ^ 64) : mt.tree.length ≤ 64 := by
  rcases filled with fresh | filled
  · rw [fresh]
    decide
  · have bound := (two_pow_le_levelWeight filled nonempty).trans_lt small
    have exponent := (Nat.pow_lt_pow_iff_right (by decide)).mp bound
    omega

theorem done_of_filled (filled : Filled mt) (nonempty : mt.tree ≠ [])
    (small : levelWeight mt.tree < 2 ^ 64) : (mt.done hash).maxDegree = mt.maxDegree ∧
      Grown mt.tree (mt.done hash).tree ∧
      (mt.done hash).tree.length < 2 ^ 32 := by
  have height := length_le_of_filled filled nonempty small
  have completed := @grown_done hash mt nonempty
  refine ⟨?_, completed.1, by omega⟩
  simp only [MerkleTree.done]
  split
  · rfl
  · rfl

end

/-! ## Helpers with a tree -/

variable {hashing : Hashing}

/-- A helper that hashes and was given a number of results. -/
structure Hashed (helper : RangeQueryResultsHelper) (mt : MerkleTree) (maxDegree : UInt32)
    (count : Nat) : Prop where
  tree : helper.mt = some mt
  degree : mt.maxDegree = maxDegree
  nonempty : mt.tree ≠ []
  filled : Filled mt
  weight : levelWeight mt.tree + helper.pendingResults.length ≤ count

variable {fresh : RangeQueryResultsHelper}

theorem hashed_new (created : newRangeQueryResultsHelper true maxDegree = some fresh) :
    2 ≤ maxDegree ∧ ∃ mt, Hashed fresh mt maxDegree 0 := by
  simp only [newRangeQueryResultsHelper, newMerkleTree, if_true] at created
  split at created
  · cases created
  · rename_i atLeastTwo
    cases created
    refine ⟨UInt32.not_lt.mp atLeastTwo, ⟨[[]], maxDegree⟩, rfl, rfl, ?_, ?_, ?_⟩
    · simp
    · exact .inl rfl
    · simp [levelWeight]

variable {summary : QueryReadsMerkleSummary} {helper : RangeQueryResultsHelper}

namespace Hashed

variable {count : Nat}

section

variable (hashed : Hashed helper mt maxDegree count) (atLeastTwo : 2 ≤ maxDegree)
include hashed atLeastTwo

theorem update (hash : Bytes → Bytes) (digest : Bytes) :
    Grown mt.tree (mt.update hash digest).tree ∧
      levelWeight (mt.update hash digest).tree ≤ levelWeight mt.tree + 1 := by
  constructor
  · exact grown_updateLevels _ hashed.nonempty _
  · exact levelWeight_updateLevels_le (hashed.degree ▸ atLeastTwo) _ _

theorem addResult (hashing : Hashing) (kvRead : KVRead) :
    ∃ later, Hashed (helper.addResult hashing kvRead) later maxDegree (count + 1) ∧
        Grown mt.tree later.tree := by
  have weight := hashed.weight
  simp only [RangeQueryResultsHelper.addResult, hashed.tree]
  split
  · have updated := hashed.update atLeastTwo hashing.hash
    refine ⟨_, ⟨rfl, hashed.degree, ?_, ?_, ?_⟩, (updated _).1⟩
    · exact (updated _).1.ne_nil hashed.nonempty
    · exact update_filled mt _ hashed.filled
    · refine (updated _).2.trans ?_
      omega
  · refine ⟨mt, ⟨rfl, hashed.degree, hashed.nonempty, hashed.filled, ?_⟩, Grown.refl _⟩
    rw [List.length_append, List.length_singleton]
    omega

theorem addResults (hashing : Hashing) (kvReads : List KVRead) :
    ∃ later, Hashed (helper.addResults hashing kvReads) later maxDegree (count + kvReads.length) ∧
        Grown mt.tree later.tree := by
  induction kvReads generalizing helper mt count with
  | nil => exact ⟨mt, hashed, Grown.refl _⟩
  | cons kvRead kvReads ih =>
    rcases hashed.addResult atLeastTwo hashing kvRead with ⟨_, added, grown⟩
    rcases ih added with ⟨later, hashed, grownLater⟩
    refine ⟨later, ?_, grown.trans grownLater⟩
    rw [List.length_cons, Nat.add_comm kvReads.length, ← Nat.add_assoc]
    exact hashed

theorem done (small : count < 2 ^ 64) (recorded : (helper.done hashing).2 = some summary) :
    ∃ final : MerkleTree, summary = final.getSummery ∧ final.maxDegree = maxDegree ∧
        Grown mt.tree final.tree ∧ final.tree.length < 2 ^ 32 := by
  have weight := hashed.weight
  simp only [RangeQueryResultsHelper.done, hashed.tree] at recorded
  split at recorded
  · cases recorded
  · split at recorded
    · cases recorded
      refine ⟨_, rfl, ?_⟩
      rcases done_of_filled hashed.filled hashed.nonempty (by omega) with ⟨degree, grown, height⟩
      exact ⟨degree.trans hashed.degree, grown, height⟩
    · rename_i pending
      have positive : 0 < helper.pendingResults.length := by
        rw [List.length_pos_iff]
        simpa using pending
      cases recorded
      refine ⟨_, rfl, ?_⟩
      have updated := hashed.update atLeastTwo hashing.hash
      rcases done_of_filled (update_filled mt _ hashed.filled)
          ((updated _).1.ne_nil hashed.nonempty)
          ((updated _).2.trans_lt (by omega)) with
        ⟨degree, grown, height⟩
      exact ⟨degree.trans hashed.degree, (updated _).1.trans grown, height⟩

end

end Hashed

/-! ## Finding the recorded results again -/

theorem validateRawReads_map_kvReadOf (results : List VersionedKV) :
    validateRawReads (results.map kvReadOf) results = .ok true := by
  induction results with
  | nil => rfl
  | cons entry results ih =>
    rcases entry with ⟨_, _⟩
    simpa [validateRawReads, kvReadOf, newKVRead, newProtoVersion, newVersion] using ih

/-- The hashes compared so far are on the highest level of the final tree. -/
def Compared (levels final : List (List Bytes)) (matched : Nat) : Prop :=
  matched = 0 ∨ levels.length = final.length ∧ matched ≤ (topLevel levels).length

theorem Compared.grown {matched : Nat} (compared : Compared levels final matched)
    (grown : Grown levels later) (grownFinal : Grown later final) :
    Compared later final matched := by
  rcases compared with none | ⟨sameHeight, bound⟩
  · exact .inl none
  · have lengths := grownFinal.length_le
    rcases grown with _ | ⟨sameHeightLater, continues⟩
    · omega
    · exact .inr ⟨sameHeightLater ▸ sameHeight, bound.trans continues.length_le⟩

variable {results : List VersionedKV}

/-- The comparison never gives up on the way to the tree that was recorded. -/
theorem validateMerkle_eq_true_of_grown {final : MerkleTree} (height : final.tree.length < 2 ^ 32)
    (atLeastTwo : 2 ≤ maxDegree)
    {helper : RangeQueryResultsHelper} {mt : MerkleTree} {count matched : Nat}
    (hashed : Hashed helper mt maxDegree count)
    (grown : ∀ later, (helper.addResults hashing (results.map kvReadOf)).mt = some later →
          Grown later.tree final.tree)
    (recorded : ((helper.addResults hashing (results.map kvReadOf)).done hashing).2 =
        some final.getSummery)
    (compared : Compared mt.tree final.tree matched) :
    validateMerkle hashing final.getSummery results helper matched = .ok true := by
  induction results generalizing helper mt count matched with
  | nil =>
    have recorded : (helper.done hashing).2 = some final.getSummery := recorded
    simp [validateMerkle, recorded, summaryEqual]
  | cons entry results ih =>
    rcases entry with ⟨key, value⟩
    rcases hashed.addResult atLeastTwo hashing (newKVRead key (some value.version)) with
      ⟨middle, added, grownMiddle⟩
    have grownFinal : Grown middle.tree final.tree := by
      rcases added.addResults atLeastTwo hashing (results.map kvReadOf) with
        ⟨later, hashedLater, grownLater⟩
      exact grownLater.trans (grown later hashedLater.tree)
    have comparedMiddle := compared.grown grownMiddle grownFinal
    have continues {matched : Nat} (compared : Compared middle.tree final.tree matched) :=
      ih added grown recorded compared
    have merkle : (helper.addResult hashing (newKVRead key (some value.version))).getMerkleSummary =
            some middle.getSummery := by
      rw [RangeQueryResultsHelper.getMerkleSummary, added.tree, Option.map_some]
    simp only [validateMerkle, merkle, deref_some, ok_bind]
    rcases grownFinal with higher | ⟨sameHeight, isFront⟩
    · have lower : middle.getSummery.maxLevel < final.getSummery.maxLevel := by
        show UInt32.ofNat middle.tree.length < UInt32.ofNat final.tree.length
        rw [UInt32.lt_iff_toNat_lt, UInt32.toNat_ofNat_of_lt' height,
          UInt32.toNat_ofNat_of_lt' (higher.trans height)]
        exact higher
      rw [if_pos lower]
      exact continues comparedMiddle
    · have sameLevel : middle.getSummery.maxLevel = final.getSummery.maxLevel := by
        show UInt32.ofNat middle.tree.length = UInt32.ofNat final.tree.length
        rw [sameHeight]
      have isFront : middle.getSummery.maxLevelHashes <+: final.getSummery.maxLevelHashes := isFront
      have bound : matched ≤ middle.getSummery.maxLevelHashes.length := by
        rcases comparedMiddle with rfl | ⟨_, bound⟩
        · exact Nat.zero_le _
        · exact bound
      rw [if_neg (sameLevel ▸ UInt32.lt_irrefl _)]
      split
      · exact continues comparedMiddle
      · rename_i more
        have inside := Nat.lt_of_le_of_ne bound more
        have sameHash := isFront.getElem inside
        rw [if_neg (Nat.not_lt.mpr isFront.length_le), List.getElem?_eq_getElem inside,
          List.getElem?_eq_getElem (inside.trans_le isFront.length_le), deref_some, deref_some,
          ok_bind, ok_bind, if_pos sameHash]
        exact continues (.inr ⟨sameHeight, inside⟩)

/-- The summary of all results is found again in the same results. -/
theorem validateMerkle_eq_true_of_done
    (created : newRangeQueryResultsHelper true maxDegree = some fresh)
    (small : results.length < 2 ^ 64)
    (recorded : ((fresh.addResults hashing (results.map kvReadOf)).done hashing).2 = some summary) :
    summary.maxDegree = maxDegree ∧ validateMerkle hashing summary results fresh 0 = .ok true := by
  rcases hashed_new created with ⟨atLeastTwo, _, hashed⟩
  rcases hashed.addResults atLeastTwo hashing (results.map kvReadOf) with ⟨_, hashedLast, _⟩
  have small : 0 + (results.map kvReadOf).length < 2 ^ 64 := by
    simpa using small
  rcases hashedLast.done atLeastTwo small recorded with ⟨_, rfl, degree, grown, height⟩
  refine ⟨degree, ?_⟩
  refine validateMerkle_eq_true_of_grown height atLeastTwo hashed ?_ recorded (.inl rfl)
  intro _ isLast
  rw [hashedLast.tree, Option.some.injEq] at isLast
  exact isLast ▸ grown

/-! ## Range queries report no errors -/

section

variable {inMerkle : QueryReadsMerkleSummary} {db : StateReader} {updates : UpdateBatch}
  {reason : DecodeError}

theorem validateRawReads_ne_error (reads : List KVRead) (results : List VersionedKV) :
    validateRawReads reads results ≠ .error reason := by
  induction reads generalizing results with
  | nil => simp [validateRawReads]
  | cons _ reads ih =>
    rcases results with _ | ⟨⟨_, _⟩, results⟩
    · simp [validateRawReads]
    · rw [validateRawReads]
      split_ifs
      · simp
      · apply bind_ne_error (deref_ne_error _ _)
        intro _ _
        split_ifs
        · exact ih results
        · simp

theorem validateMerkle_ne_error (results : List VersionedKV)
    (helper : RangeQueryResultsHelper) (matched : Nat) :
    validateMerkle hashing inMerkle results helper matched ≠ .error reason := by
  induction results generalizing helper matched with
  | nil => simp [validateMerkle]
  | cons entry results ih =>
    rcases entry with ⟨_, _⟩
    rw [validateMerkle]
    apply bind_ne_error (deref_ne_error _ _)
    intro _ _
    split_ifs
    · exact ih _ _
    · exact ih _ _
    · simp
    · apply bind_ne_error (deref_ne_error _ _)
      intro _ _
      apply bind_ne_error (deref_ne_error _ _)
      intro _ _
      split_ifs
      · exact ih _ _
      · simp

theorem validateRangeQuery_ne_error (ns : GoString) (rqi : RangeQueryInfo) :
    validateRangeQuery hashing db updates ns rqi ≠ .error reason := by
  rw [validateRangeQuery]
  split
  · apply bind_ne_error (deref_ne_error _ _)
    exact fun helper _ => validateMerkle_ne_error _ helper 0
  · exact validateRawReads_ne_error _ _
  · exact validateRawReads_ne_error _ _

end

end Fabric.Ledger.QueryGrowth
