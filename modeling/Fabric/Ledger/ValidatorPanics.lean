import Fabric.Ledger.QueryGrowth
import Fabric.Ledger.WriteSet
import Fabric.Library.Log

/-!
# Read-write sets that stop the validator

A read-write set comes from a transaction and need not have been built by a
simulator.  The validator panics on a write without a value that is not a
deletion, on a recorded result of a range query without a version, on a summary
whose nodes have fewer than two children, and on a summary that is overrun: all
hashes of its level are found again, and the tree grows beyond that level.  This
module says exactly when a block is validated without a panic.
-/

namespace Fabric.Ledger.ValidatorPanics

open Library Outcome ByteString Protos StateDB RWSet QueryResults QueryGrowth CombinedIterator
  StateValidator WriteSet

/-! ## How a tree of hashes changes -/

/-- The highest level stays, gets one more hash or gives way to a new level. -/
inductive TreeStep (levels later : List (List Bytes)) : Prop
  | same (height : later.length = levels.length)
      (top : topLevel later = topLevel levels)
  | wider (height : later.length = levels.length) (digest : Bytes)
      (top : topLevel later = topLevel levels ++ [digest])
  | higher (height : later.length = levels.length + 1) (digest : Bytes)
      (top : topLevel later = [digest])
      (full : 2 ≤ (topLevel levels).length)

variable {levels later : List (List Bytes)}

namespace TreeStep

theorem height_le (step : TreeStep levels later) :
    levels.length ≤ later.length ∧ later.length ≤ levels.length + 1 := by
  cases step <;> omega

theorem ne_nil (step : TreeStep levels later) (nonempty : levels ≠ []) : later ≠ [] := by
  apply List.ne_nil_of_length_pos
  exact Nat.lt_of_lt_of_le (List.length_pos_of_ne_nil nonempty) step.height_le.1

theorem cons (step : TreeStep levels later) (nonempty : levels ≠ []) (first other : List Bytes) :
    TreeStep (first :: levels) (other :: later) := by
  have laterNonempty := step.ne_nil nonempty
  cases step with
  | same height top =>
    apply TreeStep.same
    · rw [List.length_cons, List.length_cons, height]
    · rw [topLevel_cons _ nonempty, topLevel_cons _ laterNonempty, top]
  | wider height digest top =>
    apply TreeStep.wider
    · rw [List.length_cons, List.length_cons, height]
    · rw [topLevel_cons _ nonempty, topLevel_cons _ laterNonempty, top]
  | higher height digest top full =>
    apply TreeStep.higher
    · rw [List.length_cons, List.length_cons, height]
    · rw [topLevel_cons _ laterNonempty, top]
    · rw [topLevel_cons _ nonempty]
      exact full

end TreeStep

theorem treeStep_updateLevels
    {hash : Bytes → Bytes} {maxDegree : UInt32} (atLeastTwo : 2 ≤ maxDegree)
    {levels : List (List Bytes)} (nonempty : levels ≠ []) (next : Bytes) :
    TreeStep levels (updateLevels hash maxDegree levels next) := by
  induction levels generalizing next with
  | nil => exact absurd rfl nonempty
  | cons level above ih =>
    rw [updateLevels]
    cases above with
    | nil =>
      split
      · exact TreeStep.wider rfl next rfl
      next overflow =>
        apply TreeStep.higher
        · rfl
        · rfl
        · show 2 ≤ level.length
          rw [UInt32.not_le, UInt32.lt_iff_toNat_lt] at overflow
          rw [UInt32.le_iff_toNat_le] at atLeastTwo
          have bounded : (UInt32.ofNat (level ++ [next]).length).toNat ≤
                (level ++ [next]).length := by
            rw [UInt32.toNat_ofNat']
            exact Nat.mod_le _ _
          rw [List.length_append, List.length_singleton] at bounded overflow
          have two : (2 : UInt32).toNat = 2 := rfl
          omega
    | cons upper above =>
      have higherNonempty : upper :: above ≠ [] := List.cons_ne_nil _ _
      split
      · exact (TreeStep.same rfl rfl : TreeStep (upper :: above) _).cons higherNonempty _ _
      · exact (ih higherNonempty _).cons higherNonempty _ _

/-! ## The tree of a helper -/

def levelsOf (helper : RangeQueryResultsHelper) : List (List Bytes) :=
  (helper.mt.map MerkleTree.tree).getD []

/-- A helper that hashes, as it is created for at least two children a node. -/
structure Building (helper : RangeQueryResultsHelper) : Prop where
  tree : ∃ mt, helper.mt = some mt ∧ 2 ≤ mt.maxDegree
  nonempty : levelsOf helper ≠ []

variable {helper : RangeQueryResultsHelper}

theorem Building.addResult (building : Building helper) (hashing : Hashing) (kvRead : KVRead) :
    Building (helper.addResult hashing kvRead) ∧ TreeStep (levelsOf helper)
        (levelsOf (helper.addResult hashing kvRead)) := by
  rcases building with ⟨⟨mt, tree, atLeastTwo⟩, nonempty⟩
  have levels : levelsOf helper = mt.tree := by
    rw [levelsOf, tree]
    rfl
  rw [levels] at nonempty
  simp only [RangeQueryResultsHelper.addResult, tree]
  split
  · have step := @treeStep_updateLevels hashing.hash mt.maxDegree atLeastTwo mt.tree nonempty
        (hashing.hash (hashing.serializeKVReads (helper.pendingResults ++ [kvRead])))
    rw [levels]
    exact ⟨⟨⟨_, rfl, atLeastTwo⟩, step.ne_nil nonempty⟩, step⟩
  · refine ⟨⟨⟨mt, rfl, atLeastTwo⟩, nonempty⟩, ?_⟩
    rw [levels]
    exact TreeStep.same rfl rfl

theorem building_new {maxDegree : UInt32}
    (created : newRangeQueryResultsHelper true maxDegree = some helper) :
    Building helper ∧ levelsOf helper = [[]] := by
  simp only [newRangeQueryResultsHelper, newMerkleTree, if_true] at created
  split_ifs at created with small
  · cases created
  · cases created
    refine ⟨⟨⟨_, rfl, UInt32.not_lt.mp small⟩, ?_⟩, rfl⟩
    exact List.cons_ne_nil _ _

theorem Building.addResults (building : Building helper)
    (hashing : Hashing) (kvReads : List KVRead) :
    Grown (levelsOf helper) (levelsOf (helper.addResults hashing kvReads)) := by
  induction kvReads generalizing helper with
  | nil => exact Grown.refl _
  | cons kvRead kvReads ih =>
    rcases building.addResult hashing kvRead with ⟨added, step⟩
    refine Grown.trans ?_ (ih added)
    cases step with
    | same height top => exact .inr ⟨height.symm, top ▸ List.prefix_rfl⟩
    | wider height digest top => exact .inr ⟨height.symm, top ▸ List.prefix_append _ _⟩
    | higher height digest top _ => exact .inl (by omega)

/-! ## Summaries that are overrun -/

section

variable (hashing : Hashing) (inMerkle : QueryReadsMerkleSummary)

/-- The level of the summary; the levels of a tree are counted from 1. -/
def recordedLevel : Nat :=
  max inMerkle.maxLevel.toNat 1

/-- The tree of a helper is not below the level of the summary. -/
def AtLevel (helper : RangeQueryResultsHelper) : Prop :=
  inMerkle.maxLevel ≤ UInt32.ofNat (levelsOf helper).length

/--
One of the results makes the tree outgrow the level of the summary, and up to
this result the hashes of that level are among the recorded ones.  The level is
a number of 32 bits: it is compared with the recorded one right after that
result, or later if it has wrapped around.
-/
def Overruns (helper : RangeQueryResultsHelper) (results : List KVRead) : Prop :=
  ∃ before entry after, results = before ++ entry :: after ∧
    (levelsOf (helper.addResults hashing before)).length = recordedLevel inMerkle ∧
    topLevel (levelsOf (helper.addResults hashing before)) <+: inMerkle.maxLevelHashes ∧
    recordedLevel inMerkle < (levelsOf (helper.addResults hashing (before ++ [entry]))).length ∧
    ∃ later, later <+: after ∧
      AtLevel inMerkle (helper.addResults hashing (before ++ entry :: later))

end

variable {hashing : Hashing} {inMerkle : QueryReadsMerkleSummary}
  {results : List VersionedKV}

section

variable {helper : RangeQueryResultsHelper}

theorem overruns_cons_iff {entry : KVRead} {results : List KVRead} :
    Overruns hashing inMerkle helper (entry :: results) ↔
      ((levelsOf helper).length = recordedLevel inMerkle ∧
        topLevel (levelsOf helper) <+: inMerkle.maxLevelHashes ∧
        recordedLevel inMerkle < (levelsOf (helper.addResult hashing entry)).length ∧
        ∃ later, later <+: results ∧ AtLevel inMerkle
            ((helper.addResult hashing entry).addResults hashing later)) ∨
      Overruns hashing inMerkle (helper.addResult hashing entry) results := by
  constructor
  · rintro ⟨_ | ⟨_, before⟩, next, after, split, rest⟩
    · cases split
      exact Or.inl rest
    · cases split
      exact Or.inr ⟨before, next, after, rfl, rest⟩
  · rintro (rest | ⟨before, next, after, split, rest⟩)
    · exact ⟨[], entry, results, rfl, rest⟩
    · exact ⟨entry :: before, next, after, congrArg (entry :: ·) split, rest⟩

theorem not_overruns_of_differs (building : Building helper)
    (height : (levelsOf helper).length = recordedLevel inMerkle)
    (differs : ¬ topLevel (levelsOf helper) <+: inMerkle.maxLevelHashes) (results : List KVRead) :
    ¬ Overruns hashing inMerkle helper results := by
  rintro ⟨before, _, _, _, _, found, _⟩
  rcases building.addResults hashing before with _ | ⟨_, continues⟩
  · omega
  · exact differs (continues.trans found)

/-! ## The comparison of the hashes -/

variable {helper : RangeQueryResultsHelper} {matched : Nat}

theorem validateMerkle_cons (building : Building helper) (entry : VersionedKV) :
    validateMerkle hashing inMerkle (entry :: results) helper matched =
      (let added := helper.addResult hashing (kvReadOf entry)
      let top := topLevel (levelsOf added)
      if UInt32.ofNat (levelsOf added).length < inMerkle.maxLevel then
        validateMerkle hashing inMerkle results added matched
      else if matched = top.length then
        validateMerkle hashing inMerkle results added matched
      else if inMerkle.maxLevelHashes.length < top.length then
        .ok false
      else do
        let built ← deref top[matched]?
        let recorded ← deref inMerkle.maxLevelHashes[matched]?
        if built = recorded then validateMerkle hashing inMerkle results added (matched + 1)
        else .ok false) := by
  rcases (building.addResult hashing (kvReadOf entry)).1.tree with ⟨mt, tree, _⟩
  have levels : levelsOf (helper.addResult hashing (kvReadOf entry)) = mt.tree := by
    rw [levelsOf, tree]
    rfl
  have summary : (helper.addResult hashing (kvReadOf entry)).getMerkleSummary =
        some mt.getSummery := by
    rw [RangeQueryResultsHelper.getMerkleSummary, tree, Option.map_some]
  rcases entry with ⟨key, value⟩
  rw [validateMerkle]
  dsimp only
  rw [levels]
  show (do let merkle ← deref (helper.addResult hashing (kvReadOf (key, value))).getMerkleSummary
           _) = _
  rw [summary]
  rfl

section

variable (building : Building helper) (several : 2 ≤ matched)
  (recorded : 0 < inMerkle.maxLevelHashes.length)
include building several recorded

theorem validateMerkle_cons_eq_panic {entry : VersionedKV}
    (reached : AtLevel inMerkle (helper.addResult hashing (kvReadOf entry))) {digest : Bytes}
    (top : topLevel (levelsOf (helper.addResult hashing (kvReadOf entry))) = [digest]) :
    validateMerkle hashing inMerkle (entry :: results) helper matched = .panic := by
  have beyond : matched ≠ [digest].length := by
    rw [List.length_singleton]
    omega
  have fits : ¬ inMerkle.maxLevelHashes.length < [digest].length := by
    rw [List.length_singleton]
    omega
  have missing : [digest][matched]? = none := by
    rw [List.getElem?_eq_none_iff, List.length_singleton]
    omega
  rw [validateMerkle_cons building]
  dsimp only
  rw [if_neg (UInt32.not_lt.mpr reached), top, if_neg beyond, if_neg fits, missing]
  rfl

/-- A level that has wrapped around is compared when it is reached again. -/
theorem validateMerkle_eq_panic_iff_of_wrapped (below : ¬ AtLevel inMerkle helper) :
    validateMerkle hashing inMerkle results helper matched = .panic ↔
      ∃ later, later <+: results.map kvReadOf ∧
        AtLevel inMerkle (helper.addResults hashing later) := by
  induction results generalizing helper with
  | nil =>
    constructor
    · nofun
    · rintro ⟨later, empty, reached⟩
      rw [List.map_nil, List.prefix_nil] at empty
      subst empty
      exact absurd reached below
  | cons entry results ih =>
    rcases building.addResult hashing (kvReadOf entry) with ⟨added, step⟩
    by_cases still : AtLevel inMerkle (helper.addResult hashing (kvReadOf entry))
    · have risen : (levelsOf (helper.addResult hashing (kvReadOf entry))).length ≠
            (levelsOf helper).length := by
        intro same
        apply below
        rw [AtLevel, ← same]
        exact still
      cases step with
      | same height top | wider height digest top => exact absurd height risen
      | higher height digest top _ =>
        rw [validateMerkle_cons_eq_panic building several recorded still top]
        apply iff_of_true rfl
        exact ⟨[kvReadOf entry], (List.prefix_cons_inj _).mpr List.nil_prefix, still⟩
    · rw [validateMerkle_cons building]
      dsimp only
      rw [if_pos (UInt32.not_le.mp still), ih added still]
      constructor
      · rintro ⟨later, front, reached⟩
        exact ⟨kvReadOf entry :: later, (List.prefix_cons_inj _).mpr front, reached⟩
      · rintro ⟨_ | ⟨_, later⟩, front, reached⟩
        · exact absurd reached below
        · rw [List.map_cons, List.cons_prefix_cons] at front
          rcases front with ⟨rfl, front⟩
          exact ⟨later, front, reached⟩

end

theorem below_level_iff {height : Nat} (positive : 0 < height)
    (bound : height ≤ recordedLevel inMerkle) :
    UInt32.ofNat height < inMerkle.maxLevel ↔ height < recordedLevel inMerkle := by
  have small := inMerkle.maxLevel.toNat_lt
  rw [recordedLevel] at bound ⊢
  have exact : (UInt32.ofNat height).toNat = height := by
    apply UInt32.toNat_ofNat_of_lt'
    show height < 2 ^ 32
    omega
  rw [UInt32.lt_iff_toNat_lt, exact]
  omega

/--
Nothing was compared below the level of the summary, and all hashes of that
level were compared and found.
-/
def Tracks (inMerkle : QueryReadsMerkleSummary) (levels : List (List Bytes))
    (matched : Nat) : Prop :=
  levels.length < recordedLevel inMerkle ∧ matched = 0 ∨ levels.length = recordedLevel inMerkle ∧
      matched = (topLevel levels).length ∧
      topLevel levels <+: inMerkle.maxLevelHashes

theorem Tracks.step (tracks : Tracks inMerkle levels matched) (step : TreeStep levels later)
    (height : later.length = recordedLevel inMerkle) :
    (matched = (topLevel later).length ∧ topLevel later <+: inMerkle.maxLevelHashes) ∨
      ∃ front digest, topLevel later = front ++ [digest] ∧
        matched = front.length ∧ front <+: inMerkle.maxLevelHashes := by
  rcases tracks with ⟨_, rfl⟩ | ⟨_, counted, found⟩
  · cases step with
    | same stays top | wider stays digest top => omega
    | higher grows digest top full => exact Or.inr ⟨[], digest, top, rfl, List.nil_prefix⟩
  · cases step with
    | same stays top =>
      rw [top]
      exact Or.inl ⟨counted, found⟩
    | wider stays digest top => exact Or.inr ⟨topLevel levels, digest, top, counted, found⟩
    | higher grows digest top full => omega

theorem Tracks.outgrown (tracks : Tracks inMerkle levels matched) (step : TreeStep levels later)
    (height : recordedLevel inMerkle < later.length) :
    levels.length = recordedLevel inMerkle ∧ matched = (topLevel levels).length ∧
      topLevel levels <+: inMerkle.maxLevelHashes ∧
      2 ≤ matched ∧ ∃ digest, topLevel later = [digest] := by
  rcases tracks with ⟨_, _⟩ | ⟨sameHeight, counted, found⟩
  · have bound := step.height_le.2
    omega
  · cases step with
    | same stays top | wider stays digest top => omega
    | higher _ digest top full => exact ⟨sameHeight, counted, found, counted ▸ full, digest, top⟩

theorem append_prefix_iff {front hashes : List Bytes} (found : front <+: hashes)
    {recorded digest : Bytes} (here : hashes[front.length]? = some recorded) :
    front ++ [digest] <+: hashes ↔ digest = recorded := by
  rcases found with ⟨rest, rfl⟩
  rw [List.prefix_append_right_inj]
  rw [List.getElem?_append_right (Nat.le_refl _), Nat.sub_self] at here
  cases rest with
  | nil => cases here
  | cons _ rest =>
    cases here
    rw [List.cons_prefix_cons]
    exact and_iff_left List.nil_prefix

/-- The comparison of hashes panics exactly if the summary is overrun. -/
theorem validateMerkle_panic_iff (building : Building helper)
    (tracks : Tracks inMerkle (levelsOf helper) matched) :
    validateMerkle hashing inMerkle results helper matched = .panic ↔
      Overruns hashing inMerkle helper (results.map kvReadOf) := by
  induction results generalizing helper matched with
  | nil =>
    constructor
    · nofun
    · rintro ⟨before, _, _, empty, _⟩
      cases before <;> cases empty
  | cons entry results ih =>
    rcases building.addResult hashing (kvReadOf entry) with ⟨added, step⟩
    have positive := List.length_pos_of_ne_nil added.nonempty
    rw [validateMerkle_cons building, List.map_cons, overruns_cons_iff]
    dsimp only
    rcases Nat.lt_trichotomy (levelsOf (helper.addResult hashing (kvReadOf entry))).length
        (recordedLevel inMerkle) with lower | level | outgrown
    · -- below the level of the summary nothing is compared
      rw [if_pos ((below_level_iff positive lower.le).mpr lower)]
      have untouched : matched = 0 := by
        have bound := step.height_le.1
        rcases tracks with ⟨_, none⟩ | ⟨same, _⟩
        · exact none
        · omega
      rw [ih added (Or.inl ⟨lower, untouched⟩)]
      refine (or_iff_right ?_).symm
      rintro ⟨_, _, beyond, _⟩
      omega
    · have notBelow := (below_level_iff positive level.le).not.mpr (Nat.lt_irrefl _ ∘ (level ▸ ·))
      rw [if_neg notBelow, or_iff_right]
      · rcases tracks.step step level with ⟨counted, found⟩ | ⟨front, digest, top, counted, found⟩
        · rw [if_pos counted]
          exact ih added (Or.inr ⟨level, counted, found⟩)
        · have differs := @not_overruns_of_differs hashing inMerkle _ added level
          rw [top] at differs ⊢
          rw [List.length_append, List.length_singleton,
            if_neg (by omega : ¬ matched = front.length + 1)]
          split_ifs with short
          · constructor
            · nofun
            · intro overruns
              refine absurd overruns (differs ?_ _)
              intro isFront
              have bound := isFront.length_le
              rw [List.length_append, List.length_singleton] at bound
              omega
          · have inside : matched < inMerkle.maxLevelHashes.length := by
              omega
            rw [counted, List.getElem?_append_right (Nat.le_refl _), Nat.sub_self]
            rw [counted] at inside
            have here := List.getElem?_eq_getElem inside
            rw [here]
            simp only [List.getElem?_cons_zero, deref_some, ok_bind]
            split_ifs with same
            · apply ih added
              refine Or.inr ⟨level, ?_, ?_⟩
              · rw [top, List.length_append, List.length_singleton]
              · rw [top]
                exact (append_prefix_iff found here).mpr same
            · constructor
              · nofun
              · have new := (append_prefix_iff found here).not.mpr same
                exact fun overruns => absurd overruns (differs new _)
      · rintro ⟨_, _, beyond, _⟩
        omega
    · rcases tracks.outgrown step outgrown with ⟨height, counted, found, several, digest, top⟩
      have recorded : 0 < inMerkle.maxLevelHashes.length := by
        have bound := found.length_le
        omega
      rw [or_iff_left, and_iff_right height, and_iff_right found, and_iff_right outgrown]
      rotate_left
      · rintro ⟨before, _, _, _, _, _⟩
        have grown := (added.addResults hashing before).length_le
        omega
      by_cases reached : AtLevel inMerkle (helper.addResult hashing (kvReadOf entry))
      · rw [← validateMerkle_cons building,
          validateMerkle_cons_eq_panic building several recorded reached top]
        exact iff_of_true rfl ⟨[], List.nil_prefix, reached⟩
      · rw [if_pos (UInt32.not_le.mp reached)]
        exact validateMerkle_eq_panic_iff_of_wrapped added several recorded reached

end

/-! ## Range queries -/

/-- After results that are found again, a recorded result has no version. -/
def MissesVersion (reads : List KVRead) (results : List VersionedKV) : Prop :=
  ∃ found entry rest later, results = found ++ entry :: rest ∧
    reads = found.map kvReadOf ++ ⟨entry.1, none⟩ :: later

theorem validateRawReads_panic_iff {reads : List KVRead} :
    validateRawReads reads results = .panic ↔ MissesVersion reads results := by
  induction reads generalizing results with
  | nil =>
    constructor
    · nofun
    · rintro ⟨found, entry, rest, later, _, empty⟩
      cases found <;> cases empty
  | cons kvRead reads ih =>
    rcases results with _ | ⟨⟨key, value⟩, results⟩
    · constructor
      · nofun
      · rintro ⟨found, entry, rest, later, empty, _⟩
        cases found <;> cases empty
    · rcases kvRead with ⟨_, version⟩
      rw [validateRawReads]
      constructor
      · intro panics
        split_ifs at panics with other
        rw [not_not] at other
        subst other
        cases version with
        | none => exact ⟨[], (key, value), results, reads, rfl, rfl⟩
        | some version =>
          rw [newVersion, Option.map_some, deref_some, ok_bind] at panics
          split_ifs at panics with same
          rcases ih.mp panics with ⟨found, entry, rest, later, rfl, rfl⟩
          rw [Height.areSame_iff, Option.some.injEq] at same
          refine ⟨(key, value) :: found, entry, rest, later, rfl, ?_⟩
          rw [List.map_cons, List.cons_append, kvReadOf, newKVRead, newProtoVersion, same]
          rfl
      · rintro ⟨_ | ⟨_, found⟩, entry, rest, later, split, recorded⟩
        · cases split
          cases recorded
          rw [if_neg (not_not.mpr rfl)]
          rfl
        · cases split
          rw [List.map_cons, List.cons_append] at recorded
          cases recorded
          rw [if_neg (not_not.mpr rfl)]
          have sameVersion : newVersion (newProtoVersion (some value.version)) =
                some value.version :=
            newVersion_newProtoVersion _
          rw [sameVersion, deref_some, ok_bind, if_pos ((Height.areSame_iff _ _).mpr rfl), ih]
          exact ⟨found, entry, rest, later, rfl, rfl⟩

def freshHelper (maxDegree : UInt32) : RangeQueryResultsHelper :=
  ⟨[], some ⟨[[]], maxDegree⟩, maxDegree⟩

section

variable (hashing : Hashing) (db : StateReader) (updates : UpdateBatch) (ns : GoString)

/-- The entries that are in the range of a query now. -/
def currentResults (rqi : RangeQueryInfo) : List VersionedKV :=
  resultsOn db updates ns rqi.startKey rqi.endKey (!rqi.itrExhausted)

/-- What was recorded for a range query can be compared. -/
def QuerySafe (rqi : RangeQueryInfo) : Prop :=
  match rqi.readsInfo with
  | none => True
  | some (.rawReads raw) => ¬ MissesVersion raw.kvReads (currentResults db updates ns rqi)
  | some (.readsMerkleHashes inMerkle) =>
    2 ≤ inMerkle.maxDegree ∧ ¬ Overruns hashing inMerkle (freshHelper inMerkle.maxDegree)
        ((currentResults db updates ns rqi).map kvReadOf)

end

variable {db : StateReader} {updates : UpdateBatch}

section

variable {ns : GoString}

theorem tracks_fresh (inMerkle : QueryReadsMerkleSummary) : Tracks inMerkle [[]] 0 := by
  rcases Nat.eq_or_lt_of_le (Nat.le_max_right inMerkle.maxLevel.toNat 1) with
    lowest | above
  · exact Or.inr ⟨lowest, rfl, List.nil_prefix⟩
  · exact Or.inl ⟨above, rfl⟩

theorem validateRangeQuery_ne_panic_iff {rqi : RangeQueryInfo} :
    validateRangeQuery hashing db updates ns rqi ≠ .panic ↔
      QuerySafe hashing db updates ns rqi := by
  rcases rqi with ⟨_, _, _, _ | (_ | inMerkle)⟩
  · refine iff_of_true ?_ trivial
    nofun
  · exact validateRawReads_panic_iff.not
  · rw [validateRangeQuery]
    dsimp only
    by_cases small : inMerkle.maxDegree < 2
    · have refused : newRangeQueryResultsHelper true inMerkle.maxDegree = none := by
        rw [newRangeQueryResultsHelper, if_pos rfl, newMerkleTree, if_pos small]
        rfl
      rw [refused]
      constructor
      · exact fun returns => absurd rfl returns
      · exact fun safe => absurd safe.1 (UInt32.not_le.mpr small)
    · have created : newRangeQueryResultsHelper true inMerkle.maxDegree =
            some (freshHelper inMerkle.maxDegree) := by
        rw [newRangeQueryResultsHelper, if_pos rfl, newMerkleTree, if_neg small]
        rfl
      rcases building_new created with ⟨building, levels⟩
      have tracks : Tracks inMerkle (levelsOf (freshHelper inMerkle.maxDegree)) 0 := by
        rw [levels]
        exact tracks_fresh inMerkle
      rw [created, deref_some, ok_bind, Ne, validateMerkle_panic_iff building tracks]
      exact (and_iff_right (UInt32.not_lt.mp small)).symm

end

/-! ## Transactions -/

variable {Item : Type} {validate : Item → Outcome DecodeError Bool}

theorem validateAll_ne_panic_iff {items : List Item} :
    validateAll validate items ≠ .panic ↔ ∀ before item after, items = before ++ item :: after →
      (∀ other ∈ before, validate other = .ok true) → validate item ≠ .panic := by
  induction items with
  | nil => simp [validateAll]
  | cons first items ih =>
    rw [Log.forall_split_cons_iff, validateAll]
    rcases checked : validate first with (_ | _) | _ | _
    all_goals simp [checked, ih]

section

variable (hashing : Hashing) (db : StateReader) (updates : UpdateBatch)

/-- The reads of a namespace have the current versions. -/
def ReadsValid (nsRWSet : NsRwSet) : Prop :=
  ∀ kvRead ∈ nsRWSet.kvRwSet.reads, validateKVRead db updates nsRWSet.nameSpace kvRead = true

/-- The first range query of a namespace that is not valid can be compared. -/
def QueriesSafe (nsRWSet : NsRwSet) : Prop :=
  ∀ before rqi after, nsRWSet.kvRwSet.rangeQueriesInfo = before ++ rqi :: after → (∀ other ∈ before,
        validateRangeQuery hashing db updates nsRWSet.nameSpace other = .ok true) →
      QuerySafe hashing db updates nsRWSet.nameSpace rqi

/-- The reads and the range queries of a namespace are valid. -/
def NsValid (nsRWSet : NsRwSet) : Prop :=
  ReadsValid db updates nsRWSet ∧ ∀ rqi ∈ nsRWSet.kvRwSet.rangeQueriesInfo,
      validateRangeQuery hashing db updates nsRWSet.nameSpace rqi = .ok true

/--
In the first namespace that is not valid the range queries can be compared,
unless its reads are not valid.
-/
def ReadsSafe (nsRwSets : List NsRwSet) : Prop :=
  ∀ before nsRWSet after, nsRwSets = before ++ nsRWSet :: after →
    (∀ other ∈ before, NsValid hashing db updates other) →
    ReadsValid db updates nsRWSet →
    QueriesSafe hashing db updates nsRWSet

end

section

variable {nsRWSet : NsRwSet}

theorem validateRangeQueries_ne_panic_iff :
    validateRangeQueries hashing db updates nsRWSet.nameSpace
        nsRWSet.kvRwSet.rangeQueriesInfo ≠ .panic ↔
      QueriesSafe hashing db updates nsRWSet := by
  simp only [QueriesSafe, ← validateRangeQuery_ne_panic_iff]
  exact validateAll_ne_panic_iff

theorem validateReadSet_eq (ns : GoString) (kvReads : List KVRead) :
    validateReadSet db updates ns kvReads = .ok (kvReads.all (validateKVRead db updates ns)) := by
  rw [validateReadSet]
  induction kvReads with
  | nil => rfl
  | cons kvRead kvReads ih =>
    rw [validateAll, ok_bind, List.all_cons, ih]
    cases validateKVRead db updates ns kvRead <;> rfl

variable {nsRwSets : List NsRwSet}

theorem readsSafe_cons_iff :
    ReadsSafe hashing db updates (nsRWSet :: nsRwSets) ↔
      (ReadsValid db updates nsRWSet → QueriesSafe hashing db updates nsRWSet) ∧
      (NsValid hashing db updates nsRWSet → ReadsSafe hashing db updates nsRwSets) := by
  simp only [ReadsSafe, Log.forall_split_cons_iff, List.forall_mem_cons]
  grind

theorem validateNsRwSets_ne_panic_iff :
    validateNsRwSets hashing db updates nsRwSets ≠ .panic ↔
      ReadsSafe hashing db updates nsRwSets := by
  induction nsRwSets with
  | nil =>
    refine iff_of_true nofun ?_
    intro before nsRWSet _ empty
    cases before <;> cases empty
  | cons nsRWSet nsRwSets ih =>
    have reads : nsRWSet.kvRwSet.reads.all (validateKVRead db updates nsRWSet.nameSpace) = true ↔
          ReadsValid db updates nsRWSet :=
      List.all_eq_true
    have valid : NsValid hashing db updates nsRWSet ↔ ReadsValid db updates nsRWSet ∧
          validateRangeQueries hashing db updates nsRWSet.nameSpace
            nsRWSet.kvRwSet.rangeQueriesInfo = .ok true :=
      and_congr_right fun _ => ⟨validateAll_eq_true_of_forall, validateAll_eq_true⟩
    rw [validateNsRwSets, readsSafe_cons_iff, ← ih, validateReadSet_eq, ok_bind, valid,
      ← validateRangeQueries_ne_panic_iff]
    by_cases readsValid : ReadsValid db updates nsRWSet
    · rw [if_pos (reads.mpr readsValid)]
      rcases validateRangeQueries hashing db updates nsRWSet.nameSpace
          nsRWSet.kvRwSet.rangeQueriesInfo with (_ | _) | _ | _
      all_goals simp [readsValid]
    · rw [if_neg (reads.not.mpr readsValid)]
      simp [readsValid]

end

/-! ## Validation reports no errors -/

variable {reason : DecodeError}

section

theorem validateAll_ne_error (each : ∀ item, validate item ≠ .error reason) (items : List Item) :
    validateAll validate items ≠ .error reason := by
  induction items with
  | nil => simp [validateAll]
  | cons item items ih =>
    rw [validateAll]
    apply bind_ne_error (each item)
    intro _ _
    split_ifs
    · exact ih
    · simp

theorem validateNsRwSets_ne_error (nsRwSets : List NsRwSet) :
    validateNsRwSets hashing db updates nsRwSets ≠ .error reason := by
  induction nsRwSets with
  | nil => simp [validateNsRwSets]
  | cons _ nsRwSets ih =>
    rw [validateNsRwSets, validateReadSet_eq, ok_bind]
    split_ifs
    · apply bind_ne_error
      · exact validateAll_ne_error (validateRangeQuery_ne_error _) _
      · intro _ _
        split_ifs
        · exact ih
        · simp
    · simp

end

/-! ## Blocks -/

section

variable (codec : Codec) (hashing : Hashing) (db : StateReader) (doMVCCValidation : Bool)

/-- An envelope carries the results of a transaction, and they are decoded. -/
def Carries (envBytes : Bytes) (txRWSet : TxRwSet) : Prop :=
  ∃ respPayload, getActionFromEnvelope codec (some envBytes) = .ok respPayload ∧
      fromProtoBytes codec respPayload.results = some txRWSet

/--
The range queries of a transaction can be compared, and if the transaction is
valid its writes carry values.
-/
def TransactionSafe (updates : UpdateBatch) (txRWSet : TxRwSet) : Prop :=
  if doMVCCValidation then
    ReadsSafe hashing db updates txRWSet.nsRwSets ∧
      (validateTx hashing db updates txRWSet = .ok .valid → PutsValues txRWSet)
  else
    PutsValues txRWSet

/-- The payload inside an envelope. -/
def payloadOf (envBytes : Bytes) : Option Payload := do
  let env ← codec.unmarshalEnvelope envBytes
  codec.unmarshalPayload env.payload.bytes

/--
A transaction can be processed after those before it.  It has a flag, the block
has a header unless the envelope is not decoded, and the payload of a transaction
that is not flagged yet has a header; the read-write set that an endorser
transaction carries is safe.
-/
def SafeAt (header : Option BlockHeader) (progress : Progress) (txIndex : Nat)
    (envBytes : Bytes) : Prop :=
  ∃ flag, progress.txsFilter[txIndex]? = some flag ∧
    (flag ≠ TxValidationCode.valid.number → header ≠ none) ∧
    (flag = TxValidationCode.valid.number →
      (∀ payload ∈ payloadOf codec envBytes, payload.header ≠ none) ∧
      ∀ txType, transactionType codec envBytes = .ok txType → header ≠ none ∧
        (txType = HeaderType.endorserTransaction →
          ∀ txRWSet, Carries codec envBytes txRWSet →
            TransactionSafe hashing db doMVCCValidation progress.updates txRWSet))

/-- The flags with which the validation of a block starts. -/
def initialFlags (filter : Bytes) (data : List Bytes) : TxValidationFlags :=
  if filter.isEmpty then newTxValidationFlags data.length else filter

/--
A block has data and a list of flags, and each of its transactions can be
processed after those before it.
-/
def SafeBlock (block : Block) : Prop :=
  ∃ data metadata filter, block.data = some data ∧ block.metadata = some metadata ∧
    metadata.metadata[transactionsFilter]? = some filter ∧
    ∀ before envBytes after progress, data.data = before ++ envBytes :: after →
        validateFrom codec hashing db block.header doMVCCValidation 0
            ⟨initialFlags filter data.data, UpdateBatch.new⟩ before =
          .ok progress →
        SafeAt codec hashing db doMVCCValidation block.header progress before.length envBytes

end

section

variable {codec : Codec} {hashing : Hashing} {db : StateReader} {doMVCCValidation : Bool}
  {txRWSet : TxRwSet}

theorem addWriteSetToBatch_ne_panic_iff {txHeight : Height} {batch : UpdateBatch} :
    addWriteSetToBatch txRWSet txHeight batch ≠ .panic ↔ PutsValues txRWSet := by
  have noError (reason : DecodeError) :
      addWriteSetToBatch txRWSet txHeight batch ≠ .error reason := by
    refine foldlM_ne_error ?_ _
    intro _ _ batch
    refine foldlM_ne_error ?_ _
    intro kvWrite _ batch
    rw [addWriteToBatch]
    split_ifs
    · simp
    · cases kvWrite.value <;> simp [UpdateBatch.put]
  rw [← @addWriteSetToBatch_ok_iff txRWSet batch txHeight]
  rcases outcome : addWriteSetToBatch txRWSet txHeight batch with
    later | reason | _
  · exact iff_of_true (by simp) ⟨later, rfl⟩
  · exact absurd outcome (noError reason)
  · exact iff_of_false (fun returns => returns rfl) (by simp)

variable {envBytes : Bytes}

theorem carries_iff {respPayload : ChaincodeAction}
    (found : getActionFromEnvelope codec (some envBytes) = .ok respPayload) :
    Carries codec envBytes txRWSet ↔ fromProtoBytes codec respPayload.results = some txRWSet := by
  constructor
  · rintro ⟨_, same, decoded⟩
    cases found.symm.trans same
    exact decoded
  · intro decoded
    exact ⟨respPayload, found, decoded⟩

theorem getActionFromEnvelope_ne_panic :
    getActionFromEnvelope codec (some envBytes) ≠ .panic := by
  refine ofOption_bind_ne_panic fun env _ => ofOption_bind_ne_panic fun payl _ =>
    ofOption_bind_ne_panic fun tx _ => ?_
  cases tx.actions with
  | nil => exact error_ne_panic
  | cons action _ =>
    refine bind_ne_panic (ofOption_bind_ne_panic fun ccPayload _ => ?_) fun _ _ => ok_ne_panic
    cases ccPayload.action with
    | none => exact error_ne_panic
    | some _ =>
      exact require_bind_ne_panic fun _ => ofOption_bind_ne_panic fun _ _ =>
        require_bind_ne_panic fun _ => ofOption_bind_ne_panic fun _ _ => ok_ne_panic

theorem transactionType_panic_iff : transactionType codec envBytes = .panic ↔
      ∃ payload ∈ payloadOf codec envBytes, payload.header = none := by
  simp only [transactionType, getEnvelopeFromBlock, getPayload, unmarshalChannelHeader, payloadOf,
    bind_panic_iff, ofOption_ne_panic, ofOption_ok_iff, deref_panic_iff, pure_ok, reduceCtorEq,
    and_false, exists_false, or_false, false_or, Option.mem_def, Option.bind_eq_bind,
    Option.bind_eq_some_iff, Slice.bytes]
  constructor
  · rintro ⟨env, found, payload, decoded, absent⟩
    exact ⟨payload, ⟨env, found, decoded⟩, absent⟩
  · rintro ⟨payload, ⟨env, found, decoded⟩, absent⟩
    exact ⟨env, found, payload, decoded, absent⟩

theorem validateEndorserTX_cases (envBytes : Bytes) (updates : UpdateBatch) :
    ((∀ txRWSet, ¬ Carries codec envBytes txRWSet) ∧
        ∃ txResult, validateEndorserTX codec hashing db envBytes doMVCCValidation
            updates = .ok (none, txResult)) ∨
      ∃ txRWSet, (∀ other, Carries codec envBytes other ↔ txRWSet = other) ∧
          validateEndorserTX codec hashing db envBytes doMVCCValidation updates =
            if doMVCCValidation then do
              let txResult ← validateTx hashing db updates txRWSet
              if txResult = .valid then .ok (some txRWSet, txResult) else .ok (none, txResult)
            else
              .ok (some txRWSet, .valid) := by
  rw [validateEndorserTX]
  rcases found : getActionFromEnvelope codec (some envBytes) with
    respPayload | _ | _
  · cases decoded : fromProtoBytes codec respPayload.results with
    | none =>
      refine Or.inl ⟨?_, .invalidOtherReason, ?_⟩
      · intro txRWSet
        rw [carries_iff found, decoded]
        nofun
      · simp only [decoded]
    | some txRWSet =>
      refine Or.inr ⟨txRWSet, ?_, ?_⟩
      · intro other
        rw [carries_iff found, decoded, Option.some.injEq]
      · simp only [decoded]
  · refine Or.inl ⟨?_, _, rfl⟩
    rintro txRWSet ⟨respPayload, other, _⟩
    cases found.symm.trans other
  · exact absurd found getActionFromEnvelope_ne_panic

variable {progress : Progress} {txIndex : Nat}

theorem endorserTransaction_ne_panic_iff {header : BlockHeader} :
    (do
      let (txRWSet, txResult) ← validateEndorserTX codec hashing db envBytes doMVCCValidation
          progress.updates
      let blockHeader ← deref (some header)
      match txRWSet with
      | none => pure { progress with txsFilter := progress.txsFilter.set txIndex txResult.number }
      | some txRWSet =>
        let committingTxHeight : Height := ⟨blockHeader.number, UInt64.ofNat txIndex⟩
        let updates ← addWriteSetToBatch txRWSet committingTxHeight progress.updates
        pure
          { txsFilter :=
              progress.txsFilter.set txIndex TxValidationCode.valid.number
            updates := updates } : Outcome DecodeError Progress) ≠ .panic ↔
      ∀ txRWSet, Carries codec envBytes txRWSet →
        TransactionSafe hashing db doMVCCValidation progress.updates txRWSet := by
  have writes (txRWSet : TxRwSet) : (do
        let updates ← addWriteSetToBatch txRWSet
            (⟨header.number, UInt64.ofNat txIndex⟩ : Height) progress.updates
        pure
          { txsFilter :=
              progress.txsFilter.set txIndex TxValidationCode.valid.number
            updates := updates } : Outcome DecodeError Progress) ≠ .panic ↔
        PutsValues txRWSet := by
    rw [← addWriteSetToBatch_ne_panic_iff, Ne, bind_panic_iff]
    constructor
    · exact fun returns panics => returns (Or.inl panics)
    · rintro returns (panics | ⟨_, _, panics⟩)
      · exact returns panics
      · cases panics
  rcases validateEndorserTX_cases envBytes progress.updates with
    ⟨none, txResult, result⟩ | ⟨txRWSet, carried, result⟩
  · rw [result]
    exact iff_of_true nofun fun txRWSet carries => absurd carries (none txRWSet)
  · rw [result]
    simp only [carried, forall_eq', TransactionSafe]
    cases doMVCCValidation with
    | false => exact writes txRWSet
    | true =>
      rw [if_pos rfl, if_pos rfl, ← validateNsRwSets_ne_panic_iff]
      show _ ↔ validateTx hashing db progress.updates txRWSet ≠ .panic ∧ _
      rcases validated : validateTx hashing db progress.updates txRWSet with
        txResult | _ | _
      · rw [ok_bind]
        by_cases valid : txResult = .valid
        · subst valid
          rw [if_pos rfl]
          refine (writes txRWSet).trans ?_
          constructor
          · exact fun puts => ⟨nofun, fun _ => puts⟩
          · exact fun safe => safe.2 rfl
        · rw [if_neg valid]
          refine iff_of_true nofun ⟨nofun, ?_⟩
          intro same
          exact absurd (Outcome.ok.inj same) valid
      · exact iff_of_true nofun ⟨nofun, nofun⟩
      · exact iff_of_false (fun returns => returns rfl) fun safe => safe.1 rfl

theorem validateEndorserTX_ne_error (envBytes : Bytes) (updates : UpdateBatch) :
    validateEndorserTX codec hashing db envBytes doMVCCValidation updates ≠ .error reason := by
  rcases validateEndorserTX_cases envBytes updates with
    ⟨_, _, result⟩ | ⟨_, _, result⟩
  · rw [result]
    nofun
  · rw [result]
    split_ifs
    · apply bind_ne_error (validateNsRwSets_ne_error _)
      intro _ _
      split_ifs <;> nofun
    · nofun

variable {header : Option BlockHeader}

theorem validateAt_ne_panic_iff :
    validateAt codec hashing db header doMVCCValidation progress txIndex envBytes ≠ .panic ↔
      SafeAt codec hashing db doMVCCValidation header progress txIndex
        envBytes := by
  rw [validateAt, SafeAt]
  cases progress.txsFilter[txIndex]? with
  | none => simp
  | some flag =>
    simp only [deref_some, ok_bind, Option.some.injEq, exists_eq_left']
    by_cases unflagged : flag = TxValidationCode.valid.number
    · have headed := (@transactionType_panic_iff codec envBytes).not
      push Not at headed
      rw [if_neg (not_not.mpr unflagged), ← headed]
      rcases decoded : transactionType codec envBytes with txType | reason | _
      · simp only [ok_bind, Outcome.ok.injEq, forall_eq', unflagged, ne_eq, not_true_eq_false,
          false_imp_iff, true_and, true_imp_iff, reduceCtorEq, not_false_eq_true]
        by_cases endorser : txType = HeaderType.endorserTransaction
        · rw [if_neg (not_not.mpr endorser)]
          cases header with
          | none =>
            refine iff_of_false ?_ fun safe => safe.1 rfl
            rcases validated : validateEndorserTX codec hashing db envBytes
                  doMVCCValidation progress.updates with
              _ | reason | _
            · exact fun returns => returns rfl
            · exact absurd validated (validateEndorserTX_ne_error _ _)
            · exact fun returns => returns rfl
          | some header =>
            rw [and_iff_right nofun, imp_iff_right endorser]
            exact endorserTransaction_ne_panic_iff
        · rw [if_pos endorser]
          cases header with
          | none => exact iff_of_false (fun returns => returns rfl) fun safe => safe.1 rfl
          | some header =>
            exact iff_of_true nofun
                ⟨nofun, fun same => absurd same endorser⟩
      · refine iff_of_true nofun ⟨fun flagged => absurd unflagged flagged, ?_⟩
        exact fun _ => ⟨nofun, nofun⟩
      · refine iff_of_false (fun returns => returns rfl) ?_
        exact fun safe => (safe.2 unflagged).1 rfl
    · rw [if_pos unflagged]
      cases header with
      | none => exact iff_of_false (fun returns => returns rfl) fun safe => safe.1 unflagged rfl
      | some header =>
        exact iff_of_true nofun
            ⟨fun _ => nofun, fun same => absurd same unflagged⟩

/-- A walk panics at the first transaction that cannot be processed. -/
theorem validateFrom_ne_panic_iff {data : List Bytes} :
    validateFrom codec hashing db header doMVCCValidation txIndex progress data ≠ .panic ↔
      ∀ before envBytes after, data = before ++ envBytes :: after → ∀ later,
        validateFrom codec hashing db header doMVCCValidation txIndex progress before = .ok later →
        SafeAt codec hashing db doMVCCValidation header later
          (txIndex + before.length) envBytes := by
  induction data generalizing progress txIndex with
  | nil => simp [validateFrom]
  | cons first data ih =>
    simp only [Log.forall_split_cons_iff, validateFrom, Outcome.ok.injEq, forall_eq']
    rw [List.length_nil, Nat.add_zero, ← validateAt_ne_panic_iff]
    rcases validateAt codec hashing db header doMVCCValidation progress txIndex first with
      middle | _ | _
    · rw [ok_bind, ih]
      simp [Nat.add_assoc, Nat.add_comm 1]
    · simp
    · simp

/-- A block is validated without a panic exactly if it is safe. -/
theorem validateAndPrepareBatch_ne_panic_iff (block : Block) :
    validateAndPrepareBatch codec hashing db block doMVCCValidation ≠ .panic ↔
      SafeBlock codec hashing db doMVCCValidation block := by
  rw [validateAndPrepareBatch, SafeBlock]
  cases block.data with
  | none => simp
  | some data =>
    cases block.metadata with
    | none => simp
    | some metadata =>
      cases flags : metadata.metadata[transactionsFilter]? with
      | none => simp [flags]
      | some filter =>
        simp only [deref_some, ok_bind, flags, validateFrom_ne_panic_iff, Nat.zero_add,
          Option.some.injEq, exists_eq_left', exists_and_left]
        constructor
        · exact fun safe before envBytes after progress split =>
            safe before envBytes after split progress
        · exact fun safe before envBytes after split progress =>
            safe before envBytes after progress split

end

open Serializability

namespace Sample

/-- Writes to the key `k`: the entry has neither a value nor a deletion mark. -/
def unvalued : Reader.Transaction where
  ns := Reader.ns
  kvRWSet := ⟨[], [], [⟨.letter 'k', false, none⟩]⟩
  envelope := [1]

end Sample

/-- A write without a value that is not a deletion stops the validator. -/
theorem validateAndPrepareBatch_panics_unvalued : let codec := Reader.codecOf [Sample.unvalued]
    transactionType codec Sample.unvalued.envelope = .ok .endorserTransaction ∧
      Carries codec Sample.unvalued.envelope ⟨[⟨.letter 'a', Sample.unvalued.kvRWSet⟩]⟩ ∧
      validateAndPrepareBatch codec ⟨id, fun _ => []⟩ VersionedDB.empty
        (Reader.block 1 [Sample.unvalued]) true = .panic :=
  ⟨rfl, ⟨_, rfl, rfl⟩, rfl⟩

end Fabric.Ledger.ValidatorPanics
