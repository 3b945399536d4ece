import Fabric.Library.ByteString
import Mathlib.Logic.Equiv.List

/-!
# Commitments made of nested digests

A digest commits to a list of leaves when it is the digest of the encoded
list, or the digest of a concatenation of digests that commit to consecutive
parts of the list.  Trees of digests that are built incrementally, and whose
shape depends on how many leaves have been fed in, are all covered: only the
order of the leaves is fixed.

Under a collision-free digest, a digest commits to at most one list.  Digests
are byte strings here, so the fixed digest length of a real hash function
appears through the one consequence that is used, unique decodability of a
concatenation of digests.
-/

namespace Fabric.Library.HashCommitment

open ByteString

variable {Leaf : Type*}

/-- The assumptions under which digests identify what was hashed. -/
structure CollisionFree (hash : Bytes → Bytes) (encode : List Leaf → Bytes) : Prop where
  hash_injective : Function.Injective hash
  encode_injective : Function.Injective encode
  digests_decodable : ∀ left right : List Bytes, (∀ digest ∈ left, digest ∈ Set.range hash) →
      (∀ digest ∈ right, digest ∈ Set.range hash) →
      left.flatten = right.flatten →
      left = right
  leaf_ne_node : ∀ (leaves : List Leaf) (digests : List Bytes), leaves ≠ [] → digests ≠ [] →
      (∀ digest ∈ digests, digest ∈ Set.range hash) →
      encode leaves ≠ digests.flatten

section

variable (hash : Bytes → Bytes) (encode : List Leaf → Bytes)

/-- Commitment through at most `depth` levels of nested digests. -/
def CommitsWithin : Nat → Bytes → List Leaf → Prop
  | 0, digest, leaves => leaves ≠ [] ∧ digest = hash (encode leaves)
  | depth + 1, digest, leaves =>
    CommitsWithin depth digest leaves ∨ ∃ digests parts, digests ≠ [] ∧
        digest = hash digests.flatten ∧
        List.Forall₂ (CommitsWithin depth) digests parts ∧
        leaves = parts.flatten

/-- The digest commits to the list of leaves. -/
def Commits (digest : Bytes) (leaves : List Leaf) : Prop :=
  ∃ depth, CommitsWithin hash encode depth digest leaves

/-- The digests commit, one after the other, to the list of leaves. -/
def CommitsAll (digests : List Bytes) (leaves : List Leaf) : Prop :=
  ∃ parts, List.Forall₂ (Commits hash encode) digests parts ∧ leaves = parts.flatten

variable {hash encode} {leaves : List Leaf} {digest : Bytes}

theorem CommitsWithin.mono {lower upper : Nat} (ordered : lower ≤ upper)
    (commits : CommitsWithin hash encode lower digest leaves) :
    CommitsWithin hash encode upper digest leaves := by
  induction ordered with
  | refl => exact commits
  | step _ ih => exact Or.inl ih

variable {depth : Nat}

theorem CommitsWithin.mem_range (commits : CommitsWithin hash encode depth digest leaves) :
    digest ∈ Set.range hash := by
  induction depth with
  | zero => exact ⟨encode leaves, commits.2.symm⟩
  | succ depth ih =>
    rcases commits with shallow | ⟨digests, _, _, digestEq, _⟩
    · exact ih shallow
    · exact ⟨digests.flatten, digestEq.symm⟩

variable {digests : List Bytes}

variable {parts : List (List Leaf)}

private theorem forall_mem_range
    (commits : List.Forall₂ (CommitsWithin hash encode depth) digests parts) :
    ∀ digest ∈ digests, digest ∈ Set.range hash := by
  induction commits with
  | nil => simp
  | cons head _ ih =>
    intro digest member
    rcases List.mem_cons.mp member with equal | later
    · exact equal ▸ head.mem_range
    · exact ih digest later

private theorem forall₂_unique {left right : Bytes → List Leaf → Prop}
    (unique : ∀ digest first second, left digest first → right digest second → first = second)
    {firsts seconds : List (List Leaf)} (leftAll : List.Forall₂ left digests firsts)
    (rightAll : List.Forall₂ right digests seconds) :
    firsts = seconds := by
  induction leftAll generalizing seconds with
  | nil =>
    cases rightAll
    rfl
  | cons leftHead _ ih =>
    cases rightAll with
    | cons rightHead rightTail => rw [unique _ _ _ leftHead rightHead, ih rightTail]

private theorem leaf_node_absurd (free : CollisionFree hash encode) (leavesNonempty : leaves ≠ [])
    (digestsNonempty : digests ≠ [])
    (commits : List.Forall₂ (CommitsWithin hash encode depth) digests parts)
    (collision : hash (encode leaves) = hash digests.flatten) :
    False :=
  free.leaf_ne_node leaves digests leavesNonempty digestsNonempty
    (forall_mem_range commits) (free.hash_injective collision)

private theorem CommitsWithin.unique (free : CollisionFree hash encode) (leftDepth rightDepth : Nat)
    (digest : Bytes) (left right : List Leaf)
    (leftCommits : CommitsWithin hash encode leftDepth digest left)
    (rightCommits : CommitsWithin hash encode rightDepth digest right) :
    left = right := by
  -- The outer induction is on the left depth; for a node on the left the
  -- right depth is then peeled off until its own node or leaf is reached.
  induction leftDepth generalizing digest left right rightDepth with
  | zero =>
    induction rightDepth with
    | zero =>
      refine free.encode_injective (free.hash_injective ?_)
      rw [← leftCommits.2, ← rightCommits.2]
    | succ rightDepth rightInduction =>
      rcases rightCommits with
        shallow | ⟨digests, parts, nonempty, digestEq, all, _⟩
      · exact rightInduction shallow
      · refine (leaf_node_absurd free leftCommits.1 nonempty all ?_).elim
        rw [← leftCommits.2, ← digestEq]
  | succ leftDepth leftInduction =>
    rcases leftCommits with
      shallow | ⟨digests, parts, nonempty, digestEq, all, leftEq⟩
    · exact leftInduction rightDepth digest left right shallow rightCommits
    · induction rightDepth with
      | zero =>
        refine (leaf_node_absurd free rightCommits.1 nonempty all ?_).elim
        rw [← rightCommits.2, ← digestEq]
      | succ rightDepth rightInduction =>
        rcases rightCommits with
          shallow | ⟨digests', parts', _, digestEq', all', rightEq⟩
        · exact rightInduction shallow
        · have sameDigests : digests = digests' := free.digests_decodable digests digests'
              (forall_mem_range all) (forall_mem_range all')
              (free.hash_injective (digestEq.symm.trans digestEq'))
          subst sameDigests
          have sameParts : parts = parts' := forall₂_unique (fun digest first second =>
                leftInduction rightDepth digest first second)
              all all'
          rw [leftEq, rightEq, sameParts]

variable {left right : List Leaf}

theorem Commits.unique (free : CollisionFree hash encode)
    (leftCommits : Commits hash encode digest left)
    (rightCommits : Commits hash encode digest right) :
    left = right := by
  obtain ⟨leftDepth, leftWithin⟩ := leftCommits
  obtain ⟨rightDepth, rightWithin⟩ := rightCommits
  exact CommitsWithin.unique free leftDepth rightDepth digest left right leftWithin rightWithin

theorem CommitsAll.unique (free : CollisionFree hash encode)
    (leftCommits : CommitsAll hash encode digests left)
    (rightCommits : CommitsAll hash encode digests right) :
    left = right := by
  obtain ⟨leftParts, leftAll, leftEq⟩ := leftCommits
  obtain ⟨rightParts, rightAll, rightEq⟩ := rightCommits
  have unique : ∀ digest first second, Commits hash encode digest first →
        Commits hash encode digest second →
        first = second :=
    fun _ _ _ first second => Commits.unique free first second
  have sameParts : leftParts = rightParts := forall₂_unique unique leftAll rightAll
  rw [leftEq, rightEq, sameParts]

theorem CommitsAll.nil : CommitsAll hash encode [] ([] : List Leaf) :=
  ⟨[], List.Forall₂.nil, rfl⟩

variable {leftDigests rightDigests : List Bytes}

theorem CommitsAll.append (leftCommits : CommitsAll hash encode leftDigests left)
    (rightCommits : CommitsAll hash encode rightDigests right) :
    CommitsAll hash encode (leftDigests ++ rightDigests) (left ++ right) := by
  obtain ⟨leftParts, leftAll, rfl⟩ := leftCommits
  obtain ⟨rightParts, rightAll, rfl⟩ := rightCommits
  exact ⟨leftParts ++ rightParts, List.rel_append leftAll rightAll, List.flatten_append.symm⟩

@[simp]
theorem commitsAll_nil_iff (leaves : List Leaf) :
    CommitsAll hash encode [] leaves ↔ leaves = [] := by
  constructor
  · rintro ⟨_, all, rfl⟩
    cases all
    rfl
  · rintro rfl
    exact CommitsAll.nil

/-- Digests in two groups commit to consecutive parts of the list. -/
theorem CommitsAll.split (commits : CommitsAll hash encode (leftDigests ++ rightDigests) leaves) :
    ∃ left right, leaves = left ++ right ∧ CommitsAll hash encode leftDigests left ∧
        CommitsAll hash encode rightDigests right := by
  induction leftDigests generalizing leaves with
  | nil => exact ⟨[], leaves, rfl, CommitsAll.nil, commits⟩
  | cons _ leftDigests ih =>
    obtain ⟨parts, all, rfl⟩ := commits
    cases all with
    | @cons _ part _ parts head tail =>
      obtain ⟨left, right, splitEq, leftAll, rightAll⟩ := ih ⟨parts, tail, rfl⟩
      obtain ⟨leftParts, leftForall, rfl⟩ := leftAll
      refine ⟨part ++ leftParts.flatten, right, ?_, ?_, rightAll⟩
      · rw [List.flatten_cons, splitEq, List.append_assoc]
      · exact ⟨part :: leftParts, .cons head leftForall, rfl⟩

theorem CommitsAll.singleton (commits : Commits hash encode digest leaves) :
    CommitsAll hash encode [digest] leaves :=
  ⟨[leaves], List.Forall₂.cons commits List.Forall₂.nil, by simp⟩

theorem commits_leaf (nonempty : leaves ≠ []) : Commits hash encode (hash (encode leaves)) leaves :=
  ⟨0, nonempty, rfl⟩

/-- Hashing a concatenation of committing digests commits to the same list. -/
theorem CommitsAll.combine (nonempty : digests ≠ [])
    (commits : CommitsAll hash encode digests leaves) :
    Commits hash encode (hash digests.flatten) leaves := by
  obtain ⟨parts, all, leavesEq⟩ := commits
  have bounded : ∃ depth, List.Forall₂ (CommitsWithin hash encode depth) digests parts := by
    clear nonempty leavesEq
    induction all with
    | nil => exact ⟨0, List.Forall₂.nil⟩
    | cons head _ ih =>
      obtain ⟨headDepth, headWithin⟩ := head
      obtain ⟨tailDepth, tailWithin⟩ := ih
      refine ⟨max headDepth tailDepth, List.Forall₂.cons ?_ ?_⟩
      · exact headWithin.mono (Nat.le_max_left headDepth tailDepth)
      · exact tailWithin.imp fun _ _ within => within.mono (Nat.le_max_right headDepth tailDepth)
  obtain ⟨depth, within⟩ := bounded
  exact ⟨depth + 1, Or.inr ⟨digests, parts, nonempty, rfl, within, leavesEq⟩⟩

end

/-! ## The assumptions are satisfiable -/

/-- A self-delimiting copy of the input, in place of a digest. -/
def markedCopy (input : Bytes) : Bytes :=
  input.flatMap (fun byte => [1, byte]) ++ [0]

private theorem markedCopy_append_inj {left right leftRest rightRest : Bytes}
    (equal : markedCopy left ++ leftRest = markedCopy right ++ rightRest) :
    left = right ∧ leftRest = rightRest := by
  induction left generalizing right with
  | nil =>
    cases right with
    | nil => exact ⟨rfl, by simpa [markedCopy] using equal⟩
    | cons _ right => simp [markedCopy] at equal
  | cons _ left ih =>
    cases right with
    | nil => simp [markedCopy] at equal
    | cons _ right =>
      simp only [markedCopy, List.flatMap_cons, List.cons_append,
        List.nil_append, List.cons.injEq, true_and] at equal
      obtain ⟨rfl, tails⟩ := equal
      obtain ⟨rfl, rest⟩ := ih tails
      exact ⟨rfl, rest⟩

private theorem markedCopy_flatten_inj (left right : List Bytes)
    (leftDigests : ∀ digest ∈ left, digest ∈ Set.range markedCopy)
    (rightDigests : ∀ digest ∈ right, digest ∈ Set.range markedCopy)
    (equal : left.flatten = right.flatten) :
    left = right := by
  have nonempty (input : Bytes) : markedCopy input ≠ [] := by
    simp [markedCopy]
  induction left generalizing right with
  | nil =>
    cases right with
    | nil => rfl
    | cons digest right =>
      obtain ⟨input, rfl⟩ := rightDigests digest (by simp)
      simp [nonempty] at equal
  | cons leftDigest left ih =>
    obtain ⟨_, rfl⟩ := leftDigests leftDigest (by simp)
    cases right with
    | nil => simp [nonempty] at equal
    | cons rightDigest right =>
      obtain ⟨_, rfl⟩ := rightDigests rightDigest (by simp)
      obtain ⟨rfl, rest⟩ := markedCopy_append_inj equal
      rw [ih right (fun digest member => leftDigests digest (by simp [member]))
        (fun digest member => rightDigests digest (by simp [member]))
        rest]

/-- An encoding that is told apart from marked copies by its first byte. -/
noncomputable def taggedNumber [Countable Leaf] (leaves : List Leaf) : Bytes :=
  2 :: List.replicate (Classical.choose (exists_injective_nat _) leaves) 0

theorem collisionFree_markedCopy [Countable Leaf] :
    CollisionFree markedCopy (taggedNumber : List Leaf → Bytes) := by
  refine ⟨?_, ?_, markedCopy_flatten_inj, ?_⟩
  · intro left right equal
    exact (markedCopy_append_inj (congrArg (· ++ []) equal)).1
  · intro left right equal
    refine Classical.choose_spec (exists_injective_nat (List Leaf)) ?_
    simpa [taggedNumber] using equal
  · intro _ digests _ _ digestsInRange equal
    cases digests with
    | nil => contradiction
    | cons digest digests =>
      obtain ⟨input, rfl⟩ := digestsInRange digest (by simp)
      cases input <;> simp [taggedNumber, markedCopy] at equal

end Fabric.Library.HashCommitment
