import Fabric.Protos
import Mathlib.Data.List.Zip

/-!
# Signature policies

A signature policy is a tree of thresholds whose leaves name principals.  It is
compiled to an evaluator that walks through the tree once, from the left.  A
leaf takes the first signature that nobody has taken before and that serves its
principal.  A gate tries all of its rules; what a rule has taken is kept if the
rule succeeds and is given back if it fails.

An evaluator that accepts has found a set of leaves which satisfies the tree as
a boolean formula, and a signature of its own for each of these leaves.
-/

namespace Fabric.Policies.Cauthdsl

open Library ByteString Protos

/-! ## Policies -/

mutual

/-- A policy; `absent` is a nil pointer, `unset` a policy without a type. -/
inductive SignaturePolicy where
  | absent
  | unset
  | signedBy (index : Int32)
  | nOutOf (n : Int32) (rules : SignaturePolicies)

/-- The rules of a gate. -/
inductive SignaturePolicies where
  | nil
  | cons (rule : SignaturePolicy) (rest : SignaturePolicies)

end

/-- What is known about identities and principals. -/
structure IdentityDeserializer (Principal Identity : Type) where
  deserializeIdentity : Slice → Option Identity
  satisfiesPrincipal : Identity → Principal → Bool
  verify : Identity → (data : Bytes) → (signature : Slice) → Bool

/-- Why a policy cannot be compiled. -/
inductive CompileError where
  | emptyPolicyElement
  | identityIndexOutOfRange (requested : Int32) (identities : Nat)
  | unknownType
deriving DecidableEq

/--
An evaluator is told which signatures have been taken, and tells whether it
accepts and which signatures are taken afterwards.
-/
abbrev Evaluator := List SignedData → List Bool → Bool × List Bool

section

variable {Principal Identity : Type} (deserializer : IdentityDeserializer Principal Identity)

/-- The identity can be read, satisfies the principal and has signed. -/
def serves (signedByID : Principal) (sd : SignedData) : Bool :=
  match deserializer.deserializeIdentity sd.identity with
  | none => false
  | some identity =>
    deserializer.satisfiesPrincipal identity signedByID &&
      deserializer.verify identity sd.data sd.signature

/-- Uses the first free signature that serves. -/
def evaluateSignedBy (signedByID : Principal) : Evaluator :=
  fun signedData used =>
    match signedData.zipIdx.find? fun entry =>
        used[entry.2]? == some false && serves deserializer signedByID entry.1
    with
    | some entry => (true, used.set entry.2 true)
    | none => (false, used)

/-- Try one rule of a gate and keep what it takes if it succeeds. -/
def tryRule (signedData : List SignedData) (state : Int32 × List Bool)
    (policy : Evaluator) : Int32 × List Bool :=
  match policy signedData state.2 with
  | (true, used) => (state.1 + 1, used)
  | (false, _) => state

/-- Counts the rules that hold. -/
def evaluateNOutOf (n : Int32) (policies : List Evaluator) : Evaluator :=
  fun signedData used =>
    let state := policies.foldl (tryRule signedData) (0, used)
    (decide (n ≤ state.1), state.2)

variable (identities : List Principal)

mutual

/-- Compiles a rule. -/
def compile : SignaturePolicy → Outcome CompileError Evaluator
  | .absent => .error .emptyPolicyElement
  | .unset => .error .unknownType
  | .signedBy index =>
    if index < 0 ∨ Int32.ofNat identities.length ≤ index then
      .error (.identityIndexOutOfRange index identities.length)
    else
      match identities[index.toInt.toNat]? with
      | some signedByID => .ok (evaluateSignedBy deserializer signedByID)
      | none => .panic
  | .nOutOf n rules => do
      let policies ← compileRules rules
      .ok (evaluateNOutOf n policies)

/-- Compiles rules in order. -/
def compileRules : SignaturePolicies → Outcome CompileError (List Evaluator)
  | .nil => .ok []
  | .cons rule rest => do
      let first ← compile rule
      let others ← compileRules rest
      .ok (first :: others)

end

end

/-! ## Evaluation -/

/-- Leave out the entries whose identity has been seen. -/
def deduplicateFrom (ids : List Bytes) : List SignedData → List SignedData
  | [] => []
  | sd :: sds =>
    if sd.identity.bytes ∈ ids then deduplicateFrom ids sds
    else sd :: deduplicateFrom (sd.identity.bytes :: ids) sds

/-- Keeps the first of each identity's bytes. -/
def deduplicate (sds : List SignedData) : List SignedData :=
  deduplicateFrom [] sds

/-- Whether a set of signatures satisfies a compiled policy. -/
def evaluate (evaluator : Evaluator) (signatureSet : List SignedData) : Bool :=
  (evaluator (deduplicate signatureSet) (List.replicate signatureSet.length false)).1

theorem mem_of_mem_deduplicateFrom {sds : List SignedData} {ids : List Bytes} {sd : SignedData}
    (member : sd ∈ deduplicateFrom ids sds) :
    sd ∈ sds ∧ sd.identity.bytes ∉ ids := by
  induction sds generalizing ids with
  | nil => cases member
  | cons first sds ih =>
    rw [deduplicateFrom] at member
    split_ifs at member with seen
    · rcases ih member with ⟨inside, fresh⟩
      exact ⟨List.mem_cons_of_mem first inside, fresh⟩
    · rcases List.mem_cons.mp member with rfl | later
      · exact ⟨List.mem_cons_self, seen⟩
      · rcases ih later with ⟨inside, fresh⟩
        exact ⟨List.mem_cons_of_mem first inside, fun old => fresh (List.mem_cons_of_mem _ old)⟩

theorem nodup_identities_deduplicateFrom (sds : List SignedData) (ids : List Bytes) :
    ((deduplicateFrom ids sds).map fun sd => sd.identity.bytes).Nodup := by
  induction sds generalizing ids with
  | nil => exact List.nodup_nil
  | cons _ sds ih =>
    rw [deduplicateFrom]
    split_ifs with seen
    · exact ih ids
    · rw [List.map_cons, List.nodup_cons]
      refine ⟨?_, ih _⟩
      intro again
      rcases List.mem_map.mp again with ⟨sd, member, same⟩
      apply (mem_of_mem_deduplicateFrom member).2
      rw [same]
      exact List.mem_cons_self

theorem nodup_identities_deduplicate (sds : List SignedData) :
    ((deduplicate sds).map fun sd => sd.identity.bytes).Nodup :=
  nodup_identities_deduplicateFrom sds []

theorem length_deduplicateFrom_le (sds : List SignedData) (ids : List Bytes) :
    (deduplicateFrom ids sds).length ≤ sds.length := by
  induction sds generalizing ids with
  | nil => exact Nat.le_refl 0
  | cons _ sds ih =>
    rw [deduplicateFrom]
    split_ifs with seen
    · exact Nat.le_succ_of_le (ih ids)
    · exact Nat.succ_le_succ (ih _)

/-! ## Leaves and boolean formulas -/

/-- The positions that lead from the root of a policy to one of its rules. -/
abbrev Path := List Nat

mutual

/-- The index of the principal at a leaf. -/
def leafAt : SignaturePolicy → Path → Option Int32
  | .signedBy index, [] => some index
  | .nOutOf _ rules, path => leafAtRules rules path
  | _, _ => none

def leafAtRules : SignaturePolicies → Path → Option Int32
  | .cons rule _, 0 :: path => leafAt rule path
  | .cons _ rest, (position + 1) :: path => leafAtRules rest (position :: path)
  | _, _ => none

end

/-- The paths through the second rule and those after it, seen from there. -/
def afterFirst (chosen : Path → Bool) : Path → Bool
  | [] => false
  | position :: path => chosen ((position + 1) :: path)

mutual

/-- The policy as a boolean formula, of which the chosen leaves are true. -/
def holds (chosen : Path → Bool) : SignaturePolicy → Bool
  | .absent => false
  | .unset => false
  | .signedBy _ => chosen []
  | .nOutOf n rules => decide (n.toInt ≤ holdsCount chosen rules)

def holdsCount (chosen : Path → Bool) : SignaturePolicies → Nat
  | .nil => 0
  | .cons rule rest =>
    (holds (fun path => chosen (0 :: path)) rule).toNat + holdsCount (afterFirst chosen) rest

end

/-! ## Assignments of signatures to leaves -/

/-- The leaves that have been assigned a signature. -/
def chosenBy {Item : Type} (assigned : List (Path × Item)) (path : Path) : Bool :=
  decide (path ∈ assigned.map Prod.fst)

/-- Put the paths into a rule behind the position of the rule. -/
def inFirst {Item : Type} (assigned : List (Path × Item)) : List (Path × Item) :=
  assigned.map fun entry => (0 :: entry.1, entry.2)

def nextPath : Path → Path
  | [] => []
  | position :: path => (position + 1) :: path

def inRest {Item : Type} (assigned : List (Path × Item)) : List (Path × Item) :=
  assigned.map fun entry => (nextPath entry.1, entry.2)

theorem nextPath_injective : Function.Injective nextPath := by
  rintro (_ | ⟨_, _⟩) (_ | ⟨_, _⟩) same
  · rfl
  · cases same
  · cases same
  · cases same
    rfl

section

variable {Item : Type} {first rest : List (Path × Item)}

theorem map_fst_inFirst : (inFirst first).map Prod.fst = (first.map Prod.fst).map (0 :: ·) := by
  simp [inFirst, Function.comp_def]

theorem map_fst_inRest : (inRest rest).map Prod.fst = (rest.map Prod.fst).map nextPath := by
  simp [inRest, Function.comp_def]

section

variable (inner : ∀ entry ∈ rest, entry.1 ≠ [])
include inner

theorem chosenBy_first (path : Path) :
    chosenBy (inFirst first ++ inRest rest) (0 :: path) = chosenBy first path := by
  rw [chosenBy, chosenBy, decide_eq_decide, List.map_append, map_fst_inFirst, map_fst_inRest,
    List.mem_append, List.mem_map, List.mem_map]
  constructor
  · rintro (⟨other, member, same⟩ | ⟨other, member, same⟩)
    · cases same
      exact member
    · rcases other with _ | ⟨_, other⟩
      · rcases List.mem_map.mp member with ⟨entry, inside, empty⟩
        exact absurd empty (inner entry inside)
      · cases same
  · intro member
    exact Or.inl ⟨path, member, rfl⟩

theorem chosenBy_rest : afterFirst (chosenBy (inFirst first ++ inRest rest)) = chosenBy rest := by
  funext path
  rcases path with _ | ⟨position, path⟩
  · rw [afterFirst, chosenBy, eq_comm, decide_eq_false_iff_not, List.mem_map]
    rintro ⟨entry, member, empty⟩
    exact inner entry member empty
  · rw [afterFirst, chosenBy, chosenBy, decide_eq_decide, List.map_append,
      map_fst_inFirst, map_fst_inRest, List.mem_append, List.mem_map]
    constructor
    · rintro (⟨other, _, same⟩ | later)
      · cases same
      · rcases List.mem_map.mp later with ⟨other, member, same⟩
        have whole : other = position :: path := nextPath_injective same
        rw [← whole]
        exact member
    · intro member
      exact Or.inr (List.mem_map_of_mem member)

theorem nodup_paths (firstNodup : (first.map Prod.fst).Nodup)
    (restNodup : (rest.map Prod.fst).Nodup) :
    ((inFirst first ++ inRest rest).map Prod.fst).Nodup := by
  rw [List.map_append, map_fst_inFirst, map_fst_inRest, List.nodup_append]
  refine ⟨firstNodup.map (List.cons_injective), restNodup.map nextPath_injective, ?_⟩
  intro _ leftMember _ rightMember same
  rcases List.mem_map.mp leftMember with ⟨_, _, rfl⟩
  rcases List.mem_map.mp rightMember with ⟨other, member, rfl⟩
  rcases other with _ | ⟨_, other⟩
  · rcases List.mem_map.mp member with ⟨entry, inside, empty⟩
    exact inner entry inside empty
  · cases same

end

end

section

variable {Principal Identity : Type} (deserializer : IdentityDeserializer Principal Identity)
  (identities : List Principal)

/-- A signature serves the principal that a leaf names. -/
def LeafServed (leaf : Path → Option Int32) (path : Path) (sd : SignedData) : Prop :=
  ∃ index signedByID, leaf path = some index ∧ identities[index.toInt.toNat]? = some signedByID ∧
      serves deserializer signedByID sd = true

/--
Leaves are assigned positions of signatures that were free before and are taken
afterwards; nothing that was taken becomes free.
-/
structure Assigned (leaf : Path → Option Int32) (signedData : List SignedData)
    (before after : List Bool) (assigned : List (Path × Nat)) : Prop where
  paths : (assigned.map Prod.fst).Nodup
  positions : (assigned.map Prod.snd).Nodup
  served : ∀ entry ∈ assigned, ∃ sd, signedData[entry.2]? = some sd ∧
      LeafServed deserializer identities leaf entry.1 sd
  free : ∀ entry ∈ assigned, before[entry.2]? = some false
  taken : ∀ entry ∈ assigned, after[entry.2]? = some true
  kept : ∀ position : Nat, before[position]? = some true → after[position]? = some true
  length : after.length = before.length

variable {deserializer identities} {leaf : Path → Option Int32} {signedData : List SignedData}

theorem Assigned.none (used : List Bool) :
    Assigned deserializer identities leaf signedData used used [] :=
  ⟨List.nodup_nil, List.nodup_nil, by nofun, by nofun, by nofun, fun _ taken => taken, rfl⟩

theorem evaluateSignedBy_eq_true {signedByID : Principal} {before after : List Bool}
    (accepted : evaluateSignedBy deserializer signedByID signedData before = (true, after)) :
    ∃ position sd, signedData[position]? = some sd ∧ serves deserializer signedByID sd = true ∧
      before[position]? = some false ∧ after = before.set position true := by
  rw [evaluateSignedBy] at accepted
  split at accepted
  next entry found =>
    cases accepted
    have suited := List.find?_some found
    rw [Bool.and_eq_true, beq_iff_eq] at suited
    have member := List.mem_of_find?_eq_some found
    rw [List.mem_zipIdx_iff_getElem?] at member
    exact ⟨entry.2, entry.1, member, suited.2, suited.1, rfl⟩
  next => cases accepted

theorem Assigned.append {rule : SignaturePolicy} {rest : SignaturePolicies}
    {before middle after : List Bool} {first others : List (Path × Nat)}
    (firstAssigned : Assigned deserializer identities (leafAt rule) signedData before middle first)
    (othersAssigned : Assigned deserializer identities (leafAtRules rest) signedData middle
        after others)
    (inner : ∀ entry ∈ others, entry.1 ≠ []) :
    Assigned deserializer identities (leafAtRules (.cons rule rest))
      signedData before after (inFirst first ++ inRest others) := by
  have positions : (inFirst first ++ inRest others).map Prod.snd =
        first.map Prod.snd ++ others.map Prod.snd := by
    simp [inFirst, inRest, Function.comp_def]
  constructor
  · exact nodup_paths inner firstAssigned.paths othersAssigned.paths
  · rw [positions, List.nodup_append]
    refine ⟨firstAssigned.positions, othersAssigned.positions, ?_⟩
    intro _ leftMember _ rightMember same
    rcases List.mem_map.mp leftMember with ⟨entry, member, rfl⟩
    rcases List.mem_map.mp rightMember with ⟨other, otherMember, rfl⟩
    have taken := firstAssigned.taken entry member
    rw [same, othersAssigned.free other otherMember] at taken
    cases taken
  · intro entry member
    rcases List.mem_append.mp member with inside | later
    · rcases List.mem_map.mp inside with ⟨original, there, rfl⟩
      rcases firstAssigned.served original there with ⟨sd, here, served⟩
      exact ⟨sd, here, served⟩
    · rcases List.mem_map.mp later with ⟨original, there, rfl⟩
      rcases othersAssigned.served original there with ⟨sd, here, served⟩
      refine ⟨sd, here, ?_⟩
      rcases path : original.1 with _ | ⟨position, path⟩
      · exact absurd path (inner original there)
      · rw [path] at served
        exact served
  · intro entry member
    rcases List.mem_append.mp member with inside | later
    · rcases List.mem_map.mp inside with ⟨original, there, rfl⟩
      exact firstAssigned.free original there
    · rcases List.mem_map.mp later with ⟨original, there, rfl⟩
      have free := othersAssigned.free original there
      show before[original.2]? = some false
      rcases value : before[original.2]? with _ | _ | _
      · rw [List.getElem?_eq_none_iff, ← firstAssigned.length] at value
        exact absurd (List.getElem?_eq_some_iff.mp free).1 (Nat.not_lt.mpr value)
      · rfl
      · rw [firstAssigned.kept _ value] at free
        cases free
  · intro entry member
    rcases List.mem_append.mp member with inside | later
    · rcases List.mem_map.mp inside with ⟨original, there, rfl⟩
      exact othersAssigned.kept _ (firstAssigned.taken original there)
    · rcases List.mem_map.mp later with ⟨original, there, rfl⟩
      exact othersAssigned.taken original there
  · intro position taken
    exact othersAssigned.kept position (firstAssigned.kept position taken)
  · rw [othersAssigned.length, firstAssigned.length]

variable {state : Int32 × List Bool} {policy : Evaluator} {used : List Bool}

theorem tryRule_of_true (outcome : policy signedData state.2 = (true, used)) :
    tryRule signedData state policy = (state.1 + 1, used) := by
  rw [tryRule, outcome]

theorem tryRule_of_false (outcome : policy signedData state.2 = (false, used)) :
    tryRule signedData state policy = state := by
  rw [tryRule, outcome]

theorem toInt_succ_le (verified : Int32) : (verified + 1).toInt ≤ verified.toInt + 1 := by
  rw [Int32.toInt_add]
  have bounded := verified.toInt_lt
  have least := verified.le_toInt
  simp only [Int32.toInt_one]
  rw [Int.bmod_def]
  omega

mutual

/-- A policy that accepts has assigned signatures to leaves that satisfy it. -/
theorem exists_assigned :
    ∀ (policy : SignaturePolicy) {evaluator : Evaluator} {before after : List Bool},
      compile deserializer identities policy = .ok evaluator →
        evaluator signedData before = (true, after) →
        ∃ assigned, Assigned deserializer identities (leafAt policy) signedData before
              after assigned ∧
            holds (chosenBy assigned) policy = true
  | .absent, _, _, _, compiled, _ => by cases compiled
  | .unset, _, _, _, compiled, _ => by cases compiled
  | .signedBy index, evaluator, before, after, compiled, accepted => by
    rw [compile] at compiled
    split_ifs at compiled
    split at compiled
    next signedByID found =>
      cases compiled
      rcases evaluateSignedBy_eq_true accepted with ⟨position, sd, here, served, free, rfl⟩
      refine ⟨[([], position)], ?_, by simp [holds, chosenBy]⟩
      have inside := (List.getElem?_eq_some_iff.mp free).1
      constructor
      · exact List.nodup_singleton _
      · exact List.nodup_singleton _
      · rintro entry member
        cases List.mem_singleton.mp member
        exact ⟨sd, here, index, signedByID, rfl, found, served⟩
      · rintro entry member
        cases List.mem_singleton.mp member
        exact free
      · rintro entry member
        cases List.mem_singleton.mp member
        exact List.getElem?_set_self inside
      · intro other taken
        by_cases same : position = other
        · subst same
          exact List.getElem?_set_self inside
        · rw [List.getElem?_set_ne same]
          exact taken
      · exact List.length_set
    next => cases compiled
  | .nOutOf _ rules, evaluator, before, after, compiled, accepted => by
    rw [compile, Outcome.bind_ok_iff] at compiled
    rcases compiled with ⟨_, compiled, same⟩
    cases same
    rw [evaluateNOutOf, Prod.mk.injEq, decide_eq_true_eq] at accepted
    rcases accepted with ⟨enough, rfl⟩
    rcases exists_assigned_rules rules (0, before) compiled with ⟨assigned, given, verified⟩
    refine ⟨assigned, ?_, ?_⟩
    · exact given
    · rw [holds, decide_eq_true_eq]
      rw [Int32.le_iff_toInt_le] at enough
      simp only [Int32.toInt_zero] at verified
      omega

theorem exists_assigned_rules :
    ∀ (rules : SignaturePolicies) {policies : List Evaluator} (state : Int32 × List Bool),
      compileRules deserializer identities rules = .ok policies → ∃ assigned,
          Assigned deserializer identities (leafAtRules rules) signedData
              state.2 (policies.foldl (tryRule signedData) state).2
              assigned ∧
            (policies.foldl (tryRule signedData) state).1.toInt ≤
              state.1.toInt + holdsCount (chosenBy assigned) rules
  | .nil, policies, state, compiled => by
    cases compiled
    exact ⟨[], Assigned.none state.2, by simp [holdsCount]⟩
  | .cons rule rest, policies, state, compiled => by
    simp only [compileRules, Outcome.bind_ok_iff] at compiled
    rcases compiled with ⟨first, compiledRule, _, compiledRest, same⟩
    cases same
    rw [List.foldl_cons]
    rcases exists_assigned_rules rest (tryRule signedData state first) compiledRest with
      ⟨assignedRest, givenRest, verified⟩
    have inner : ∀ entry ∈ assignedRest, entry.1 ≠ [] := by
      intro entry member
      rcases givenRest.served entry member with ⟨_, _, _, _, found, _⟩
      intro empty
      rw [empty] at found
      cases rest <;> cases found
    rcases outcome : first signedData state.2 with ⟨accepts, _⟩
    cases accepts with
    | false =>
      rw [tryRule_of_false outcome] at givenRest verified ⊢
      refine ⟨inFirst [] ++ inRest assignedRest, (Assigned.none state.2).append givenRest inner, ?_⟩
      rw [holdsCount, chosenBy_rest inner]
      omega
    | true =>
      rw [tryRule_of_true outcome] at givenRest verified ⊢
      rcases exists_assigned rule compiledRule outcome with ⟨assignedRule, givenRule, holdsRule⟩
      refine ⟨inFirst assignedRule ++ inRest assignedRest, givenRule.append givenRest inner, ?_⟩
      have shown : holds (fun path =>
                chosenBy (inFirst assignedRule ++ inRest assignedRest) (0 :: path)) rule =
            true := by
        simp only [chosenBy_first inner]
        exact holdsRule
      have counted := toInt_succ_le state.1
      rw [holdsCount, chosenBy_rest inner, shown, Bool.toNat_true]
      push_cast
      dsimp only at verified ⊢
      omega

end

theorem LeafServed.deserialized {leaf : Path → Option Int32} {path : Path} {sd : SignedData}
    (served : LeafServed deserializer identities leaf path sd) :
    (deserializer.deserializeIdentity sd.identity).isSome = true := by
  rcases served with ⟨_, _, _, _, accepted⟩
  rw [serves] at accepted
  split at accepted
  next => cases accepted
  next _ found => rw [found, Option.isSome_some]

end

namespace Sample

/--
Principals and identities are bytes; a principal is served by larger ones.  As
in a PEM file, what follows the identity is not read.
-/
def deserializer : IdentityDeserializer UInt8 UInt8 where
  deserializeIdentity identity := identity.bytes.head?
  satisfiesPrincipal identity signedByID := decide (signedByID ≤ identity)
  verify _ _ signature := signature.isSome

def signed (identity : UInt8) : SignedData :=
  ⟨[], some [identity], some []⟩

/-- Both of two principals have to sign. -/
def both : SignaturePolicy :=
  .nOutOf 2 (.cons (.signedBy 0) (.cons (.signedBy 1) .nil))

/-- The evaluator of the policy, for a member and an administrator. -/
def evaluator : Evaluator :=
  evaluateNOutOf 2 [evaluateSignedBy deserializer 1, evaluateSignedBy deserializer 2]

end Sample

end Fabric.Policies.Cauthdsl
