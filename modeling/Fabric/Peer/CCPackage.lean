import Fabric.Library.ByteString
import Fabric.Library.Outcome

/-!
# Collating the packages of the owners of a chaincode

Each owner endorses a package with the same deployment spec and instantiation
policy; the packages are collated into the one that is installed.  A package is
modelled by what its bytes carry: empty fields are not told from missing ones,
and a list with a nil element has no encoding.
-/

namespace Fabric.Peer.CCPackage

open Library ByteString Outcome

/-! ## Packages -/

/-- A signature of an owner. -/
structure Endorsement where
  endorser : Bytes
  signature : Bytes
deriving DecidableEq

/-- A slice of pointers to endorsements. -/
abbrev Endorsements := Option (List (Option Endorsement))

/-- A package that its owners sign. -/
structure SignedChaincodeDeploymentSpec where
  chaincodeDeploymentSpec : Slice
  instantiationPolicy : Slice
  ownerEndorsements : Endorsements

/-- What the encoding of a message carries. -/
structure Encoded where
  chaincodeDeploymentSpec : Bytes
  instantiationPolicy : Bytes
  ownerEndorsements : List Endorsement
deriving DecidableEq

/-- The envelope of a package, as far as its payload and the data of the payload decode. -/
abbrev Envelope := Option (Option Encoded)

def Encoded.envelope (encoded : Encoded) : Envelope :=
  some (some encoded)

/-- Why a package is refused. -/
inductive PackageError where
  | noPackages
  | payload
  | signedSpec
  | endorsementsNil
  | manyEndorsements
  | endorsementCounts (base other : Nat)
  | deploymentSpecs (base other : Nat)
  | instantiationPolicies (base other : Nat)
  | nilDeploymentSpec
  | nilInstantiationPolicy
  | invalidDeploymentSpec
  | noInstantiationPolicy
  | serialize
  | sign
deriving DecidableEq

def marshalOrPanic (cip : SignedChaincodeDeploymentSpec) : Outcome PackageError Encoded := do
  let endorsements ← deref ((cip.ownerEndorsements.getD []).mapM id)
  .ok ⟨cip.chaincodeDeploymentSpec.bytes, cip.instantiationPolicy.bytes, endorsements⟩

def unmarshalBytes : Bytes → Slice
  | [] => none
  | bytes => some bytes

def unmarshal (encoded : Encoded) : SignedChaincodeDeploymentSpec where
  chaincodeDeploymentSpec := unmarshalBytes encoded.chaincodeDeploymentSpec
  instantiationPolicy := unmarshalBytes encoded.instantiationPolicy
  ownerEndorsements :=
    if encoded.ownerEndorsements = [] then none else some (encoded.ownerEndorsements.map some)

/-- Compares a package with the first. -/
def validateCip (baseCip otherCip : SignedChaincodeDeploymentSpec) :
    Outcome PackageError Unit := do
  require (baseCip.ownerEndorsements.isSome = otherCip.ownerEndorsements.isSome) .endorsementsNil
  let bN := (baseCip.ownerEndorsements.getD []).length
  let oN := (otherCip.ownerEndorsements.getD []).length
  require (bN ≤ 1 ∧ oN ≤ 1) .manyEndorsements
  require (bN = oN) (.endorsementCounts bN oN)
  let base := baseCip.chaincodeDeploymentSpec.bytes
  let other := otherCip.chaincodeDeploymentSpec.bytes
  require (base = other) (.deploymentSpecs base.length other.length)
  let base := baseCip.instantiationPolicy.bytes
  let other := otherCip.instantiationPolicy.bytes
  require (base = other) (.instantiationPolicies base.length other.length)

/-- Packs a deployment with its endorsements. -/
def createSignedCCDepSpec (cdsbytes instpolicybytes : Slice) (endorsements : Endorsements) :
    Outcome PackageError Envelope := do
  require (cdsbytes ≠ none) .nilDeploymentSpec
  require (instpolicybytes ≠ none) .nilInstantiationPolicy
  let encoded ← marshalOrPanic ⟨cdsbytes, instpolicybytes, endorsements⟩
  .ok encoded.envelope

/-! ## Collating -/

/-- The variables of the loop over the packages. -/
structure Collation where
  baseCip : Option SignedChaincodeDeploymentSpec
  endorsementExists : Bool
  endorsements : Endorsements

/-- A round of the loop; the first one has no base yet. -/
def collate (packages : Nat) (state : Collation) (pack : Envelope × Nat) :
    Outcome PackageError Collation := do
  let data ← ofOption .payload pack.1
  let encoded ← ofOption .signedSpec data
  let cip := unmarshal encoded
  let endorsed := cip.ownerEndorsements.getD []
  let state ←
    match state.baseCip with
    | none =>
      let endorsements := if endorsed = [] then state.endorsements
        else some (List.replicate packages none)
      .ok { state with baseCip := some cip, endorsements }
    | some baseCip => do
      validateCip baseCip cip
      .ok state
  if state.endorsementExists then
    let first ← deref endorsed.head?
    let _ ← deref (state.endorsements.getD [])[pack.2]?
    .ok { state with endorsements := state.endorsements.map fun all => all.set pack.2 first }
  else .ok state

/-- Joins the packages of several owners. -/
def createSignedCCDepSpecForInstall (pack : List Envelope) : Outcome PackageError Envelope := do
  require (pack ≠ []) .noPackages
  let state ← pack.zipIdx.foldlM (collate pack.length) ⟨none, false, none⟩
  let baseCip ← deref state.baseCip
  createSignedCCDepSpec baseCip.chaincodeDeploymentSpec baseCip.instantiationPolicy
    state.endorsements

/-! ## The packages of the owners -/

/-- Who signs a package. -/
structure Owner where
  serialize : Option Bytes
  sign : Bytes → Option Bytes

/-- The endorsements that a package starts with; an owner is not mandatory. -/
def endorse (owner : Option Owner) (cdsbytes instpolicybytes : Bytes) :
    Outcome PackageError Endorsements :=
  match owner with
  | none => .ok none
  | some owner => do
    let endorser ← ofOption .serialize owner.serialize
    let signature ← ofOption .sign (owner.sign (cdsbytes ++ (instpolicybytes ++ endorser)))
    .ok (some [some ⟨endorser, signature⟩])

section

variable {Spec Policy : Type} (marshalSpec : Spec → Option Bytes)
  (marshalPolicy : Policy → Option Bytes)

def ownerCreateSignedCCDepSpec (cds : Option Spec) (instPolicy : Option Policy)
    (owner : Option Owner) : Outcome PackageError Envelope := do
  let cds ← ofOption .invalidDeploymentSpec cds
  let instPolicy ← ofOption .noInstantiationPolicy instPolicy
  let cdsbytes ← deref (marshalSpec cds)
  let instpolicybytes ← deref (marshalPolicy instPolicy)
  let endorsements ← endorse owner cdsbytes instpolicybytes
  createSignedCCDepSpec (some cdsbytes) (some instpolicybytes) endorsements

/-- A package that an owner has created. -/
structure Package where
  encoded : Encoded
  created : ∃ cds instPolicy owner,
      ownerCreateSignedCCDepSpec marshalSpec marshalPolicy cds instPolicy owner =
        .ok encoded.envelope

end

/-- The packages have the same spec and policy, and both are endorsed or none is. -/
def Same (base other : Encoded) : Prop :=
  base.chaincodeDeploymentSpec = other.chaincodeDeploymentSpec ∧
    base.instantiationPolicy = other.instantiationPolicy ∧
    (base.ownerEndorsements = [] ↔ other.ownerEndorsements = [])

/-- A call ends as expected when the condition holds, and is refused otherwise. -/
def Settled {Value : Type} (condition : Prop) (call expected : Outcome PackageError Value) : Prop :=
  (condition → call = expected) ∧ (¬ condition → ∃ reason, call = .error reason)

/--
Packages that go together are collated into one with all their endorsements,
others are refused.
-/
def Collates (first : Encoded) (rest : List Encoded) : Prop :=
  Settled (∀ other ∈ rest, Same first other)
    (createSignedCCDepSpecForInstall ((first :: rest).map Encoded.envelope))
    (.ok (Encoded.envelope
      { first with ownerEndorsements := (first :: rest).flatMap Encoded.ownerEndorsements }))

theorem Package.length_le {Spec Policy : Type} {marshalSpec : Spec → Option Bytes}
    {marshalPolicy : Policy → Option Bytes} (package : Package marshalSpec marshalPolicy) :
    package.encoded.ownerEndorsements.length ≤ 1 := by
  rcases package with ⟨encoded, cds, instPolicy, owner, created⟩
  simp only [ownerCreateSignedCCDepSpec, createSignedCCDepSpec, marshalOrPanic, bind_ok_iff,
    deref_ok_iff] at created
  rcases created with
    ⟨_, _, _, _, _, _, _, _, _, given, _, _, _, _, _, ⟨_, all, same⟩, eq⟩
  cases same
  cases eq
  cases owner with
  | none =>
    cases given
    cases all
    exact Nat.zero_le _
  | some owner =>
    simp only [endorse, bind_ok_iff] at given
    rcases given with ⟨_, _, _, _, same⟩
    cases same
    cases all
    exact Nat.le_refl _

@[simp]
theorem bytes_unmarshalBytes (bytes : Bytes) : (unmarshalBytes bytes).bytes = bytes := by
  cases bytes <;> rfl

variable {first other : Encoded} {rest : List Encoded}

theorem endorsements_unmarshal (encoded : Encoded) :
    (unmarshal encoded).ownerEndorsements.getD [] = encoded.ownerEndorsements.map some := by
  rw [unmarshal]
  split
  next none => rw [none]; rfl
  next => rfl

theorem isSome_unmarshal (encoded : Encoded) :
    (unmarshal encoded).ownerEndorsements.isSome = !encoded.ownerEndorsements.isEmpty := by
  rw [unmarshal]
  cases encoded.ownerEndorsements <;> rfl

theorem validateCip_settled (firstOnce : first.ownerEndorsements.length ≤ 1)
    (otherOnce : other.ownerEndorsements.length ≤ 1) :
    Settled (Same first other) (validateCip (unmarshal first) (unmarshal other)) (.ok ()) := by
  simp only [Settled, validateCip, isSome_unmarshal, endorsements_unmarshal, List.length_map, Same]
  simp only [unmarshal, bytes_unmarshalBytes]
  generalize first.ownerEndorsements = given at firstOnce ⊢
  generalize other.ownerEndorsements = more at otherOnce ⊢
  by_cases spec : first.chaincodeDeploymentSpec = other.chaincodeDeploymentSpec <;>
    by_cases policy : first.instantiationPolicy = other.instantiationPolicy <;>
      rcases given with _ | ⟨_, _ | _⟩ <;> rcases more with _ | ⟨_, _ | _⟩ <;>
        simp_all [require]

/-- The rounds after the first change nothing, or refuse. -/
theorem foldlM_collate_settled (packages : Nat) (endorsements : Endorsements)
    (firstOnce : first.ownerEndorsements.length ≤ 1)
    (once : ∀ other ∈ rest, other.ownerEndorsements.length ≤ 1) (n : Nat) :
    Settled (∀ other ∈ rest, Same first other)
      (((rest.map Encoded.envelope).zipIdx n).foldlM (collate packages)
        ⟨some (unmarshal first), false, endorsements⟩)
      (.ok ⟨some (unmarshal first), false, endorsements⟩) := by
  induction rest generalizing n with
  | nil => exact ⟨fun _ => rfl, fun differs => absurd (List.forall_mem_nil _) differs⟩
  | cons other rest ih =>
    rcases List.forall_mem_cons.mp once with ⟨otherOnce, once⟩
    have round : collate packages ⟨some (unmarshal first), false, endorsements⟩
        (other.envelope, n) = (validateCip (unmarshal first) (unmarshal other) >>= fun _ =>
          .ok ⟨some (unmarshal first), false, endorsements⟩) := by
      rw [collate, Encoded.envelope]
      simp [ofOption]
    have check := validateCip_settled firstOnce otherOnce
    rw [List.map_cons, List.zipIdx_cons, List.foldlM_cons, round, List.forall_mem_cons]
    by_cases same : Same first other
    · rw [check.1 same, and_iff_right same]
      exact ih once (n + 1)
    · rcases check.2 same with ⟨reason, failed⟩
      rw [failed]
      exact ⟨fun all => absurd all.1 same, fun _ => ⟨reason, rfl⟩⟩

/-- The slice of the endorsements is never filled. -/
theorem install_settled (once : ∀ package ∈ first :: rest, package.ownerEndorsements.length ≤ 1) :
    Settled (∀ other ∈ rest, Same first other)
      (createSignedCCDepSpecForInstall ((first :: rest).map Encoded.envelope))
      (createSignedCCDepSpec (unmarshalBytes first.chaincodeDeploymentSpec)
        (unmarshalBytes first.instantiationPolicy) (if first.ownerEndorsements = [] then none
          else some (List.replicate (rest.length + 1) none))) := by
  rcases List.forall_mem_cons.mp once with ⟨firstOnce, once⟩
  have round : collate (rest.length + 1) ⟨none, false, none⟩ (first.envelope, 0) =
      .ok ⟨some (unmarshal first), false, if first.ownerEndorsements = [] then none
        else some (List.replicate (rest.length + 1) none)⟩ := by
    simp [collate, Encoded.envelope, ofOption, endorsements_unmarshal]
  rw [createSignedCCDepSpecForInstall, List.map_cons, List.zipIdx_cons, List.foldlM_cons,
    List.length_cons, List.length_map, round]
  generalize (if first.ownerEndorsements = [] then none
    else some (List.replicate (rest.length + 1) none)) = endorsements
  have rounds := foldlM_collate_settled (rest.length + 1) endorsements firstOnce once (0 + 1)
  constructor
  · intro same
    simp only [ok_bind, rounds.1 same]
    rfl
  · intro differs
    rcases rounds.2 differs with ⟨reason, refused⟩
    exists reason
    simp only [ok_bind, refused]
    rfl

theorem createSignedCCDepSpec_ok_iff (spec policy : Bytes) (endorsements : List Endorsement)
    (packages : Nat) (result : Envelope) :
    createSignedCCDepSpec (unmarshalBytes spec) (unmarshalBytes policy)
        (if endorsements = [] then none else some (List.replicate (packages + 1) none)) =
          .ok result ↔
      (endorsements = [] ∧ spec ≠ [] ∧ policy ≠ []) ∧
        result = Encoded.envelope ⟨spec, policy, []⟩ := by
  cases spec <;> cases policy <;> cases endorsements <;>
    simp [createSignedCCDepSpec, unmarshalBytes, marshalOrPanic, require, deref,
      List.replicate_succ, Slice.bytes, eq_comm]

/-- Packages are collated as they should exactly when none is endorsed and no field is empty. -/
theorem createSignedCCDepSpecForInstall_collates_iff {Spec Policy : Type}
    {marshalSpec : Spec → Option Bytes} {marshalPolicy : Policy → Option Bytes}
    (first : Package marshalSpec marshalPolicy) (rest : List (Package marshalSpec marshalPolicy)) :
    Collates first.encoded (rest.map Package.encoded) ↔
      ((∀ other ∈ rest, Same first.encoded other.encoded) →
        first.encoded.ownerEndorsements = [] ∧ first.encoded.chaincodeDeploymentSpec ≠ [] ∧
          first.encoded.instantiationPolicy ≠ []) := by
  have once : ∀ package ∈ first.encoded :: rest.map Package.encoded,
      package.ownerEndorsements.length ≤ 1 := by
    rw [← List.map_cons, List.forall_mem_map]
    intro package _
    exact package.length_le
  rw [← List.forall_mem_map (P := Same first.encoded)]
  have installed := install_settled once
  by_cases same : ∀ other ∈ rest.map Package.encoded, Same first.encoded other
  · rw [imp_iff_right same, Collates, Settled, imp_iff_right same, installed.1 same,
      createSignedCCDepSpec_ok_iff]
    constructor
    · intro collates
      exact collates.1.1
    · intro passes
      have none : (first.encoded :: rest.map Package.encoded).flatMap
          Encoded.ownerEndorsements = [] := by
        rw [List.flatMap_eq_nil_iff]
        intro package mem
        rcases List.mem_cons.mp mem with rfl | mem
        · exact passes.1
        · exact (same package mem).2.2.mp passes.1
      rw [none]
      exact ⟨⟨passes, rfl⟩, fun differs => absurd same differs⟩
  · constructor
    · intro _ all
      exact absurd all same
    · intro _
      exact ⟨fun all => absurd all same, installed.2⟩

/-- The package of an owner who endorses. -/
def Sample.endorsed (endorser : Bytes) : Package (some : Bytes → Option Bytes)
    (some : Bytes → Option Bytes) where
  encoded := ⟨[3], [4], [⟨endorser, [5]⟩]⟩
  created := ⟨some [3], some [4], some ⟨some endorser, fun _ => some [5]⟩, rfl⟩

/-- The packages of two owners who endorse the same chaincode cannot be collated. -/
theorem endorsed_packages_not_collated :
    createSignedCCDepSpecForInstall [(Sample.endorsed [1]).encoded.envelope,
        (Sample.endorsed [2]).encoded.envelope] = .panic ∧
      ¬ Collates (Sample.endorsed [1]).encoded [(Sample.endorsed [2]).encoded] := by
  have panics : createSignedCCDepSpecForInstall [(Sample.endorsed [1]).encoded.envelope,
      (Sample.endorsed [2]).encoded.envelope] = .panic := rfl
  constructor
  · exact panics
  · intro collates
    have done := collates.1 (by simp [Same, Sample.endorsed])
    cases panics.symm.trans done

end Fabric.Peer.CCPackage
