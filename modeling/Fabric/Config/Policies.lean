import Fabric.ConfigTx.Tree

/-!
# Policy managers

The policies of a channel are kept in a tree of managers, one for each group of
the configuration.  A proposal collects the policies of a group beside the
current ones; committing it makes the policies of the groups below available
under their relative names and resolves the policies that are defined in terms
of policies below.  Absolute names are resolved by the manager at the root.

The compiler of signature policies is a parameter.
-/

namespace Fabric.Config.Policies

open Library ByteString Protos ConfigTx.Tree

/-! ## Policies -/

/-- How many of the policies below have to be satisfied. -/
inductive Rule where
  | any
  | all
  | majority
  | other
deriving DecidableEq

/-- A policy that counts the policies of one name in the groups below. -/
structure ImplicitMetaPolicy where
  subPolicy : GoString
  rule : Rule
deriving DecidableEq

/--
A compiled signature policy: whether it names a principal, and whether signatures
are sufficient, given the providers of the channel.
-/
structure Evaluator (MSP : Type) where
  namesPrincipal : Bool
  accepts : Option (List (GoString × MSP)) → List SignedData → Bool

/--
A principal is compared with the identity of each signature, which is read by the
manager of the providers.  A channel without providers has a nil manager.
-/
def Evaluator.panics {MSP : Type} (msps : Option (List (GoString × MSP)))
    (signatureSet : List SignedData) (evaluator : Evaluator MSP) : Bool :=
  evaluator.namesPrincipal && msps.isNone && !signatureSet.isEmpty

/-- How policies are made from the bytes of a configuration. -/
structure Providers (MSP : Type) where
  newPolicy : Bytes → Option (Evaluator MSP)
  unmarshalImplicitMetaPolicy : Bytes → Option ImplicitMetaPolicy

/-- A policy as the configuration defines it. -/
inductive Definition (MSP : Type) where
  | signature (evaluator : Evaluator MSP)
  | implicitMeta (conf : ImplicitMetaPolicy)

/-- A policy that can be evaluated. -/
inductive Policy (MSP : Type) where
  | reject
  | signature (evaluator : Evaluator MSP)
  | implicitMeta (conf : ImplicitMetaPolicy) (threshold : Int)
      (subPolicies : List (Policy MSP))

/-- Count down from a threshold; zero may be passed and left behind. -/
def reaches (remaining : Int) : List Bool → Bool
  | [] => remaining = 0
  | true :: rest => remaining - 1 = 0 || reaches (remaining - 1) rest
  | false :: rest => reaches remaining rest

mutual

/-- The verdict of a policy whose evaluation does not panic. -/
def Policy.evaluate {MSP : Type} (msps : Option (List (GoString × MSP)))
    (signatureSet : List SignedData) : Policy MSP → Bool
  | .reject => false
  | .signature evaluator => evaluator.accepts msps signatureSet
  | .implicitMeta _ threshold subPolicies =>
    reaches threshold (evaluateAll msps signatureSet subPolicies)

def evaluateAll {MSP : Type} (msps : Option (List (GoString × MSP)))
    (signatureSet : List SignedData) : List (Policy MSP) → List Bool
  | [] => []
  | policy :: rest => policy.evaluate msps signatureSet :: evaluateAll msps signatureSet rest

end

mutual

/-- The evaluation of a policy panics. -/
def Policy.panics {MSP : Type} (msps : Option (List (GoString × MSP)))
    (signatureSet : List SignedData) : Policy MSP → Bool
  | .reject => false
  | .signature evaluator => evaluator.panics msps signatureSet
  | .implicitMeta _ threshold subPolicies => panicsBefore msps signatureSet threshold subPolicies

/-- A policy that is evaluated before the threshold is reached panics. -/
def panicsBefore {MSP : Type} (msps : Option (List (GoString × MSP)))
    (signatureSet : List SignedData) (remaining : Int) : List (Policy MSP) → Bool
  | [] => false
  | policy :: rest =>
    policy.panics msps signatureSet ||
      if policy.evaluate msps signatureSet then
        remaining - 1 ≠ 0 && panicsBefore msps signatureSet (remaining - 1) rest
      else panicsBefore msps signatureSet remaining rest

end

section

variable {MSP : Type} {msps : Option (List (GoString × MSP))} {signatureSet : List SignedData}

mutual

/-- Only on a channel without providers do signatures make a policy panic. -/
theorem Policy.panics_eq_false (harmless : msps ≠ none ∨ signatureSet = []) :
    ∀ policy : Policy MSP, policy.panics msps signatureSet = false
  | .reject => by rw [Policy.panics]
  | .signature evaluator => by
    rw [Policy.panics, Evaluator.panics]
    rcases harmless with some | none
    · simp [some]
    · simp [none]
  | .implicitMeta _ threshold subPolicies => by
    rw [Policy.panics, panicsBefore_eq_false harmless subPolicies]

theorem panicsBefore_eq_false (harmless : msps ≠ none ∨ signatureSet = []) :
    ∀ (policies : List (Policy MSP)) (remaining : Int),
      panicsBefore msps signatureSet remaining policies = false
  | [], _ => by rw [panicsBefore]
  | policy :: rest, remaining => by
    rw [panicsBefore, Policy.panics_eq_false harmless policy,
      panicsBefore_eq_false harmless rest (remaining - 1),
      panicsBefore_eq_false harmless rest remaining]
    simp

end

end

/-- Evaluate a policy; an error means that it is not satisfied. -/
def Policy.run {MSP : Type} (msps : Option (List (GoString × MSP)))
    (signatureSet : List SignedData) (policy : Policy MSP) : Outcome Unit Unit :=
  if policy.panics msps signatureSet then .panic
  else Outcome.require (policy.evaluate msps signatureSet = true) ()

/-- Why a policy is refused. -/
inductive PolicyError where
  | nilPolicy
  | implicitMetaPolicy
  | unknownType (type : Int32)
  | newPolicy
deriving DecidableEq

/-! ## Managers -/

mutual

/-- The policies and the managers in force, and those that are proposed. -/
inductive Manager (MSP : Type) where
  | mk (policies : List (GoString × Policy MSP))
      (managers : List (GoString × Manager MSP))
      (pending : PendingPolicies MSP)

/-- The policies and managers of an open proposal. -/
inductive PendingPolicies (MSP : Type) where
  | none
  | begun (policies : List (GoString × Definition MSP))
      (managers : List (GoString × Manager MSP))

end

section

variable {MSP : Type}

def Manager.policies : Manager MSP → List (GoString × Policy MSP)
  | .mk policies _ _ => policies

def Manager.managers : Manager MSP → List (GoString × Manager MSP)
  | .mk _ managers _ => managers

def Manager.pending : Manager MSP → PendingPolicies MSP
  | .mk _ _ pending => pending

/-- A manager without policies. -/
def newManager : Manager MSP :=
  .mk [] [] .none

/-- The manager on a path. -/
def Manager.manager : List GoString → Manager MSP → Option (Manager MSP)
  | [], manager => some manager
  | key :: path, manager => (manager.managers.lookup key).bind (Manager.manager path)

/-- The names below the root start with the name of the root group. -/
def fqPrefix : Bytes :=
  47 :: rootGroupKey.bytes ++ [47]

/-- The policy of a given name; absolute names are looked up at the root. -/
def Manager.getPolicy (root manager : Manager MSP) (id : GoString) : Option (Policy MSP) :=
  match id.bytes with
  | [] => none
  | 47 :: _ =>
    if fqPrefix.isPrefixOf id.bytes then root.policies.lookup ⟨id.bytes.drop fqPrefix.length⟩
    else none
  | _ => manager.policies.lookup id

/-! ## Proposals -/

/-- Open a proposal, with new managers for the groups below. -/
def Manager.beginPolicyProposals (groups : List GoString) :
    Manager MSP → Outcome PolicyError (Manager MSP)
  | .mk policies managers .none =>
    .ok (.mk policies managers (.begun [] (groups.map fun group => (group, newManager))))
  | .mk _ _ (.begun _ _) => .panic

def policyTypeSignature : Int32 := 1

def policyTypeImplicitMeta : Int32 := 3

/-- Reads a policy. -/
def define (providers : Providers MSP) (configPolicy : Option ConfigPolicy) :
    Outcome PolicyError (Definition MSP) := do
  let configPolicy ← Outcome.deref configPolicy
  let policy ← Outcome.ofOption .nilPolicy configPolicy.policy
  if policy.type = policyTypeImplicitMeta then
    let conf ← Outcome.ofOption .implicitMetaPolicy
        (providers.unmarshalImplicitMetaPolicy policy.value.bytes)
    .ok (.implicitMeta conf)
  else if policy.type = policyTypeSignature then
    let evaluator ← Outcome.ofOption .newPolicy (providers.newPolicy policy.value.bytes)
    .ok (.signature evaluator)
  else
    .error (.unknownType policy.type)

/-- Adds a policy to the proposal. -/
def Manager.proposePolicy (providers : Providers MSP) (key : GoString)
    (configPolicy : Option ConfigPolicy) :
    Manager MSP → Outcome PolicyError (Manager MSP)
  | .mk _ _ .none => .panic
  | .mk policies managers (.begun proposed inner) => do
      let definition ← define providers configPolicy
      .ok (.mk policies managers (.begun ((key, definition) :: proposed) inner))

/-- Drops the proposal. -/
def Manager.rollbackProposals : Manager MSP → Manager MSP
  | .mk policies managers _ => .mk policies managers .none

/-- The number of policies below that have to be satisfied. -/
def ImplicitMetaPolicy.threshold (conf : ImplicitMetaPolicy)
    (subPolicies : List (Policy MSP)) : Int :=
  if subPolicies.isEmpty then 0
  else
    match conf.rule with
    | .any => 1
    | .all => subPolicies.length
    | .majority => subPolicies.length / 2 + 1
    | .other => 0

section

variable (root : Manager MSP) (managers : List (GoString × Manager MSP))

/-- The policy of a definition, given the managers of the groups below. -/
def resolve : Definition MSP → Policy MSP
  | .signature evaluator => .signature evaluator
  | .implicitMeta conf =>
    let subPolicies := managers.map fun entry =>
        (Manager.getPolicy root entry.2 conf.subPolicy).getD .reject
    .implicitMeta conf (conf.threshold subPolicies) subPolicies

/-- The policies of the groups below, under their relative names. -/
def relativePolicies : List (GoString × Policy MSP) :=
  managers.flatMap fun entry =>
    entry.2.policies.map fun policy =>
      (joinPath entry.1 policy.1, (Manager.getPolicy root entry.2 policy.1).getD .reject)

end

/--
Make the proposed policies the current ones.  The manager at the root is the one
before its own proposal is committed.
-/
def Manager.commitProposals (manager root : Manager MSP) : Outcome PolicyError (Manager MSP) :=
  match manager with
  | .mk _ _ .none => .panic
  | .mk _ _ (.begun proposed inner) =>
    .ok (.mk (relativePolicies root inner ++
          proposed.map fun entry => (entry.1, resolve root inner entry.2))
        inner .none)

end

end Fabric.Config.Policies
