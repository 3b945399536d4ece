import Fabric.Config.Policies

/-!
# Policies over the policies of the groups below

An implicit meta policy counts how many of the policies of the groups below
accept a set of signatures.  The rule of the policy says how many are needed.
Evaluation counts down from this threshold to zero and stops there.

The rule is a number that is taken from a message without a check.  A number
outside the enumeration leaves the threshold at zero, and a threshold of zero is
only reached as long as no policy below accepts.
-/

namespace Fabric.Policies.ImplicitMeta

open Library ByteString Protos Config.Policies

/-! ## Messages -/

/-- The message of an implicit meta policy, with any number for the rule. -/
structure Message where
  subPolicy : GoString
  rule : Int32
deriving DecidableEq

def ruleAny : Int32 := 0
def ruleAll : Int32 := 1
def ruleMajority : Int32 := 2

/-- The rule under a number. -/
def ruleOf (rule : Int32) : Rule :=
  if rule = ruleAny then .any
  else if rule = ruleAll then .all
  else if rule = ruleMajority then .majority
  else .other

def Message.conf (message : Message) : ImplicitMetaPolicy :=
  ⟨message.subPolicy, ruleOf message.rule⟩

/-- Every message that can be decoded gives a policy. -/
def newImplicitMetaPolicy (unmarshal : Bytes → Option Message)
    (data : Bytes) : Option ImplicitMetaPolicy :=
  (unmarshal data).map Message.conf

section

variable {MSP : Type}

section

variable (root : Manager MSP) (managers : List (GoString × Manager MSP)) (message : Message)

/-- The policies of the groups below, of which those missing reject. -/
def subPolicies : List (Policy MSP) :=
  managers.map fun entry => (Manager.getPolicy root entry.2 message.subPolicy).getD .reject

/-- The policy of a message, once the managers below are known. -/
def initialized : Policy MSP :=
  resolve root managers (.implicitMeta message.conf)

/-- How many of the policies below accept. -/
def accepting (msps : Option (List (GoString × MSP))) (signatureSet : List SignedData) : Nat :=
  (subPolicies root managers message).countP (Policy.evaluate msps signatureSet)

end

/-! ## Counting down -/

variable (msps : Option (List (GoString × MSP))) (signatureSet : List SignedData)

theorem evaluateAll_eq_map (policies : List (Policy MSP)) :
    evaluateAll msps signatureSet policies = policies.map (Policy.evaluate msps signatureSet) := by
  induction policies with
  | nil => rfl
  | cons _ policies ih => rw [evaluateAll, ih, List.map_cons]

/--
A positive threshold is reached by sufficiently many verdicts.  A threshold of
zero is reached only without any.
-/
theorem reaches_iff (remaining : Int) (verdicts : List Bool) :
    reaches remaining verdicts = true ↔ remaining = 0 ∧ verdicts.count true = 0 ∨
        0 < remaining ∧ remaining ≤ verdicts.count true := by
  induction verdicts generalizing remaining with
  | nil =>
    rw [reaches, List.count_nil, decide_eq_true_iff]
    omega
  | cons verdict verdicts ih =>
    cases verdict with
    | true =>
      rw [reaches, Bool.or_eq_true, decide_eq_true_iff, ih, List.count_cons_self]
      omega
    | false => rw [reaches, ih, List.count_cons_of_ne Bool.false_ne_true]

variable {root : Manager MSP} {managers : List (GoString × Manager MSP)} {message : Message}

theorem length_subPolicies : (subPolicies root managers message).length = managers.length :=
  List.length_map _

/-- Evaluation compares the number of accepting policies to the threshold. -/
theorem evaluate_initialized_iff :
    (initialized root managers message).evaluate msps signatureSet = true ↔
      message.conf.threshold (subPolicies root managers message) = 0 ∧
          accepting root managers message msps signatureSet = 0 ∨
        0 < message.conf.threshold (subPolicies root managers message) ∧
          message.conf.threshold (subPolicies root managers message) ≤
            accepting root managers message msps signatureSet := by
  have counted : ((subPolicies root managers message).map
          (Policy.evaluate msps signatureSet)).count true =
        accepting root managers message msps signatureSet := by
    rw [List.count, List.countP_map, accepting]
    congr 1
    funext policy
    simp
  rw [initialized, resolve, Policy.evaluate, evaluateAll_eq_map, reaches_iff]
  change _ = _ ∧ ((subPolicies root managers message).map _).count true = 0 ∨
    _ < _ ∧ _ ≤ (((subPolicies root managers message).map _).count true : Int)
      ↔ _
  rw [counted]
  rfl

/-! ## The specification -/

/-- How many policies below are needed, for the rules that are known. -/
def required (rule : Int32) (count : Nat) : Option Nat :=
  if rule = ruleAny then some 1
  else if rule = ruleAll then some count
  else if rule = ruleMajority then some (count / 2 + 1)
  else none

section

variable (root : Manager MSP) (managers : List (GoString × Manager MSP)) (message : Message)

/-- The policy of a message counts the accepting policies below. -/
structure Counts : Prop where
  threshold : ∀ needed, required message.rule managers.length = some needed → ∀ msps signatureSet,
        (initialized root managers message).evaluate msps signatureSet = true ↔
          needed ≤ accepting root managers message msps signatureSet
  empty : managers = [] → ∀ msps signatureSet,
        (initialized root managers message).evaluate msps signatureSet = true ↔
          message.rule = ruleAll
  superset : required message.rule managers.length = none →
      ∀ msps (smaller larger : List SignedData), smaller ⊆ larger →
        (∀ policy ∈ subPolicies root managers message, policy.evaluate msps smaller = true →
            policy.evaluate msps larger = true) →
        (initialized root managers message).evaluate msps smaller = true →
          (initialized root managers message).evaluate msps larger = true
  order : ∀ others : List (GoString × Manager MSP), others.Perm managers → ∀ msps signatureSet,
        (initialized root others message).evaluate msps signatureSet =
          (initialized root managers message).evaluate msps signatureSet

/--
With the groups in hand, either all policies are needed, or there are groups and
the rule is known, or no policy below accepts more signatures when none accepts
fewer.
-/
def Countable : Prop :=
  message.rule = ruleAll ∨ managers ≠ [] ∧ (message.rule = ruleAny ∨ message.rule = ruleMajority ∨
        ∀ msps (smaller larger : List SignedData), smaller ⊆ larger →
          accepting root managers message msps smaller = 0 →
            accepting root managers message msps larger = 0)

end

theorem threshold_eq :
    message.conf.threshold (subPolicies root managers message) =
      if managers = [] then 0
      else ((required message.rule managers.length).getD 0 : Nat) := by
  cases managers with
  | nil => rfl
  | cons _ managers =>
    rw [if_neg (List.cons_ne_nil _ _), ImplicitMetaPolicy.threshold, if_neg (by simp [subPolicies]),
      length_subPolicies, Message.conf, ruleOf, required]
    split_ifs
    · rfl
    · rfl
    · simp
    · rfl

theorem evaluate_of_nil (none : managers = []) :
    (initialized root managers message).evaluate msps signatureSet = true := by
  subst none
  rw [evaluate_initialized_iff]
  exact .inl ⟨rfl, rfl⟩

/-- With an unknown rule the policies below must not accept. -/
theorem evaluate_of_unknown (some : managers ≠ [])
    (unknown : required message.rule managers.length = none) :
    (initialized root managers message).evaluate msps signatureSet = true ↔
      accepting root managers message msps signatureSet = 0 := by
  rw [evaluate_initialized_iff, threshold_eq, if_neg some, unknown]
  simp

theorem required_eq_none_iff {rule : Int32} {count : Nat} :
    required rule count = none ↔ rule ≠ ruleAny ∧ rule ≠ ruleAll ∧ rule ≠ ruleMajority := by
  rw [required]
  split_ifs with any all majority
  · simp [any]
  · simp [all]
  · simp [majority]
  · simp [any, all, majority]

theorem evaluate_perm {others : List (GoString × Manager MSP)} (same : others.Perm managers) :
    (initialized root others message).evaluate msps signatureSet =
      (initialized root managers message).evaluate msps signatureSet := by
  have counted : accepting root others message msps signatureSet =
        accepting root managers message msps signatureSet :=
    (same.map _).countP_eq _
  have threshold : message.conf.threshold (subPolicies root others message) =
        message.conf.threshold (subPolicies root managers message) := by
    rw [threshold_eq, threshold_eq, same.length_eq]
    simp only [← List.length_eq_zero_iff, same.length_eq]
  rw [Bool.eq_iff_iff, evaluate_initialized_iff, evaluate_initialized_iff, counted, threshold]

theorem counts_of_nil (none : managers = []) :
    Counts root managers message ↔ message.rule = ruleAll := by
  constructor
  · intro counts
    exact (counts.empty none Option.none []).mp (evaluate_of_nil _ _ none)
  · intro all
    refine ⟨?_, ?_, ?_, fun _ same _ _ => evaluate_perm _ _ same⟩
    · intro _ known msps signatureSet
      rw [required, all, none] at known
      cases known
      exact ⟨fun _ => Nat.zero_le _, fun _ => evaluate_of_nil _ _ none⟩
    · intro _ msps signatureSet
      exact ⟨fun _ => all, fun _ => evaluate_of_nil _ _ none⟩
    · intro _ msps _ _ _ _ _
      exact evaluate_of_nil _ _ none

theorem counts_of_ne_nil (some : managers ≠ []) :
    Counts root managers message ↔ (required message.rule managers.length = none →
        ∀ msps (smaller larger : List SignedData), smaller ⊆ larger →
          accepting root managers message msps smaller = 0 →
            accepting root managers message msps larger = 0) := by
  constructor
  · intro counts unknown msps smaller larger inside nobody
    have accepts (signatureSet : List SignedData) :
        (initialized root managers message).evaluate msps signatureSet = true ↔
          accepting root managers message msps signatureSet = 0 :=
      evaluate_of_unknown msps signatureSet some unknown
    have rejecting : ∀ policy ∈ subPolicies root managers message,
          policy.evaluate msps smaller = true → policy.evaluate msps larger = true := by
      intro policy member accepted
      exact absurd accepted (List.countP_eq_zero.mp nobody policy member)
    exact (accepts larger).mp (counts.superset unknown msps smaller larger inside rejecting
          ((accepts smaller).mpr nobody))
  · intro stays
    refine ⟨?_, fun none => absurd none some, ?_, fun _ same _ _ => evaluate_perm _ _ same⟩
    · intro needed known msps signatureSet
      have positive : 0 < needed := by
        have groups := List.length_pos_iff.mpr some
        rw [required] at known
        split_ifs at known
        all_goals
          cases known
          omega
      rw [evaluate_initialized_iff, threshold_eq, if_neg some, known]
      simp only [Option.getD_some]
      omega
    · intro unknown msps smaller larger inside _ accepted
      rw [evaluate_of_unknown _ _ some unknown] at accepted ⊢
      exact stays unknown msps smaller larger inside accepted

/--
The policy of a message accepts exactly if sufficiently many policies below
accept, in any order of the groups, if and only if all are needed, or there are
groups and the rule is known, or the policies below never accept more
signatures when none accepts fewer.
-/
theorem implicit_meta_counts_iff :
    Counts root managers message ↔ Countable root managers message := by
  by_cases groups : managers = []
  · rw [counts_of_nil groups, Countable]
    simp [groups]
  · rw [counts_of_ne_nil groups, required_eq_none_iff, Countable]
    constructor
    · intro stays
      by_cases all : message.rule = ruleAll
      · exact .inl all
      · by_cases any : message.rule = ruleAny
        · exact .inr ⟨groups, .inl any⟩
        · by_cases majority : message.rule = ruleMajority
          · exact .inr ⟨groups, .inr (.inl majority)⟩
          · exact .inr ⟨groups, .inr (.inr (stays ⟨any, all, majority⟩))⟩
    · rintro (all | ⟨_, any | majority | stays⟩) ⟨notAny, notAll, notMajority⟩
      · exact absurd all notAll
      · exact absurd any notAny
      · exact absurd majority notMajority
      · exact stays

end

/-! ## A rule outside the enumeration -/

namespace Sample

/-- A policy that is satisfied by any signature. -/
def signed : Policy Unit :=
  .signature ⟨true, fun _ signatureSet => !signatureSet.isEmpty⟩

/-- A group with the policy under the name `W`. -/
def group : Manager Unit :=
  .mk [(.letter 'W', signed)] [] .none

/-- A rule that is not known. -/
def message : Message :=
  ⟨.letter 'W', 3⟩

def signature : SignedData :=
  ⟨[], none, none⟩

end Sample

open Sample in
/-- With an unknown rule, a policy accepts nothing but rejects a signature. -/
theorem unknown_rule_rejects_superset :
    newImplicitMetaPolicy (fun _ => some message) [] = some message.conf ∧
      (initialized group [(.letter 'O', group)] message).evaluate (some []) [] = true ∧
      (initialized group [(.letter 'O', group)] message).evaluate (some []) [signature] =
        false := by
  decide +kernel

end Fabric.Policies.ImplicitMeta
