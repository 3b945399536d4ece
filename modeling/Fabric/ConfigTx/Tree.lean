import Fabric.Protos
import Mathlib.Algebra.Order.BigOperators.Group.List
import Mathlib.Algebra.Order.Ring.Nat

/-!
# Configuration trees and maps

The configuration of a channel is a tree of groups, values and policies.  To
compare two configurations, the tree is flattened into a map from path names
to elements; an updated map is turned back into a tree.

Keys are validated while a tree is flattened.  A group that is rebuilt from a
map takes its keys from groups that were flattened before, so that it can be
flattened again.
-/

namespace Fabric.ConfigTx.Tree

open Std (ExtTreeMap)
open Library Outcome ByteString Protos

/-! ## Keys -/

/-- Why a key is refused. -/
inductive ConfigIDError where
  | empty
  | tooLong
  | illegalName
  | illegalCharacters
deriving DecidableEq

/-- The characters `[a-zA-Z0-9.-]`. -/
def configAllowedChars (character : UInt8) : Bool :=
  (97 ≤ character && character ≤ 122) || (65 ≤ character && character ≤ 90) ||
    (48 ≤ character && character ≤ 57) ||
    character == 46 || character == 45

/-- The longest name. -/
def maxLength : Nat := 249

/-- The names `.` and `..`. -/
def illegalNames : List GoString := [⟨[46]⟩, ⟨[46, 46]⟩]

/-- The leftmost longest run of allowed characters. -/
def findString (allowed : UInt8 → Bool) (text : Bytes) : Bytes :=
  (text.dropWhile fun character => !allowed character).takeWhile allowed

/-- Checks the name of an element. -/
def validateConfigID (configID : GoString) : Outcome ConfigIDError Unit := do
  require (configID.bytes ≠ []) .empty
  require (configID.bytes.length ≤ maxLength) .tooLong
  require (configID ∉ illegalNames) .illegalName
  require ((findString configAllowedChars configID.bytes).length = configID.bytes.length)
    .illegalCharacters

/-! ## Elements of a configuration -/

/-- What an entry of a configuration map points to. -/
inductive Element where
  | group (group : ConfigGroup)
  | value (value : ConfigValue)
  | policy (policy : ConfigPolicy)
  | absent

/-- An element of a tree, with its key and the path to it. -/
structure Comparable where
  key : GoString
  path : List GoString
  element : Element

/-- The version of the element. -/
def Comparable.version (cg : Comparable) : UInt64 :=
  match cg.element with
  | .group group => group.version
  | .value value => value.version
  | .policy policy => policy.version
  | .absent => 0

/-- The name of the policy over the element. -/
def Comparable.modPolicy (cg : Comparable) : GoString :=
  match cg.element with
  | .group group => group.modPolicy
  | .value value => value.modPolicy
  | .policy policy => policy.modPolicy
  | .absent => .empty

/-- Elements by qualified name. -/
abbrev ConfigMap := ExtTreeMap GoString Comparable

/-- Why a tree or a map is refused. -/
inductive ConfigMapError where
  | illegalKey (pathPrefix : GoString)
  | missingGroup (path : GoString)
  | notAGroup (path : GoString)
  | missingValue (path : GoString)
  | notAValue (path : GoString)
  | missingPolicy (path : GoString)
  | notAPolicy (path : GoString)
deriving DecidableEq

def rootGroupKey : GoString := .ascii "Channel"

def groupPrefix : GoString := .ascii "[Groups] "

def valuePrefix : GoString := .ascii "[Values] "

def policyPrefix : GoString := .ascii "[Policy] "

/-- The prefix of the name of an element; nil pointers have none. -/
def Element.pathPrefix : Element → GoString
  | .group _ => groupPrefix
  | .value _ => valuePrefix
  | .policy _ => policyPrefix
  | .absent => .empty

/-- Add a key to the name of a group, after a separator. -/
def joinPath (path key : GoString) : GoString :=
  ⟨path.bytes ++ 47 :: key.bytes⟩

/-- Put the prefix of a kind of element before a path name. -/
def qualify (pathPrefix path : GoString) : GoString :=
  ⟨pathPrefix.bytes ++ path.bytes⟩

/-- The qualified name. -/
def Comparable.fqPath (cg : Comparable) : GoString :=
  qualify cg.element.pathPrefix (joinPath (cg.path.foldl joinPath .empty) cg.key)

/-! ## Flattening a tree -/

/-- Adds one element under its qualified name. -/
def addToMap (cg : Comparable) (result : ConfigMap) : Outcome ConfigMapError ConfigMap := do
  (validateConfigID cg.key).mapError fun _ => .illegalKey cg.element.pathPrefix
  .ok (result.insert cg.fqPath cg)

def addAllToMap (result : ConfigMap) (elements : List Comparable) :
    Outcome ConfigMapError ConfigMap :=
  elements.foldlM (fun result cg => addToMap cg result) result

/-- The values of a group as elements. -/
def valueElements (path : List GoString) (group : ConfigGroup) : List Comparable :=
  group.values.map fun entry => ⟨entry.1, path, entry.2.elim .absent .value⟩

/-- The policies of a group as elements. -/
def policyElements (path : List GoString) (group : ConfigGroup) : List Comparable :=
  group.policies.map fun entry => ⟨entry.1, path, entry.2.elim .absent .policy⟩

mutual

/-- Add a group with its key and path, and everything in it. -/
def recurseConfig (result : ConfigMap) (path : List GoString) (key : GoString) :
    ConfigGroup → Outcome ConfigMapError ConfigMap
  | group@(.mk _ groups _ _ _) => do
      let added ← addToMap ⟨key, path, .group group⟩ result
      let withGroups ← recurseGroups added (path ++ [key]) groups
      let withValues ← addAllToMap withGroups (valueElements (path ++ [key]) group)
      addAllToMap withValues (policyElements (path ++ [key]) group)

/-- Add the groups of a group; a nil group is dereferenced. -/
def recurseGroups (result : ConfigMap) (path : List GoString) :
    ConfigGroups → Outcome ConfigMapError ConfigMap
  | .nil => .ok result
  | .absent key _ => do
      let _ ← addToMap ⟨key, path, .absent⟩ result
      .panic
  | .present key group rest => do
      let added ← recurseConfig result path key group
      recurseGroups added path rest

end

/-- The elements of a tree by qualified name. -/
def mapConfig : Option ConfigGroup → Outcome ConfigMapError ConfigMap
  | none => .ok ∅
  | some group => recurseConfig ∅ [] rootGroupKey group

/-! ## Rebuilding a tree -/

/-- Look up the groups of a group, whatever the group itself holds. -/
def rebuildGroups (rebuild : GoString → Outcome ConfigMapError ConfigGroup)
    (path : GoString) : ConfigGroups → Outcome ConfigMapError ConfigGroups
  | .nil => .ok .nil
  | .absent key rest
  | .present key _ rest => do
      let updatedGroup ← rebuild (joinPath path key)
      let others ← rebuildGroups rebuild path rest
      .ok (.present key updatedGroup others)

/-- Finds a value again. -/
def rebuildValue (configMap : ConfigMap) (path key : GoString) :
    Outcome ConfigMapError ConfigValue :=
  let valuePath := qualify valuePrefix (joinPath path key)
  match configMap[valuePath]? with
  | none => .error (.missingValue valuePath)
  | some ⟨_, _, .value value⟩ => .ok value
  | some _ => .error (.notAValue valuePath)

/-- Finds a policy again. -/
def rebuildPolicy (configMap : ConfigMap) (path key : GoString) :
    Outcome ConfigMapError ConfigPolicy :=
  let policyPath := qualify policyPrefix (joinPath path key)
  match configMap[policyPath]? with
  | none => .error (.missingPolicy policyPath)
  | some ⟨_, _, .policy policy⟩ => .ok policy
  | some _ => .error (.notAPolicy policyPath)

/-- Look up the entries of a map of a group one after another. -/
def rebuildEntries {Message : Type} (rebuild : GoString → Outcome ConfigMapError Message) :
    Entries Message → Outcome ConfigMapError (Entries Message)
  | [] => .ok []
  | (key, _) :: rest => do
      let updated ← rebuild key
      let others ← rebuildEntries rebuild rest
      .ok ((key, some updated) :: others)

/-- Rebuild a group, with a way to rebuild the groups in it. -/
def rebuildGroup (configMap : ConfigMap) (rebuild : GoString → Outcome ConfigMapError ConfigGroup)
    (path : GoString) : Outcome ConfigMapError ConfigGroup :=
  let groupPath := qualify groupPrefix path
  match configMap[groupPath]? with
  | none => .error (.missingGroup groupPath)
  | some ⟨_, _, .group group⟩ => do
      let groups ← rebuildGroups rebuild path group.groups
      let values ← rebuildEntries (rebuildValue configMap path) group.values
      let policies ← rebuildEntries (rebuildPolicy configMap path) group.policies
      .ok (.mk group.version groups values policies group.modPolicy)
  | some _ => .error (.notAGroup groupPath)

/--
Rebuild the group at a path.  Path names grow along the recursion, so that it
stops when they are longer than every name in the map.
-/
def recurseConfigMap (configMap : ConfigMap) : Nat → GoString → Outcome ConfigMapError ConfigGroup
  | 0, path => .error (.missingGroup (qualify groupPrefix path))
  | fuel + 1, path => rebuildGroup configMap (recurseConfigMap configMap fuel) path

/-- A length that no name in the map reaches. -/
def nameBound (configMap : ConfigMap) : Nat :=
  (configMap.keys.map fun name => name.bytes.length).sum + 1

/-- The tree of a map. -/
def configMapToConfig (configMap : ConfigMap) : Outcome ConfigMapError ConfigGroup :=
  recurseConfigMap configMap (nameBound configMap) (joinPath .empty rootGroupKey)

/-! ## Comparing trees -/

/-- Equality of byte fields; an empty field is as good as nil. -/
def bytesEqual (left right : Slice) : Bool :=
  left.bytes == right.bytes

/-- Equality of message fields, which may be nil. -/
def messageEqual {Message : Type} (equal : Message → Message → Bool) :
    Option Message → Option Message → Bool
  | none, none => true
  | some left, some right => equal left right
  | _, _ => false

def commonPolicyEqual (left right : CommonPolicy) : Bool :=
  left.type == right.type && bytesEqual left.value right.value

def configValueEqual (left right : ConfigValue) : Bool :=
  left.version == right.version && bytesEqual left.value right.value &&
    left.modPolicy == right.modPolicy

def configPolicyEqual (left right : ConfigPolicy) : Bool :=
  left.version == right.version && messageEqual commonPolicyEqual left.policy right.policy &&
    left.modPolicy == right.modPolicy

/-- Equality of maps whose entries are in the order of the keys. -/
def entriesEqual {Message : Type} (equal : Message → Message → Bool) :
    Entries Message → Entries Message → Bool
  | [], [] => true
  | (leftKey, left) :: lefts, (rightKey, right) :: rights =>
    leftKey == rightKey && messageEqual equal left right && entriesEqual equal lefts rights
  | _, _ => false

mutual

/-- The equality of messages of the protobuf runtime, for groups. -/
def configGroupEqual : ConfigGroup → ConfigGroup → Bool
  | .mk leftVersion leftGroups leftValues leftPolicies leftModPolicy,
    .mk rightVersion rightGroups rightValues rightPolicies rightModPolicy =>
      leftVersion == rightVersion && configGroupsEqual leftGroups rightGroups &&
        entriesEqual configValueEqual leftValues rightValues &&
        entriesEqual configPolicyEqual leftPolicies rightPolicies &&
        leftModPolicy == rightModPolicy

def configGroupsEqual : ConfigGroups → ConfigGroups → Bool
  | .nil, .nil => true
  | .absent leftKey lefts, .absent rightKey rights =>
    leftKey == rightKey && configGroupsEqual lefts rights
  | .present leftKey left lefts, .present rightKey right rights =>
    leftKey == rightKey && configGroupEqual left right && configGroupsEqual lefts rights
  | _, _ => false

end

/-! ## Trees that can be flattened -/

/-- The name passes its check. -/
def ValidKey (key : GoString) : Prop :=
  validateConfigID key = .ok ()

instance (key : GoString) : Decidable (ValidKey key) :=
  inferInstanceAs (Decidable (_ = _))

def ValidEntries {Message : Type} (entries : Entries Message) : Prop :=
  ∀ entry ∈ entries, ValidKey entry.1

mutual

/-- All keys of the tree are valid and no group is nil. -/
def Mappable : ConfigGroup → Prop
  | .mk _ groups values policies _ =>
    MappableGroups groups ∧ ValidEntries values ∧ ValidEntries policies

def MappableGroups : ConfigGroups → Prop
  | .nil => True
  | .absent _ _ => False
  | .present key group rest => ValidKey key ∧ Mappable group ∧ MappableGroups rest

end

def ValidGroupKeys : ConfigGroups → Prop
  | .nil => True
  | .absent key rest => ValidKey key ∧ ValidGroupKeys rest
  | .present key _ rest => ValidKey key ∧ ValidGroupKeys rest

/-- The keys that a group uses itself are valid. -/
structure ValidKeys (group : ConfigGroup) : Prop where
  groups : ValidGroupKeys group.groups
  values : ValidEntries group.values
  policies : ValidEntries group.policies

/-- Every group in the map has valid names below it. -/
def ValidMap (configMap : ConfigMap) : Prop :=
  ∀ (name : GoString) (cg : Comparable), configMap[name]? = some cg →
    ∀ group, cg.element = .group group → ValidKeys group

variable {configMap result later : ConfigMap} {cg : Comparable}

theorem addToMap_ok_iff :
    addToMap cg result = .ok later ↔ ValidKey cg.key ∧ later = result.insert cg.fqPath cg := by
  simp only [addToMap, bind_ok_iff, mapError_ok_iff, Outcome.ok.injEq, ValidKey]
  constructor
  · rintro ⟨_, valid, rfl⟩
    exact ⟨valid, rfl⟩
  · rintro ⟨valid, rfl⟩
    exact ⟨_, valid, rfl⟩

variable {path : List GoString}

variable {group : ConfigGroup}

theorem forall_valueElements_iff : (∀ cg ∈ valueElements path group, ValidKey cg.key) ↔
      ValidEntries group.values := by
  rw [valueElements, List.forall_mem_map]
  rfl

theorem forall_policyElements_iff : (∀ cg ∈ policyElements path group, ValidKey cg.key) ↔
      ValidEntries group.policies := by
  rw [policyElements, List.forall_mem_map]
  rfl

theorem validKey_rootGroupKey : ValidKey rootGroupKey := by
  decide

/-! ## Rebuilt trees can be flattened -/

variable {rebuild : GoString → Outcome ConfigMapError ConfigGroup} {path : GoString}

theorem mappableGroups_rebuildGroups
    (rebuilt : ∀ {path group}, rebuild path = .ok group → Mappable group) :
    ∀ (groups : ConfigGroups) {later : ConfigGroups}, ValidGroupKeys groups →
        rebuildGroups rebuild path groups = .ok later →
        MappableGroups later
  | .nil, _, _, result => by
    cases result
    trivial
  | .absent _ rest, _, ⟨key, keys⟩, result
  | .present _ _ rest, _, ⟨key, keys⟩, result => by
    simp only [rebuildGroups, bind_ok_iff, Outcome.ok.injEq] at result
    rcases result with ⟨_, first, _, last, rfl⟩
    exact ⟨key, rebuilt first, mappableGroups_rebuildGroups rebuilt rest keys last⟩

variable {Message : Type}

variable {entries later : Entries Message}

theorem keys_rebuildEntries {rebuild : GoString → Outcome ConfigMapError Message}
    (result : rebuildEntries rebuild entries = .ok later) :
    later.map Prod.fst = entries.map Prod.fst := by
  induction entries generalizing later with
  | nil =>
    cases result
    rfl
  | cons _ entries ih =>
    simp only [rebuildEntries, bind_ok_iff, Outcome.ok.injEq] at result
    rcases result with ⟨_, _, _, last, rfl⟩
    simp [ih last]

theorem validEntries_of_keys (keys : later.map Prod.fst = entries.map Prod.fst)
    (valid : ValidEntries entries) : ValidEntries later := by
  intro entry member
  have key : entry.1 ∈ entries.map Prod.fst := by
    rw [← keys]
    exact List.mem_map_of_mem member
  rcases List.mem_map.mp key with ⟨other, otherMember, same⟩
  rw [← same]
  exact valid other otherMember

theorem rebuildGroup_ok (result : rebuildGroup configMap rebuild path = .ok group) :
    ∃ cg source, configMap[qualify groupPrefix path]? = some cg ∧ cg.element = .group source ∧
      group.version = source.version ∧ group.modPolicy = source.modPolicy ∧
      rebuildGroups rebuild path source.groups = .ok group.groups ∧
      rebuildEntries (rebuildValue configMap path) source.values = .ok group.values ∧
      rebuildEntries (rebuildPolicy configMap path) source.policies = .ok group.policies := by
  rw [rebuildGroup] at result
  split at result
  next => cases result
  next _ _ source found =>
    simp only [bind_ok_iff, Outcome.ok.injEq] at result
    rcases result with ⟨groups, groupsRebuilt, values, valuesRebuilt, policies,
        policiesRebuilt, rfl⟩
    exact ⟨_, source, found, rfl, rfl, rfl, groupsRebuilt, valuesRebuilt, policiesRebuilt⟩
  next => cases result

theorem mappable_rebuildGroup (valid : ValidMap configMap)
    (rebuilt : ∀ {path group}, rebuild path = .ok group → Mappable group)
    (result : rebuildGroup configMap rebuild path = .ok group) :
    Mappable group := by
  rcases rebuildGroup_ok result with ⟨_, found, lookup, isGroup, _, _, groups, values, policies⟩
  have keys := valid _ _ lookup found isGroup
  cases group with
  | mk _ _ _ _ _ =>
    exact ⟨mappableGroups_rebuildGroups rebuilt found.groups keys.groups groups,
      validEntries_of_keys (keys_rebuildEntries values) keys.values,
      validEntries_of_keys (keys_rebuildEntries policies) keys.policies⟩

theorem mappable_recurseConfigMap (valid : ValidMap configMap) (fuel : Nat)
    (result : recurseConfigMap configMap fuel path = .ok group) :
    Mappable group := by
  induction fuel generalizing path group with
  | zero => cases result
  | succ fuel ih => exact mappable_rebuildGroup valid ih result

theorem length_lt_nameBound {name : GoString} (found : configMap[name]? = some cg) :
    name.bytes.length < nameBound configMap := by
  have member : name ∈ configMap.keys := by
    rw [ExtTreeMap.mem_keys]
    exact ExtTreeMap.mem_iff_isSome_getElem?.mpr (by simp [found])
  have bound := List.le_sum_of_mem (List.mem_map_of_mem member
        (f := fun name : GoString => name.bytes.length))
  rw [nameBound]
  omega

/-! ## Equal trees -/

theorem keys_of_entriesEqual {equal : Message → Message → Bool}
    {left right : Entries Message} (same : entriesEqual equal left right = true) :
    right.map Prod.fst = left.map Prod.fst := by
  induction left generalizing right with
  | nil =>
    cases right with
    | nil => rfl
    | cons entry right => cases same
  | cons entry left ih =>
    cases right with
    | nil => cases same
    | cons _ right =>
      simp only [entriesEqual, Bool.and_eq_true, beq_iff_eq] at same
      rcases same with ⟨⟨key, _⟩, rest⟩
      simp [key, ih rest]

end Fabric.ConfigTx.Tree
