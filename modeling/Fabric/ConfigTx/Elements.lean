import Fabric.ConfigTx.Tree
import Mathlib.Data.List.TakeWhile

/-!
# The elements of a configuration tree

An element of a configuration is found at an address: a group by the keys that
lead to it from the root group, a value or a policy by the group that holds it
and its own key.  Keys contain no separator, so that the name under which a
tree is flattened determines the address.

The flattened map of a tree therefore holds exactly the elements of the tree,
and a tree that is rebuilt from a map shows, at every address, the element that
the map holds under the name of the address.
-/

namespace Fabric.ConfigTx.Elements

open Std (ExtTreeMap)
open Library Outcome ByteString Protos ConfigTx.Tree

/-! ## Keys without separators -/

theorem all_of_length_findString {allowed : UInt8 → Bool} {text : Bytes}
    (same : (findString allowed text).length = text.length) :
    ∀ character ∈ text, allowed character = true := by
  let rest := text.dropWhile fun character => !allowed character
  have prefixRest : findString allowed text <+: rest := List.takeWhile_prefix allowed
  have suffixText : rest <:+ text := List.dropWhile_suffix fun character => !allowed character
  have restText : rest = text := by
    apply suffixText.eq_of_length
    have shorter := prefixRest.length_le
    have longer := suffixText.length_le
    omega
  have sameRest : (findString allowed text).length = rest.length := by
    rw [same, restText]
  have whole : findString allowed text = text := (prefixRest.eq_of_length sameRest).trans restText
  intro character member
  rw [← whole] at member
  exact List.mem_takeWhile_imp member

variable {key : GoString}

theorem separator_not_mem_of_validKey (valid : ValidKey key) : (47 : UInt8) ∉ key.bytes := by
  simp only [ValidKey, validateConfigID, bind_ok_iff, require_ok_iff] at valid
  rcases valid with ⟨_, _, _, _, _, _, allowed⟩
  intro member
  have excluded := all_of_length_findString allowed 47 member
  exact absurd excluded (by decide)

/-! ## Path names -/

def pathName (path : List GoString) : GoString :=
  path.foldl joinPath .empty

theorem pathName_append (path : List GoString) (key : GoString) :
    pathName (path ++ [key]) = joinPath (pathName path) key := by
  simp [pathName]

theorem bytes_foldl_joinPath (path : List GoString) (text : GoString) :
    (path.foldl joinPath text).bytes = text.bytes ++ path.flatMap fun key => 47 :: key.bytes := by
  induction path generalizing text with
  | nil => simp
  | cons key path ih =>
    rw [List.foldl_cons, ih]
    simp [joinPath]

theorem bytes_pathName (path : List GoString) :
    (pathName path).bytes = path.flatMap fun key => 47 :: key.bytes := by
  rw [pathName, bytes_foldl_joinPath]
  rfl

theorem takeWhile_path (valid : (47 : UInt8) ∉ key.bytes) (path : List GoString) :
    (key.bytes ++ path.flatMap fun key => 47 :: key.bytes).takeWhile
        (fun character => character != 47) =
      key.bytes := by
  rw [List.takeWhile_append_of_pos]
  · cases path <;> simp
  · intro character member
    rw [bne_iff_ne]
    rintro rfl
    exact valid member

variable {left right : List GoString}

theorem path_eq_of_flatMap (leftValid : ∀ key ∈ left, (47 : UInt8) ∉ key.bytes)
    (rightValid : ∀ key ∈ right, (47 : UInt8) ∉ key.bytes)
    (same : (left.flatMap fun key => 47 :: key.bytes) = right.flatMap fun key => 47 :: key.bytes) :
    left = right := by
  induction left generalizing right with
  | nil =>
    cases right with
    | nil => rfl
    | cons key right => simp at same
  | cons key left ih =>
    cases right with
    | nil => simp at same
    | cons other right =>
      rw [List.forall_mem_cons] at leftValid rightValid
      simp only [List.flatMap_cons, List.cons_append, List.cons.injEq, true_and] at same
      have first : key.bytes = other.bytes := by
        rw [← takeWhile_path leftValid.1 left, same, takeWhile_path rightValid.1 right]
      rw [first, List.append_cancel_left_eq] at same
      rw [GoString.bytes_injective first, ih leftValid.2 rightValid.2 same]

theorem pathName_injective (leftValid : ∀ key ∈ left, ValidKey key)
    (rightValid : ∀ key ∈ right, ValidKey key) (same : pathName left = pathName right) :
    left = right := by
  apply path_eq_of_flatMap
  · exact fun key member => separator_not_mem_of_validKey (leftValid key member)
  · exact fun key member => separator_not_mem_of_validKey (rightValid key member)
  · rw [← bytes_pathName, ← bytes_pathName, same]

/-! ## Addresses -/

/-- The place of an element below the root group. -/
inductive Address where
  | group (path : List GoString)
  | value (path : List GoString) (key : GoString)
  | policy (path : List GoString) (key : GoString)
deriving DecidableEq

namespace Address

/-- All keys from the root group to the element. -/
def keys : Address → List GoString
  | group path => rootGroupKey :: path
  | value path key
  | policy path key => rootGroupKey :: (path ++ [key])

def pathPrefix : Address → GoString
  | group _ => groupPrefix
  | value _ _ => valuePrefix
  | policy _ _ => policyPrefix

/-- The name under which the element is entered into a map. -/
def name (address : Address) : GoString :=
  qualify address.pathPrefix (pathName address.keys)

/-- The address of the same place, in a group at the end of a path. -/
def below (path : List GoString) : Address → Address
  | group rest => group (path ++ rest)
  | value rest key => value (path ++ rest) key
  | policy rest key => policy (path ++ rest) key

/-- The group that holds the element; the root group is held by none. -/
def container : Address → Option (List GoString)
  | group [] => none
  | group (key :: path) => some ((key :: path).dropLast)
  | value path _ => some path
  | policy path _ => some path

def Valid (address : Address) : Prop :=
  ∀ key ∈ address.keys, ValidKey key

@[simp]
theorem below_nil (address : Address) : address.below [] = address := by
  cases address <;> rfl

theorem below_below (first second : List GoString) (address : Address) :
    (address.below second).below first = address.below (first ++ second) := by
  cases address <;> simp [below]

theorem cases_below (address : Address) :
    address = group [] ∨ (∃ key, address = value [] key) ∨ (∃ key, address = policy [] key) ∨
      ∃ key rest, address = below [key] rest := by
  rcases address with path | ⟨path, key⟩ | ⟨path, key⟩
  · cases path with
    | nil => exact Or.inl rfl
    | cons first path => exact Or.inr (Or.inr (Or.inr ⟨first, group path, rfl⟩))
  · cases path with
    | nil => exact Or.inr (Or.inl ⟨key, rfl⟩)
    | cons first path => exact Or.inr (Or.inr (Or.inr ⟨first, value path key, rfl⟩))
  · cases path with
    | nil => exact Or.inr (Or.inr (Or.inl ⟨key, rfl⟩))
    | cons first path => exact Or.inr (Or.inr (Or.inr ⟨first, policy path key, rfl⟩))

theorem length_pathPrefix (address : Address) : address.pathPrefix.bytes.length = 9 := by
  cases address <;> rfl

theorem name_injective {left right : Address} (leftValid : left.Valid) (rightValid : right.Valid)
    (same : left.name = right.name) : left = right := by
  have bytes : left.pathPrefix.bytes ++ (pathName left.keys).bytes =
        right.pathPrefix.bytes ++ (pathName right.keys).bytes :=
    congrArg GoString.bytes same
  rcases List.append_inj bytes (left.length_pathPrefix.trans right.length_pathPrefix.symm) with
    ⟨_, sameNames⟩
  have sameKeys := pathName_injective leftValid rightValid (GoString.bytes_injective sameNames)
  have different : groupPrefix.bytes ≠ valuePrefix.bytes ∧ groupPrefix.bytes ≠ policyPrefix.bytes ∧
        valuePrefix.bytes ≠ policyPrefix.bytes := by
    decide
  cases left <;> cases right <;> simp_all [keys, pathPrefix]

end Address

/-! ## Looking up elements -/

/-- The groups of a group as the entries of a map. -/
def groupEntries : ConfigGroups → Entries ConfigGroup
  | .nil => []
  | .absent key rest => (key, none) :: groupEntries rest
  | .present key group rest => (key, some group) :: groupEntries rest

def entryKeys {Message : Type} (entries : Entries Message) : List GoString :=
  entries.map Prod.fst

/-- The message with a key; a nil message is none. -/
def findEntry {Message : Type} (key : GoString)
    (entries : Entries Message) : Option Message :=
  (entries.lookup key).join

def groupAt (root : ConfigGroup) : List GoString → Option ConfigGroup
  | [] => some root
  | key :: path => (findEntry key (groupEntries root.groups)).bind fun group => groupAt group path

def elementAt (root : ConfigGroup) : Address → Option Element
  | .group path => (groupAt root path).map .group
  | .value path key => (groupAt root path).bind fun group => (findEntry key group.values).map .value
  | .policy path key =>
    (groupAt root path).bind fun group => (findEntry key group.policies).map .policy

/-- The element at an address as the entry of a map. -/
def Address.comparable (address : Address) (element : Element) : Comparable :=
  ⟨address.keys.getLast (by cases address <;> simp [keys]), address.keys.dropLast, element⟩

mutual

/-- No entry of the tree is nil. -/
def NilFree : ConfigGroup → Prop
  | .mk _ groups values policies _ =>
    NilFreeGroups groups ∧ (∀ entry ∈ values, entry.2 ≠ none) ∧ ∀ entry ∈ policies, entry.2 ≠ none

def NilFreeGroups : ConfigGroups → Prop
  | .nil => True
  | .absent _ _ => False
  | .present _ group rest => NilFree group ∧ NilFreeGroups rest

end

mutual

/-- The entries of the maps of the tree are in the order of their keys. -/
def Ordered : ConfigGroup → Prop
  | .mk _ groups values policies _ =>
    OrderedGroups groups ∧ (entryKeys (groupEntries groups)).Pairwise (· < ·) ∧
      (entryKeys values).Pairwise (· < ·) ∧
      (entryKeys policies).Pairwise (· < ·)

def OrderedGroups : ConfigGroups → Prop
  | .nil => True
  | .absent _ rest => OrderedGroups rest
  | .present _ group rest => Ordered group ∧ OrderedGroups rest

end

/-! ## Lookups and membership -/

section

variable {Message : Type} {entries : Entries Message} {Item : Type} {item : Item}
  {items : List (GoString × Item)}

theorem mem_of_lookup (found : items.lookup key = some item) : (key, item) ∈ items := by
  induction items with
  | nil => cases found
  | cons entry items ih =>
    rcases entry with ⟨_, _⟩
    rw [List.lookup_cons] at found
    split at found
    next same =>
      cases found
      rw [beq_iff_eq.mp same]
      exact List.mem_cons_self
    next => exact List.mem_cons_of_mem _ (ih found)

variable {message : Message}

theorem mem_of_findEntry (found : findEntry key entries = some message) :
    (key, some message) ∈ entries := by
  rw [findEntry, Option.join_eq_some_iff] at found
  exact mem_of_lookup found

theorem lookup_of_mem (ordered : (items.map Prod.fst).Pairwise (· < ·))
    (member : (key, item) ∈ items) : items.lookup key = some item := by
  induction items with
  | nil => cases member
  | cons entry items ih =>
    rcases entry with ⟨_, _⟩
    rw [List.map_cons, List.pairwise_cons] at ordered
    rw [List.lookup_cons]
    rcases List.mem_cons.mp member with same | later
    · cases same
      simp
    · have smaller := ordered.1 key (List.mem_map_of_mem later)
      rw [beq_false_of_ne (ne_of_gt smaller)]
      exact ih ordered.2 later

section

variable (ordered : (entryKeys entries).Pairwise (· < ·))
include ordered

theorem findEntry_of_mem {message : Option Message} (member : (key, message) ∈ entries) :
    findEntry key entries = message := by
  rw [findEntry, lookup_of_mem ordered member, Option.join_some]

theorem findEntry_eq_some_iff :
    findEntry key entries = some message ↔ (key, some message) ∈ entries :=
  ⟨mem_of_findEntry, findEntry_of_mem ordered⟩

theorem findEntry_ne_none_iff (present : ∀ entry ∈ entries, entry.2 ≠ none) :
    findEntry key entries ≠ none ↔ key ∈ entryKeys entries := by
  constructor
  · intro nonempty
    rcases Option.ne_none_iff_exists'.mp nonempty with ⟨message, found⟩
    exact List.mem_map_of_mem (mem_of_findEntry found)
  · intro member
    rcases List.mem_map.mp member with ⟨⟨_, message⟩, found, rfl⟩
    rw [findEntry_of_mem ordered found]
    exact present _ found

end

end

/-- What passes from the groups of a group to the group holds of all groups. -/
theorem groupInduction {motive : ConfigGroup → Prop}
    (step : ∀ group : ConfigGroup,
      (∀ key inner, (key, some inner) ∈ groupEntries group.groups → motive inner) → motive group)
    (group : ConfigGroup) : motive group := by
  refine @ConfigGroup.rec motive (fun groups => ∀ key inner,
      (key, some inner) ∈ groupEntries groups → motive inner) ?_ ?_ ?_ ?_ group
  · exact fun _ _ _ _ _ below => step _ below
  · nofun
  · intro _ _ below key inner member
    rcases List.mem_cons.mp member with same | later
    · cases same
    · exact below key inner later
  · intro _ _ _ holds below key inner member
    rcases List.mem_cons.mp member with same | later
    · cases same
      exact holds
    · exact below key inner later

theorem mappableGroups_iff :
    ∀ {groups : ConfigGroups}, MappableGroups groups ↔ ∀ entry ∈ groupEntries groups,
      ∃ group, entry.2 = some group ∧ ValidKey entry.1 ∧ Mappable group
  | .nil
  | .absent _ _
  | .present _ _ _ => by simp [MappableGroups, groupEntries, mappableGroups_iff, and_assoc]

theorem nilFreeGroups_iff :
    ∀ {groups : ConfigGroups}, NilFreeGroups groups ↔ ∀ entry ∈ groupEntries groups,
      ∃ group, entry.2 = some group ∧ NilFree group
  | .nil
  | .absent _ _
  | .present _ _ _ => by simp [NilFreeGroups, groupEntries, nilFreeGroups_iff]

theorem orderedGroups_iff :
    ∀ {groups : ConfigGroups}, OrderedGroups groups ↔
      ∀ key group, (key, some group) ∈ groupEntries groups → Ordered group
  | .nil
  | .absent _ _
  | .present _ _ _ => by
    simp [OrderedGroups, groupEntries, orderedGroups_iff, or_imp, forall_and]

variable {group : ConfigGroup}

section

variable {groups : ConfigGroups}

theorem present_of_nilFreeGroups (present : NilFreeGroups groups) :
    ∀ entry ∈ groupEntries groups, entry.2 ≠ none := by
  intro entry member
  rcases nilFreeGroups_iff.mp present entry member with ⟨_, same, _⟩
  simp [same]

theorem nilFree_of_mem (present : NilFreeGroups groups)
    (member : (key, some group) ∈ groupEntries groups) : NilFree group := by
  rcases nilFreeGroups_iff.mp present _ member with ⟨_, ⟨⟩, inner⟩
  exact inner

theorem mappable_of_mem (mappable : MappableGroups groups)
    (member : (key, some group) ∈ groupEntries groups) : ValidKey key ∧ Mappable group := by
  rcases mappableGroups_iff.mp mappable _ member with ⟨_, ⟨⟩, inner⟩
  exact inner

end

theorem elementAt_below (root : ConfigGroup) (key : GoString) (address : Address) :
    elementAt root (address.below [key]) =
      (findEntry key (groupEntries root.groups)).bind fun group =>
        elementAt group address := by
  cases address <;> cases found : findEntry key (groupEntries root.groups) <;>
    simp [elementAt, Address.below, groupAt, found]

variable {element : Element} {address : Address} {root : ConfigGroup}

theorem elementAt_eq_some_iff :
    elementAt root address = some element ↔ (address = .group [] ∧ element = .group root) ∨
      (∃ key value, address = .value [] key ∧
        findEntry key root.values = some value ∧ element = .value value) ∨
      (∃ key policy, address = .policy [] key ∧ findEntry key root.policies = some policy ∧
        element = .policy policy) ∨
      ∃ key group rest, address = Address.below [key] rest ∧
        findEntry key (groupEntries root.groups) = some group ∧
        elementAt group rest = some element := by
  constructor
  · intro found
    rcases address.cases_below with
      rfl | ⟨key, rfl⟩ | ⟨key, rfl⟩ | ⟨key, rest, rfl⟩
    · exact Or.inl ⟨rfl, (Option.some.inj found).symm⟩
    · simp only [elementAt, groupAt, Option.bind_some, Option.map_eq_some_iff] at found
      rcases found with ⟨value, member, rfl⟩
      exact Or.inr (Or.inl ⟨key, value, rfl, member, rfl⟩)
    · simp only [elementAt, groupAt, Option.bind_some, Option.map_eq_some_iff] at found
      rcases found with ⟨policy, member, rfl⟩
      exact Or.inr (Or.inr (Or.inl ⟨key, policy, rfl, member, rfl⟩))
    · rw [elementAt_below, Option.bind_eq_some_iff] at found
      rcases found with ⟨group, member, inner⟩
      exact Or.inr (Or.inr (Or.inr ⟨key, group, rest, rfl, member, inner⟩))
  · rintro (⟨rfl, rfl⟩ | ⟨key, value, rfl, member, rfl⟩ |
        ⟨key, policy, rfl, member, rfl⟩ | ⟨key, group, rest, rfl, member, found⟩)
    · rfl
    · simp [elementAt, groupAt, member]
    · simp [elementAt, groupAt, member]
    · rw [elementAt_below, member]
      exact found

/-! ## Flattened trees -/

mutual

/-- The entries that flattening a group adds, in their order. -/
def elements (path : List GoString) (key : GoString) : ConfigGroup → List Comparable
  | group@(.mk _ groups _ _ _) =>
    ⟨key, path, .group group⟩ :: (groupsElements (path ++ [key]) groups ++
        (valueElements (path ++ [key]) group ++ policyElements (path ++ [key]) group))

def groupsElements (path : List GoString) : ConfigGroups → List Comparable
  | .nil => []
  | .absent _ rest => groupsElements path rest
  | .present key group rest => elements path key group ++ groupsElements path rest

end

def insertAll (result : ConfigMap) (cgs : List Comparable) : ConfigMap :=
  cgs.foldl (fun result cg => result.insert cg.fqPath cg) result

theorem insertAll_append (result : ConfigMap) (first second : List Comparable) :
    insertAll result (first ++ second) = insertAll (insertAll result first) second := by
  simp [insertAll]

variable {cgs : List Comparable} {result : ConfigMap}

theorem addAllToMap_ok_iff {later : ConfigMap} :
    addAllToMap result cgs = .ok later ↔
      (∀ cg ∈ cgs, ValidKey cg.key) ∧ later = insertAll result cgs := by
  induction cgs generalizing result with
  | nil => simp [addAllToMap, insertAll, eq_comm]
  | cons cg cgs ih =>
    simp only [addAllToMap] at ih
    simp only [addAllToMap, List.foldlM_cons, bind_ok_iff, addToMap_ok_iff,
      List.forall_mem_cons, ih, insertAll, List.foldl_cons]
    constructor
    · rintro ⟨_, ⟨first, rfl⟩, others, rfl⟩
      exact ⟨⟨first, others⟩, rfl⟩
    · rintro ⟨⟨first, others⟩, rfl⟩
      exact ⟨_, ⟨first, rfl⟩, others, rfl⟩

mutual

/-- A tree is flattened if its keys are valid and no group is nil. -/
theorem recurseConfig_ok_iff :
    ∀ (group : ConfigGroup) {result later : ConfigMap} {path : List GoString} {key : GoString},
      recurseConfig result path key group = .ok later ↔ (ValidKey key ∧ Mappable group) ∧
          later = insertAll result (elements path key group)
  | .mk _ groups _ _ _, result, later, path, key => by
    simp only [recurseConfig, bind_ok_iff, addToMap_ok_iff, recurseGroups_ok_iff groups,
      addAllToMap_ok_iff, forall_valueElements_iff, forall_policyElements_iff, elements,
      insertAll, List.foldl_cons, List.foldl_append]
    constructor
    · rintro ⟨_, ⟨valid, rfl⟩, _, ⟨mappable, rfl⟩, _, ⟨values, rfl⟩, policies, rfl⟩
      exact ⟨⟨valid, mappable, values, policies⟩, rfl⟩
    · rintro ⟨⟨valid, mappable, values, policies⟩, rfl⟩
      exact ⟨_, ⟨valid, rfl⟩, _, ⟨mappable, rfl⟩, _, ⟨values, rfl⟩, policies, rfl⟩

theorem recurseGroups_ok_iff :
    ∀ (groups : ConfigGroups) {result later : ConfigMap} {path : List GoString},
      recurseGroups result path groups = .ok later ↔
        MappableGroups groups ∧ later = insertAll result (groupsElements path groups)
  | .nil, _, _, _ => by
    simp [recurseGroups, MappableGroups, groupsElements, insertAll, eq_comm]
  | .absent _ _, _, _, _ => by
    simp [recurseGroups, MappableGroups, bind_ok_iff]
  | .present _ group rest, _, _, _ => by
    simp only [recurseGroups, bind_ok_iff, recurseConfig_ok_iff group, recurseGroups_ok_iff rest,
      groupsElements, insertAll_append, MappableGroups]
    constructor
    · rintro ⟨_, ⟨⟨valid, mappable⟩, rfl⟩, others, rfl⟩
      exact ⟨⟨valid, mappable, others⟩, rfl⟩
    · rintro ⟨⟨valid, mappable, others⟩, rfl⟩
      exact ⟨_, ⟨⟨valid, mappable⟩, rfl⟩, others, rfl⟩

end

variable {configMap : ConfigMap}

theorem mapConfig_ok_iff :
    mapConfig (some root) = .ok configMap ↔
      Mappable root ∧ configMap = insertAll ∅ (elements [] rootGroupKey root) := by
  rw [mapConfig, recurseConfig_ok_iff, and_iff_right validKey_rootGroupKey]

theorem exists_mapConfig (mappable : Mappable root) :
    ∃ configMap, mapConfig (some root) = .ok configMap :=
  ⟨_, mapConfig_ok_iff.mpr ⟨mappable, rfl⟩⟩

variable {cg : Comparable} {name : GoString}

theorem mem_of_insertAll (found : (insertAll result cgs)[name]? = some cg) :
    (cg ∈ cgs ∧ cg.fqPath = name) ∨ result[name]? = some cg := by
  induction cgs generalizing result with
  | nil => exact Or.inr found
  | cons first cgs ih =>
    rcases ih found with ⟨member, named⟩ | before
    · exact Or.inl ⟨List.mem_cons_of_mem first member, named⟩
    · rw [ExtTreeMap.getElem?_insert] at before
      split_ifs at before with same
      · cases before
        exact Or.inl ⟨List.mem_cons_self, compare_eq_iff_eq.mp same⟩
      · exact Or.inr before

theorem exists_of_mem_insertAll
    (present : (∃ cg ∈ cgs, cg.fqPath = name) ∨ ∃ cg, result[name]? = some cg) :
    ∃ cg, (insertAll result cgs)[name]? = some cg := by
  induction cgs generalizing result with
  | nil =>
    rcases present with ⟨_, member, _⟩ | before
    · cases member
    · exact before
  | cons first cgs ih =>
    apply ih
    rcases present with ⟨cg, member, named⟩ | ⟨cg, before⟩
    · rcases List.mem_cons.mp member with rfl | later
      · right
        exact ⟨cg, by rw [ExtTreeMap.getElem?_insert, named]; simp⟩
      · exact Or.inl ⟨cg, later, named⟩
    · right
      rw [ExtTreeMap.getElem?_insert]
      split_ifs
      · exact ⟨first, rfl⟩
      · exact ⟨cg, before⟩

theorem comparable_group {path rest : List GoString} (element : Element)
    (whole : path ++ [key] = rootGroupKey :: rest) :
    (Address.group rest).comparable element = ⟨key, path, element⟩ := by
  simp [Address.comparable, Address.keys, ← whole]

variable {rest : List GoString}

theorem comparable_entry (element : Element)
    (whole : address.keys = rootGroupKey :: rest ++ [key]) :
    address.comparable element = ⟨key, rootGroupKey :: rest, element⟩ := by
  simp only [Address.comparable, whole, List.dropLast_concat, List.getLast_append_singleton]

theorem mem_entryElements_iff {Message : Type} {entries : Entries Message}
    {address : GoString → Address} {element : Message → Element}
    (whole : ∀ key, (address key).keys = rootGroupKey :: rest ++ [key])
    (ordered : (entryKeys entries).Pairwise (· < ·)) (present : ∀ entry ∈ entries, entry.2 ≠ none) :
    cg ∈ entries.map (fun entry =>
        (⟨entry.1, rootGroupKey :: rest, entry.2.elim .absent element⟩ : Comparable)) ↔
      ∃ key message, findEntry key entries = some message ∧
        cg = (address key).comparable (element message) := by
  simp only [List.mem_map, comparable_entry _ (whole _), findEntry_eq_some_iff ordered]
  constructor
  · rintro ⟨⟨key, _⟩, member, rfl⟩
    rcases Option.ne_none_iff_exists'.mp (present _ member) with ⟨message, same⟩
    cases same
    exact ⟨key, message, member, rfl⟩
  · rintro ⟨key, message, member, rfl⟩
    exact ⟨(key, some message), member, rfl⟩

theorem mem_groupsElements_iff {path : List GoString} :
    ∀ {groups : ConfigGroups}, cg ∈ groupsElements path groups ↔ ∃ key group,
      (key, some group) ∈ groupEntries groups ∧ cg ∈ elements path key group
  | .nil
  | .absent _ _
  | .present _ _ _ => by
    simp [groupsElements, groupEntries, mem_groupsElements_iff, or_and_right, exists_or, and_assoc]

theorem mem_elements_iff {path : List GoString} (whole : path ++ [key] = rootGroupKey :: rest)
    (ordered : Ordered group) (present : NilFree group) :
    cg ∈ elements path key group ↔ ∃ address element, elementAt group address = some element ∧
        cg = (address.below rest).comparable element := by
  induction group using groupInduction generalizing path key rest with
  | step group ih =>
    rcases group with ⟨version, groups, values, policies, modPolicy⟩
    rcases ordered with ⟨orderedGroups, orderedKeys, orderedValues, orderedPolicies⟩
    rcases present with ⟨presentGroups, presentValues, presentPolicies⟩
    have valueMember := @mem_entryElements_iff cg rest _ values (.value rest) .value
        (fun _ => rfl) orderedValues presentValues
    have policyMember := @mem_entryElements_iff cg rest _ policies (.policy rest) .policy
        (fun _ => rfl) orderedPolicies presentPolicies
    have below : ∀ first inner, (first, some inner) ∈ groupEntries groups →
          (cg ∈ elements (rootGroupKey :: rest) first inner ↔ ∃ address element,
            elementAt inner address = some element ∧
              cg = (address.below (rest ++ [first])).comparable element) :=
      fun first inner member => ih first inner member List.cons_append
          (orderedGroups_iff.mp orderedGroups _ _ member) (nilFree_of_mem presentGroups member)
    simp only [elements, valueElements, policyElements, ConfigGroup.values, ConfigGroup.policies,
      List.mem_cons, List.mem_append, whole, mem_groupsElements_iff, valueMember, policyMember]
    constructor
    · rintro (rfl | ⟨first, inner, member, inside⟩ |
          ⟨first, value, found, rfl⟩ | ⟨first, policy, found, rfl⟩)
      · refine ⟨.group [], _, rfl, ?_⟩
        rw [Address.below, List.append_nil, comparable_group _ whole]
      · rcases (below first inner member).mp inside with ⟨address, element, found, rfl⟩
        refine ⟨address.below [first], element, ?_, ?_⟩
        · rw [elementAt_below]
          simp only [ConfigGroup.groups, findEntry_of_mem orderedKeys member,
            Option.bind_some, found]
        · rw [Address.below_below]
      · refine ⟨.value [] first, .value value, ?_, ?_⟩
        · simp [elementAt, groupAt, ConfigGroup.values, found]
        · rw [Address.below, List.append_nil]
      · refine ⟨.policy [] first, .policy policy, ?_, ?_⟩
        · simp [elementAt, groupAt, ConfigGroup.policies, found]
        · rw [Address.below, List.append_nil]
    · rintro ⟨address, element, found, rfl⟩
      rcases elementAt_eq_some_iff.mp found with ⟨rfl, rfl⟩ | ⟨first, value, rfl, member, rfl⟩ |
          ⟨first, policy, rfl, member, rfl⟩ |
          ⟨first, inner, address, rfl, member, inside⟩
      · left
        rw [Address.below, List.append_nil, comparable_group _ whole]
      · right; right; left
        refine ⟨first, value, member, ?_⟩
        rw [Address.below, List.append_nil]
      · right; right; right
        refine ⟨first, policy, member, ?_⟩
        rw [Address.below, List.append_nil]
      · right; left
        have listed := mem_of_findEntry member
        refine ⟨first, inner, listed, (below first inner listed).mpr ⟨address, element, inside, ?_⟩⟩
        rw [Address.below_below]

/-! ## Properties of all groups of a tree -/

variable {path : List GoString}

/-- A property that passes to the groups of a group holds along every path. -/
theorem groupAt_induction {property : ConfigGroup → Prop}
    (step : ∀ {group inner : ConfigGroup} {key : GoString}, property group →
        findEntry key (groupEntries group.groups) = some inner →
        property inner) (holds : property root) (found : groupAt root path = some group) :
    property group := by
  induction path generalizing root with
  | nil =>
    cases found
    exact holds
  | cons key path ih =>
    rw [groupAt, Option.bind_eq_some_iff] at found
    rcases found with ⟨inner, member, rest⟩
    exact ih (step holds member) rest

theorem Ordered.groupAt (ordered : Ordered root) (found : groupAt root path = some group) :
    Ordered group := by
  refine groupAt_induction ?_ ordered found
  rintro ⟨_, _, _, _, _⟩ _ _ ⟨orderedGroups, _⟩ member
  exact orderedGroups_iff.mp orderedGroups _ _ (mem_of_findEntry member)

theorem NilFree.groupAt (present : NilFree root) (found : groupAt root path = some group) :
    NilFree group := by
  refine groupAt_induction ?_ present found
  rintro ⟨_, _, _, _, _⟩ _ _ ⟨presentGroups, _⟩ member
  exact nilFree_of_mem presentGroups (mem_of_findEntry member)

theorem mappable_groupAt (mappable : Mappable root) (found : groupAt root path = some group) :
    Mappable group := by
  refine groupAt_induction ?_ mappable found
  rintro ⟨_, _, _, _, _⟩ _ _ ⟨mappableGroups, _⟩ member
  exact (mappable_of_mem mappableGroups (mem_of_findEntry member)).2

theorem validKeys_of_groupAt (mappable : Mappable root) (found : groupAt root path = some group) :
    ∀ key ∈ path, ValidKey key := by
  induction path generalizing root with
  | nil => simp
  | cons key path ih =>
    rw [Elements.groupAt, Option.bind_eq_some_iff] at found
    rcases found with ⟨_, member, rest⟩
    cases root with
    | mk _ _ _ _ _ =>
      rcases mappable with ⟨mappableGroups, _⟩
      rcases mappable_of_mem mappableGroups (mem_of_findEntry member) with ⟨valid, mappableInner⟩
      exact List.forall_mem_cons.mpr ⟨valid, ih mappableInner rest⟩

theorem valid_of_elementAt (mappable : Mappable root)
    (found : elementAt root address = some element) : address.Valid := by
  have above {path : List GoString} {group : ConfigGroup} (here : groupAt root path = some group) :
      ∀ key ∈ rootGroupKey :: path, ValidKey key :=
    List.forall_mem_cons.mpr ⟨validKey_rootGroupKey, validKeys_of_groupAt mappable here⟩
  have entry {path : List GoString} {key : GoString} {group : ConfigGroup}
      (here : groupAt root path = some group) (valid : Mappable group → ValidKey key) :
      ∀ one ∈ rootGroupKey :: path ++ [key], ValidKey one := by
    rw [List.forall_mem_append, List.forall_mem_singleton]
    exact ⟨above here, valid (mappable_groupAt mappable here)⟩
  rcases address with path | ⟨path, key⟩ | ⟨path, key⟩
  · rcases Option.map_eq_some_iff.mp found with ⟨_, here, _⟩
    exact above here
  · rcases Option.bind_eq_some_iff.mp found with ⟨⟨_, _, _, _, _⟩, here, held⟩
    rcases Option.map_eq_some_iff.mp held with ⟨_, member, _⟩
    exact entry here fun inside => inside.2.1 _ (mem_of_findEntry member)
  · rcases Option.bind_eq_some_iff.mp found with ⟨⟨_, _, _, _, _⟩, here, held⟩
    rcases Option.map_eq_some_iff.mp held with ⟨_, member, _⟩
    exact entry here fun inside => inside.2.2 _ (mem_of_findEntry member)

/-! ## The map of a tree -/

theorem pathPrefix_of_elementAt (found : elementAt root address = some element) :
    element.pathPrefix = address.pathPrefix := by
  rcases address with path | ⟨path, key⟩ | ⟨path, key⟩
  · rcases Option.map_eq_some_iff.mp found with ⟨_, _, rfl⟩
    rfl
  · rcases Option.bind_eq_some_iff.mp found with ⟨_, _, held⟩
    rcases Option.map_eq_some_iff.mp held with ⟨_, _, rfl⟩
    rfl
  · rcases Option.bind_eq_some_iff.mp found with ⟨_, _, held⟩
    rcases Option.map_eq_some_iff.mp held with ⟨_, _, rfl⟩
    rfl

theorem fqPath_comparable (same : element.pathPrefix = address.pathPrefix) :
    (address.comparable element).fqPath = address.name := by
  have whole : pathName address.keys = joinPath (pathName address.keys.dropLast)
          (address.comparable element).key := by
    rw [← pathName_append]
    exact congrArg pathName (List.dropLast_append_getLast _).symm
  rw [Comparable.fqPath, Address.name, whole]
  exact congrArg (qualify · _) same

section

theorem mem_elements_root_iff (ordered : Ordered root) (present : NilFree root) :
    cg ∈ elements [] rootGroupKey root ↔ ∃ address element,
      elementAt root address = some element ∧ cg = address.comparable element := by
  have whole : [] ++ [rootGroupKey] = rootGroupKey :: [] := rfl
  rw [mem_elements_iff whole ordered present]
  simp only [Address.below_nil]

/-- Entering the elements of a tree in any order puts them under their names. -/
theorem getElem?_insertAll_eq_some_iff (mappable : Mappable root) (ordered : Ordered root)
    (present : NilFree root) (entered : ∀ {cg}, cg ∈ cgs ↔ cg ∈ elements [] rootGroupKey root) :
    (insertAll ∅ cgs)[name]? = some cg ↔
      ∃ address element, elementAt root address = some element ∧
        name = address.name ∧ cg = address.comparable element := by
  have members : ∀ {cg}, cg ∈ cgs ↔ ∃ address element, elementAt root address = some element ∧
          cg = address.comparable element := by
    intro cg
    rw [entered, mem_elements_root_iff ordered present]
  constructor
  · intro found
    rcases mem_of_insertAll found with ⟨member, named⟩ | none
    · rcases members.mp member with ⟨address, element, here, rfl⟩
      refine ⟨address, element, here, ?_, rfl⟩
      rw [← named, fqPath_comparable (pathPrefix_of_elementAt here)]
    · simp at none
  · rintro ⟨address, element, here, rfl, rfl⟩
    have named := fqPath_comparable (pathPrefix_of_elementAt here)
    rcases @exists_of_mem_insertAll cgs ∅ address.name
        (Or.inl ⟨_, members.mpr ⟨address, element, here, rfl⟩, named⟩) with
      ⟨cg, found⟩
    rcases mem_of_insertAll found with ⟨member, sameName⟩ | none
    · rcases members.mp member with ⟨_, _, there, rfl⟩
      rw [fqPath_comparable (pathPrefix_of_elementAt there)] at sameName
      cases Address.name_injective (valid_of_elementAt mappable there)
          (valid_of_elementAt mappable here) sameName
      rw [here] at there
      cases there
      exact found
    · simp at none

section

variable (mapped : mapConfig (some root) = .ok configMap) (ordered : Ordered root)
  (present : NilFree root)
include mapped ordered present

/-- The map of a tree holds the elements of the tree under their names. -/
theorem getElem?_mapConfig_eq_some_iff :
    configMap[name]? = some cg ↔ ∃ address element, elementAt root address = some element ∧
        name = address.name ∧ cg = address.comparable element := by
  rcases mapConfig_ok_iff.mp mapped with ⟨mappable, rfl⟩
  exact getElem?_insertAll_eq_some_iff mappable ordered present Iff.rfl

theorem getElem?_mapConfig (valid : address.Valid) :
    configMap[address.name]? = (elementAt root address).map address.comparable := by
  have mappable := (mapConfig_ok_iff.mp mapped).1
  ext cg
  rw [getElem?_mapConfig_eq_some_iff mapped ordered present, Option.map_eq_some_iff]
  constructor
  · rintro ⟨_, element, found, same, rfl⟩
    cases Address.name_injective valid (valid_of_elementAt mappable found) same
    exact ⟨element, found, rfl⟩
  · rintro ⟨element, found, rfl⟩
    exact ⟨address, element, found, rfl, rfl⟩

end

end

/-! ## Rebuilt trees -/

/-- Two elements differ in nothing but what their groups hold. -/
def SameElement : Element → Element → Prop
  | .group left, .group right =>
    left.version = right.version ∧ left.modPolicy = right.modPolicy ∧
      entryKeys (groupEntries left.groups) = entryKeys (groupEntries right.groups) ∧
      entryKeys left.values = entryKeys right.values ∧
      entryKeys left.policies = entryKeys right.policies
  | .value left, .value right => left = right
  | .policy left, .policy right => left = right
  | .absent, .absent => True
  | _, _ => False

/-- The entries of the maps of the group itself are in order. -/
structure OrderedKeys (group : ConfigGroup) : Prop where
  groups : (entryKeys (groupEntries group.groups)).Pairwise (· < ·)
  values : (entryKeys group.values).Pairwise (· < ·)
  policies : (entryKeys group.policies).Pairwise (· < ·)

/-- The groups of a map are in order. -/
def OrderedMap (configMap : ConfigMap) : Prop :=
  ∀ (name : GoString) (cg : Comparable), configMap[name]? = some cg →
    ∀ group, cg.element = .group group → OrderedKeys group

theorem Ordered.keys (ordered : Ordered group) : OrderedKeys group := by
  cases group with
  | mk _ _ _ _ _ =>
    rcases ordered with ⟨_, orderedGroups, orderedValues, orderedPolicies⟩
    exact ⟨orderedGroups, orderedValues, orderedPolicies⟩

variable {rebuild : GoString → Outcome ConfigMapError ConfigGroup} {path : GoString}

theorem rebuildGroups_ok :
    ∀ {groups later : ConfigGroups}, rebuildGroups rebuild path groups = .ok later →
        entryKeys (groupEntries later) = entryKeys (groupEntries groups) ∧
          ∀ entry ∈ groupEntries later, ∃ group, entry.2 = some group ∧
              rebuild (joinPath path entry.1) = .ok group
  | .nil, _, result => by
    cases result
    simp [groupEntries]
  | .absent key rest, _, result
  | .present key _ rest, _, result => by
    simp only [rebuildGroups, bind_ok_iff, Outcome.ok.injEq] at result
    rcases result with ⟨updated, first, _, last, rfl⟩
    rcases rebuildGroups_ok last with ⟨keys, rebuilt⟩
    constructor
    · simp only [entryKeys] at keys
      simp only [entryKeys, groupEntries, List.map_cons, keys]
    · exact List.forall_mem_cons.mpr ⟨⟨updated, rfl, first⟩, rebuilt⟩

variable {Message : Type}

variable {entries later : Entries Message}

theorem rebuildEntries_ok {rebuild : GoString → Outcome ConfigMapError Message}
    (result : rebuildEntries rebuild entries = .ok later) :
    ∀ entry ∈ later, ∃ message, entry.2 = some message ∧ rebuild entry.1 = .ok message := by
  induction entries generalizing later with
  | nil =>
    cases result
    simp
  | cons entry entries ih =>
    simp only [rebuildEntries, bind_ok_iff, Outcome.ok.injEq] at result
    rcases result with ⟨updated, first, _, last, rfl⟩
    exact List.forall_mem_cons.mpr ⟨⟨updated, rfl, first⟩, ih last⟩

variable {value : ConfigValue}

theorem rebuildValue_ok_iff :
    rebuildValue configMap (pathName (rootGroupKey :: rest)) key = .ok value ↔
      ∃ cg, configMap[((Address.value [] key).below rest).name]? = some cg ∧
        SameElement cg.element (.value value) := by
  have name : ((Address.value [] key).below rest).name =
      qualify valuePrefix (joinPath (pathName (rootGroupKey :: rest)) key) := by
    rw [Address.below, List.append_nil, ← pathName_append]
    rfl
  cases found : configMap[((Address.value [] key).below rest).name]? with
  | none => simp [rebuildValue, ← name, found]
  | some cg =>
    rcases cg with ⟨_, _, element⟩
    cases element <;> simp [rebuildValue, ← name, found, SameElement]

variable {policy : ConfigPolicy}

theorem rebuildPolicy_ok_iff :
    rebuildPolicy configMap (pathName (rootGroupKey :: rest)) key = .ok policy ↔
      ∃ cg, configMap[((Address.policy [] key).below rest).name]? = some cg ∧
        SameElement cg.element (.policy policy) := by
  have name : ((Address.policy [] key).below rest).name =
      qualify policyPrefix (joinPath (pathName (rootGroupKey :: rest)) key) := by
    rw [Address.below, List.append_nil, ← pathName_append]
    rfl
  cases found : configMap[((Address.policy [] key).below rest).name]? with
  | none => simp [rebuildPolicy, ← name, found]
  | some cg =>
    rcases cg with ⟨_, _, element⟩
    cases element <;> simp [rebuildPolicy, ← name, found, SameElement]

/-- At every address, a rebuilt tree shows the element of the map. -/
theorem elementAt_recurseConfigMap (fuel : Nat)
    (result : recurseConfigMap configMap fuel (pathName (rootGroupKey :: rest)) = .ok group)
    (found : elementAt group address = some element) :
    ∃ cg, configMap[(address.below rest).name]? = some cg ∧ SameElement cg.element element := by
  induction fuel generalizing rest group address with
  | zero => cases result
  | succ fuel ih =>
    rw [recurseConfigMap] at result
    rcases rebuildGroup_ok result with
      ⟨cg, _, located, isGroup, version, modPolicy, groups, values, policies⟩
    rcases elementAt_eq_some_iff.mp found with ⟨rfl, rfl⟩ | ⟨key, _, rfl, member, rfl⟩ |
        ⟨key, policy, rfl, member, rfl⟩ |
        ⟨key, inner, address, rfl, member, inside⟩
    · rw [Address.below, List.append_nil]
      refine ⟨cg, located, ?_⟩
      rw [isGroup]
      exact ⟨version.symm, modPolicy.symm, (rebuildGroups_ok groups).1.symm,
          (keys_rebuildEntries values).symm, (keys_rebuildEntries policies).symm⟩
    · rcases rebuildEntries_ok values _ (mem_of_findEntry member) with ⟨_, same, rebuilt⟩
      cases same
      exact rebuildValue_ok_iff.mp rebuilt
    · rcases rebuildEntries_ok policies _ (mem_of_findEntry member) with ⟨_, same, rebuilt⟩
      cases same
      exact rebuildPolicy_ok_iff.mp rebuilt
    · rcases (rebuildGroups_ok groups).2 _ (mem_of_findEntry member) with ⟨_, same, rebuilt⟩
      cases same
      rw [← pathName_append] at rebuilt
      rw [Address.below_below]
      exact ih rebuilt inside

theorem present_of_rebuildEntries {rebuild : GoString → Outcome ConfigMapError Message}
    (result : rebuildEntries rebuild entries = .ok later) :
    ∀ entry ∈ later, entry.2 ≠ none := by
  intro entry member
  rcases rebuildEntries_ok result entry member with ⟨_, same, _⟩
  simp [same]

theorem nilFree_recurseConfigMap (fuel : Nat)
    (result : recurseConfigMap configMap fuel path = .ok group) :
    NilFree group := by
  induction fuel generalizing path group with
  | zero => cases result
  | succ fuel ih =>
    rcases rebuildGroup_ok result with ⟨_, _, _, _, _, _, groups, values, policies⟩
    cases group with
    | mk _ _ _ _ _ =>
      refine ⟨nilFreeGroups_iff.mpr ?_, present_of_rebuildEntries values,
        present_of_rebuildEntries policies⟩
      intro entry member
      rcases (rebuildGroups_ok groups).2 entry member with ⟨group, same, rebuilt⟩
      exact ⟨group, same, ih rebuilt⟩

theorem ordered_recurseConfigMap (ordered : OrderedMap configMap) (fuel : Nat)
    (result : recurseConfigMap configMap fuel path = .ok group) :
    Ordered group := by
  induction fuel generalizing path group with
  | zero => cases result
  | succ fuel ih =>
    rcases rebuildGroup_ok result with ⟨cg, source, found, isGroup, _, _, groups, values, policies⟩
    have keys := ordered _ cg found source isGroup
    have groupKeys := (rebuildGroups_ok groups).1
    have valueKeys : entryKeys group.values = entryKeys source.values := keys_rebuildEntries values
    have policyKeys : entryKeys group.policies = entryKeys source.policies :=
      keys_rebuildEntries policies
    cases group with
    | mk _ _ _ _ _ =>
      refine ⟨orderedGroups_iff.mpr ?_, groupKeys ▸ keys.groups,
        valueKeys ▸ keys.values, policyKeys ▸ keys.policies⟩
      intro _ group member
      rcases (rebuildGroups_ok groups).2 _ member with ⟨_, same, rebuilt⟩
      cases same
      exact ih rebuilt

theorem elementAt_configMapToConfig (result : configMapToConfig configMap = .ok group)
    (found : elementAt group address = some element) :
    ∃ cg, configMap[address.name]? = some cg ∧ SameElement cg.element element := by
  have root : joinPath .empty rootGroupKey = pathName (rootGroupKey :: []) := rfl
  rw [configMapToConfig, root] at result
  have shown := elementAt_recurseConfigMap _ result found
  rwa [Address.below_nil] at shown

variable {root : Option ConfigGroup}

section

variable {property : ConfigGroup → Prop} (step : ∀ {group inner : ConfigGroup} {key : GoString},
  property group → (key, some inner) ∈ groupEntries group.groups → property inner)

include step

/-- A property that passes to the groups of a group holds of all groups that are entered. -/
theorem of_mem_elements {path : List GoString} {inner : ConfigGroup} (holds : property group)
    (member : cg ∈ elements path key group) (isGroup : cg.element = .group inner) :
    property inner := by
  induction group using groupInduction generalizing path key with
  | step group ih =>
    rcases group with ⟨_, _, _, _, _⟩
    rw [elements, List.mem_cons, List.mem_append, List.mem_append] at member
    rcases member with rfl | inside | isValue | isPolicy
    · cases isGroup
      exact holds
    · rcases mem_groupsElements_iff.mp inside with ⟨key, below, listed, there⟩
      exact ih key below listed (step holds listed) there
    · rcases List.mem_map.mp isValue with ⟨⟨_, value⟩, _, rfl⟩
      cases value <;> cases isGroup
    · rcases List.mem_map.mp isPolicy with ⟨⟨_, policy⟩, _, rfl⟩
      cases policy <;> cases isGroup

theorem of_getElem?_mapConfig (mapped : mapConfig root = .ok configMap)
    (holds : ∀ group, root = some group → property group) (found : configMap[name]? = some cg)
    (isGroup : cg.element = .group group) :
    property group := by
  cases root with
  | none =>
    cases mapped
    simp at found
  | some root =>
    rcases mapConfig_ok_iff.mp mapped with ⟨_, rfl⟩
    rcases mem_of_insertAll found with ⟨member, _⟩ | none
    · exact of_mem_elements step (holds root rfl) member isGroup
    · simp at none

end

theorem orderedMap_mapConfig (mapped : mapConfig root = .ok configMap)
    (ordered : ∀ group, root = some group → Ordered group) :
    OrderedMap configMap := by
  intro _ _ found _ isGroup
  apply Ordered.keys
  refine of_getElem?_mapConfig ?_ mapped ordered found isGroup
  rintro ⟨_, _, _, _, _⟩ _ _ ⟨orderedGroups, _⟩ member
  exact orderedGroups_iff.mp orderedGroups _ _ member

theorem validGroupKeys_of_mappableGroups :
    ∀ {groups : ConfigGroups}, MappableGroups groups → ValidGroupKeys groups
  | .nil, _ => trivial
  | .present _ _ _, ⟨key, _, others⟩ => ⟨key, validGroupKeys_of_mappableGroups others⟩

theorem validMap_mapConfig (mapped : mapConfig root = .ok configMap) :
    ValidMap configMap := by
  intro _ _ found group isGroup
  have mappable : Mappable group := by
    refine of_getElem?_mapConfig ?_ mapped ?_ found isGroup
    · rintro ⟨_, _, _, _, _⟩ _ _ ⟨mappableGroups, _⟩ member
      exact (mappable_of_mem mappableGroups member).2
    · rintro _ rfl
      exact (mapConfig_ok_iff.mp mapped).1
  rcases group with ⟨_, _, _, _, _⟩
  rcases mappable with ⟨groups, values, policies⟩
  exact ⟨validGroupKeys_of_mappableGroups groups, values, policies⟩

/-! ## Trees that can be rebuilt -/

theorem rebuildGroups_of_keys :
    ∀ {source groups : ConfigGroups},
      entryKeys (groupEntries source) = entryKeys (groupEntries groups) → NilFreeGroups groups →
        (∀ key group, (key, some group) ∈ groupEntries groups →
          rebuild (joinPath path key) = .ok group) →
        rebuildGroups rebuild path source = .ok groups
  | .nil, .nil, _, _, _ => rfl
  | .absent _ source, .present key group rest, keys, ⟨_, others⟩, rebuilt
  | .present _ _ source, .present key group rest, keys, ⟨_, others⟩,
    rebuilt => by
      simp only [entryKeys, groupEntries, List.map_cons, List.cons.injEq] at keys
      rcases keys with ⟨rfl, keys⟩
      have inner := rebuildGroups_of_keys keys others fun key group member =>
          rebuilt key group (List.mem_cons_of_mem _ member)
      rw [rebuildGroups, rebuilt _ group List.mem_cons_self, ok_bind, inner, ok_bind]
  | .nil, .present _ _ _, keys, _, _ => by cases keys
  | .absent _ _, .nil, keys, _, _ => by cases keys
  | .present _ _ _, .nil, keys, _, _ => by cases keys

theorem rebuildEntries_of_keys {rebuild : GoString → Outcome ConfigMapError Message}
    {source entries : Entries Message}
    (keys : entryKeys source = entryKeys entries) (present : ∀ entry ∈ entries, entry.2 ≠ none)
    (rebuilt : ∀ key message, (key, some message) ∈ entries → rebuild key = .ok message) :
    rebuildEntries rebuild source = .ok entries := by
  induction entries generalizing source with
  | nil =>
    rw [entryKeys, entryKeys, List.map_nil, List.map_eq_nil_iff] at keys
    rw [keys]
    rfl
  | cons entry entries ih =>
    rcases entry with ⟨key, message⟩
    rw [List.forall_mem_cons] at present
    rcases Option.ne_none_iff_exists'.mp present.1 with ⟨message, same⟩
    cases same
    cases source with
    | nil => cases keys
    | cons _ source =>
      simp only [entryKeys, List.map_cons, List.cons.injEq] at keys
      have inner := ih keys.2 present.2 fun key message member =>
          rebuilt key message (List.mem_cons_of_mem _ member)
      rw [rebuildEntries, keys.1, rebuilt key message List.mem_cons_self, ok_bind, inner, ok_bind]

theorem exists_group_of_sameElement (same : SameElement element (.group group)) :
    ∃ source, element = .group source ∧ SameElement (.group source) (.group group) := by
  cases element with
  | group source => exact ⟨source, rfl, same⟩
  | value _ | policy _ | absent => exact same.elim

theorem recurseConfigMap_of_elementAt {tree : ConfigGroup} {fuel : Nat} (ordered : Ordered tree)
    (present : NilFree tree)
    (enough : nameBound configMap ≤ (pathName (rootGroupKey :: rest)).bytes.length + fuel)
    (holds : ∀ address element, elementAt tree address = some element →
        ∃ cg, configMap[(address.below rest).name]? = some cg ∧ SameElement cg.element element) :
    recurseConfigMap configMap fuel (pathName (rootGroupKey :: rest)) = .ok tree := by
  induction tree using groupInduction generalizing fuel rest with
  | step tree ih =>
    rcases tree with ⟨_, groups, _, _, _⟩
    rcases ordered with ⟨orderedGroups, orderedKeys, orderedValues, orderedPolicies⟩
    rcases present with ⟨presentGroups, presentValues, presentPolicies⟩
    rcases holds (.group []) _ rfl with ⟨cg, found, same⟩
    rw [Address.below, List.append_nil] at found
    rcases exists_group_of_sameElement same with
      ⟨source, isGroup, sameVersion, sameModPolicy, groupKeys, valueKeys, policyKeys⟩
    have shorter := length_lt_nameBound found
    cases fuel with
    | zero =>
      simp only [Address.name, Address.keys, qualify, List.length_append] at shorter
      omega
    | succ fuel =>
      have groupsRebuilt : rebuildGroups (recurseConfigMap configMap fuel)
            (pathName (rootGroupKey :: rest)) source.groups = .ok groups := by
        apply rebuildGroups_of_keys groupKeys presentGroups
        intro key group member
        have longer : (pathName (rootGroupKey :: rest)).bytes.length + 1 ≤
              (joinPath (pathName (rootGroupKey :: rest)) key).bytes.length := by
          simp [joinPath]
        rw [← pathName_append, List.cons_append] at longer ⊢
        apply ih key group member (orderedGroups_iff.mp orderedGroups _ _ member)
          (nilFree_of_mem presentGroups member) (by omega)
        intro address element here
        rw [← Address.below_below]
        apply holds
        rw [elementAt_below]
        simp only [ConfigGroup.groups, findEntry_of_mem orderedKeys member, Option.bind_some, here]
      have valuesRebuilt := rebuildEntries_of_keys valueKeys presentValues fun key _ member =>
            rebuildValue_ok_iff.mpr (holds (.value [] key) _ (by
              simp [elementAt, groupAt, ConfigGroup.values, findEntry_of_mem orderedValues member]))
      have policiesRebuilt := rebuildEntries_of_keys policyKeys presentPolicies fun key _ member =>
            rebuildPolicy_ok_iff.mpr (holds (.policy [] key) _ (by
              simp [elementAt, groupAt, ConfigGroup.policies,
                findEntry_of_mem orderedPolicies member]))
      rcases cg with ⟨_, _, element⟩
      subst isGroup
      simp only [Address.name, Address.keys, Address.pathPrefix] at found
      simp only [recurseConfigMap, rebuildGroup, found, groupsRebuilt, valuesRebuilt,
        policiesRebuilt, ok_bind, sameVersion, sameModPolicy]
      rfl

theorem configMapToConfig_of_elementAt {tree : ConfigGroup}
    (ordered : Ordered tree) (present : NilFree tree)
    (holds : ∀ address element, elementAt tree address = some element →
        ∃ cg, configMap[address.name]? = some cg ∧ SameElement cg.element element) :
    configMapToConfig configMap = .ok tree := by
  have root : joinPath .empty rootGroupKey = pathName (rootGroupKey :: []) := rfl
  rw [configMapToConfig, root]
  apply recurseConfigMap_of_elementAt ordered present (by omega)
  intro address element found
  rw [Address.below_nil]
  exact holds address element found

/-! ## Trees that are equal as messages -/

theorem present_of_entriesEqual {Message : Type} {equal : Message → Message → Bool} :
    ∀ {left right : Entries Message}, entriesEqual equal left right = true →
        (∀ entry ∈ left, entry.2 ≠ none) → ∀ entry ∈ right, entry.2 ≠ none
  | [], [], _, _ => by simp
  | (_, leftMessage) :: lefts, (_, rightMessage) :: rights, same, present => by
    simp only [entriesEqual, Bool.and_eq_true] at same
    rcases List.forall_mem_cons.mp present with ⟨first, others⟩
    rw [List.forall_mem_cons]
    refine ⟨?_, present_of_entriesEqual same.2 others⟩
    cases rightMessage with
    | some message => exact Option.some_ne_none message
    | none =>
      cases leftMessage with
      | none => exact first
      | some message => exact Bool.noConfusion same.1.2

theorem entryKeys_of_configGroupsEqual :
    ∀ {left right : ConfigGroups}, configGroupsEqual left right = true →
      entryKeys (groupEntries left) = entryKeys (groupEntries right)
  | .nil, .nil, _ => rfl
  | .absent _ lefts, .absent _ rights, same => by
    simp only [configGroupsEqual, Bool.and_eq_true, beq_iff_eq] at same
    have rest := entryKeys_of_configGroupsEqual same.2
    simp only [entryKeys] at rest
    simp [entryKeys, groupEntries, same.1, rest]
  | .present _ _ lefts, .present _ _ rights, same => by
    simp only [configGroupsEqual, Bool.and_eq_true, beq_iff_eq] at same
    have rest := entryKeys_of_configGroupsEqual same.2
    simp only [entryKeys] at rest
    simp [entryKeys, groupEntries, same.1.1, rest]

mutual

/-- What makes a tree well formed passes to the trees that are equal to it. -/
theorem transfers_of_configGroupEqual :
    ∀ (left right : ConfigGroup), configGroupEqual left right = true →
      (Mappable left → Mappable right) ∧ (NilFree left → NilFree right) ∧
        (Ordered left → Ordered right)
  | .mk _ leftGroups _ _ _, .mk _ rightGroups _ _ _, same => by
    simp only [configGroupEqual, Bool.and_eq_true] at same
    rcases same with ⟨⟨⟨⟨_, sameGroups⟩, sameValues⟩, samePolicies⟩, _⟩
    rcases transfers_of_configGroupsEqual leftGroups rightGroups sameGroups with
      ⟨mappable, present, ordered⟩
    have valueKeys := keys_of_entriesEqual sameValues
    have policyKeys := keys_of_entriesEqual samePolicies
    refine ⟨?_, ?_, ?_⟩
    · rintro ⟨groups, values, policies⟩
      exact ⟨mappable groups, validEntries_of_keys valueKeys values,
          validEntries_of_keys policyKeys policies⟩
    · rintro ⟨groups, values, policies⟩
      exact ⟨present groups, present_of_entriesEqual sameValues values,
          present_of_entriesEqual samePolicies policies⟩
    · rintro ⟨groups, keys, values, policies⟩
      refine ⟨ordered groups, ?_, ?_, ?_⟩
      · rw [← entryKeys_of_configGroupsEqual sameGroups]
        exact keys
      · rw [entryKeys, valueKeys]
        exact values
      · rw [entryKeys, policyKeys]
        exact policies

theorem transfers_of_configGroupsEqual :
    ∀ (left right : ConfigGroups), configGroupsEqual left right = true →
      (MappableGroups left → MappableGroups right) ∧ (NilFreeGroups left → NilFreeGroups right) ∧
        (OrderedGroups left → OrderedGroups right)
  | .nil, .nil, _ => ⟨id, id, id⟩
  | .absent _ lefts, .absent _ rights, same => by
    simp only [configGroupsEqual, Bool.and_eq_true] at same
    exact ⟨nofun, nofun, (transfers_of_configGroupsEqual lefts rights same.2).2.2⟩
  | .present _ left lefts, .present _ right rights, same => by
    simp only [configGroupsEqual, Bool.and_eq_true, beq_iff_eq] at same
    rcases same with ⟨⟨rfl, sameGroup⟩, sameRest⟩
    rcases transfers_of_configGroupEqual left right sameGroup with ⟨mappable, present, ordered⟩
    rcases transfers_of_configGroupsEqual lefts rights sameRest with
      ⟨mappableRest, presentRest, orderedRest⟩
    exact ⟨And.imp_right (And.imp mappable mappableRest), And.imp present presentRest,
        And.imp ordered orderedRest⟩

end

end Fabric.ConfigTx.Elements
