import Fabric.ConfigTx.Authorization

/-!
# Computing an update from two configurations

The translator of configurations compares an original configuration with an
updated one and computes the read set and the write set of an update between
them.  Entries that differ go into the write set.  As soon as a group gains or
loses a member or changes its policy, all of its entries go into both sets,
those that are the same by their version alone.

An update that is computed this way is accepted by the manager of the original
configuration when the policies that are consulted are satisfied, and it leads
to the updated configuration.
-/

namespace Fabric.ConfigTx.Compute

open Std (ExtTreeMap)
open Library Outcome ByteString Protos ConfigTx.Tree Manager Elements

/-! ## Comparing maps -/

/-- Why no update is computed. -/
inductive ComputeError where
  | noDifferences
deriving DecidableEq

/-- What becomes of an entry of the updated map. -/
inductive Difference (Message : Type) where
  | same (message : Message)
  | modified (read : Option Message) (written : Message)

/-- The sets that the comparison fills, with or without the same entries. -/
inductive Selection where
  | readSet (withSame : Bool)
  | writeSet (withSame : Bool)

/-- What a set holds for an entry. -/
def Difference.select {Message : Type} : Selection → Difference Message → Option Message
  | .readSet withSame, .same message
  | .writeSet withSame, .same message =>
    if withSame = true then some message else none
  | .readSet _, .modified read _ => read
  | .writeSet _, .modified _ written => some written

/--
The comparison of two maps.  The read set, the write set and the set of the
same entries are parts of one list, in the order of the keys.
-/
structure MapUpdate (Message : Type) where
  entries : List (GoString × Difference Message)
  updatedMembers : Bool

/-- The entries of a set, in the order of their keys. -/
def MapUpdate.set {Message : Type} (update : MapUpdate Message)
    (selection : Selection) : Entries Message :=
  update.entries.filterMap fun entry =>
    (entry.2.select selection).map fun message => (entry.1, some message)

def membersUpdated {Message : Type} (original updated : Entries Message) : Bool :=
  (original.any fun entry => (updated.lookup entry.1).isNone) ||
    updated.any fun entry => (original.lookup entry.1).isNone

/-- Compare an entry with the original one; nil entries are dereferenced. -/
def compareEntry {Message : Type} (same : Message → Message → Bool) (unchanged : Message → Message)
    (next : Message → Message → Message) (added : Message → Message) :
    Option (Option Message) → Option Message → Outcome ComputeError (Difference Message)
  | none, updated => do
      let updated ← deref updated
      .ok (.modified none (added updated))
  | some original, updated => do
      let original ← deref original
      let updated ← deref updated
      if same original updated = true then .ok (.same (unchanged original))
      else .ok (.modified none (next original updated))

def computeMapUpdate {Message : Type}
    (compare : Option (Option Message) → Option Message → Outcome ComputeError (Difference Message))
    (original updated : Entries Message) :
    Outcome ComputeError (MapUpdate Message) := do
  let entries ← updated.mapM fun entry => do
    let difference ← compare (original.lookup entry.1) entry.2
    .ok (entry.1, difference)
  .ok ⟨entries, membersUpdated original updated⟩

def computePoliciesMapUpdate :
    Entries ConfigPolicy → Entries ConfigPolicy →
      Outcome ComputeError (MapUpdate ConfigPolicy) :=
  computeMapUpdate (compareEntry (fun original updated =>
        original.modPolicy == updated.modPolicy && original.policy == updated.policy)
      (fun original => ⟨original.version, none, .empty⟩)
      (fun original updated => ⟨original.version + 1, updated.policy, updated.modPolicy⟩)
      (fun updated => ⟨0, updated.policy, updated.modPolicy⟩))

def computeValuesMapUpdate :
    Entries ConfigValue → Entries ConfigValue →
      Outcome ComputeError (MapUpdate ConfigValue) :=
  computeMapUpdate (compareEntry (fun original updated =>
        original.modPolicy == updated.modPolicy && original.value == updated.value)
      (fun original => ⟨original.version, none, .empty⟩)
      (fun original updated => ⟨original.version + 1, updated.value, updated.modPolicy⟩)
      (fun updated => ⟨0, updated.value, updated.modPolicy⟩))

/-! ## Comparing groups -/

/-- The read set and the write set of a group, and whether they differ. -/
structure GroupUpdate where
  readSet : ConfigGroup
  writeSet : ConfigGroup
  updatedGroup : Bool

/-- The groups that a list of entries stands for. -/
def ofEntries : Entries ConfigGroup → ConfigGroups
  | [] => .nil
  | (key, none) :: rest => .absent key (ofEntries rest)
  | (key, some group) :: rest => .present key group (ofEntries rest)

/-- A group with its version and nothing else. -/
def bareGroup (version : UInt64) : ConfigGroup :=
  .mk version .nil [] [] .empty

section

variable (policies : MapUpdate ConfigPolicy) (values : MapUpdate ConfigValue)
  (groups : MapUpdate ConfigGroup)

/-- A group of the entries of three sets. -/
def selectedGroup (selection : Selection) (version : UInt64) (modPolicy : GoString) : ConfigGroup :=
  .mk version (ofEntries (groups.set selection)) (values.set selection)
    (policies.set selection) modPolicy

def unmodified : Bool :=
  (policies.set (.readSet false)).isEmpty && (policies.set (.writeSet false)).isEmpty &&
    (values.set (.readSet false)).isEmpty && (values.set (.writeSet false)).isEmpty &&
    (groups.set (.readSet false)).isEmpty && (groups.set (.writeSet false)).isEmpty

end

/-- The sets of a group, from the comparisons of its maps. -/
def groupUpdate (original updated : ConfigGroup)
    (policies : MapUpdate ConfigPolicy) (values : MapUpdate ConfigValue)
    (groups : MapUpdate ConfigGroup) : GroupUpdate :=
  let sets := selectedGroup policies values groups
  if (policies.updatedMembers || values.updatedMembers ||
      groups.updatedMembers || original.modPolicy != updated.modPolicy) =
      false then
    if unmodified policies values groups = true then
      ⟨bareGroup original.version, bareGroup original.version, false⟩
    else
      ⟨sets (.readSet false) original.version .empty,
        sets (.writeSet false) original.version .empty, true⟩
  else
    ⟨sets (.readSet true) original.version .empty,
      sets (.writeSet true) (original.version + 1) updated.modPolicy, true⟩

mutual

/-- What changed in a group. -/
def computeGroupUpdate (original : ConfigGroup) : ConfigGroup → Outcome ComputeError GroupUpdate
  | updated@(.mk _ groups values policies _) => do
      let policiesUpdate ← computePoliciesMapUpdate original.policies policies
      let valuesUpdate ← computeValuesMapUpdate original.values values
      let differences ← compareGroups original.groups groups
      let groupsUpdate := ⟨differences,
          membersUpdated (groupEntries original.groups) (groupEntries groups)⟩
      .ok (groupUpdate original updated policiesUpdate valuesUpdate groupsUpdate)

/-- Compare groups with the original ones; nil groups are dereferenced. -/
def compareGroups (original : ConfigGroups) :
    ConfigGroups → Outcome ComputeError (List (GoString × Difference ConfigGroup))
  | .nil => .ok []
  | .absent _ _ => .panic
  | .present key group rest => do
      let difference ←
        match (groupEntries original).lookup key with
        | none => do
            let update ← computeGroupUpdate (bareGroup 0) group
            .ok (.modified none (.mk 0 update.writeSet.groups update.writeSet.values
                  update.writeSet.policies group.modPolicy))
        | some none => .panic
        | some (some originalGroup) => do
            let update ← computeGroupUpdate originalGroup group
            if update.updatedGroup = true then .ok (.modified (some update.readSet) update.writeSet)
            else .ok (.same update.readSet)
      let others ← compareGroups original rest
      .ok ((key, difference) :: others)

end

/-- The update between two configurations, without the name of the channel. -/
def compute (original updated : Config) : Outcome ComputeError ConfigUpdate := do
  let originalGroup ← deref original.channelGroup
  let updatedGroup ← deref updated.channelGroup
  let update ← computeGroupUpdate originalGroup updatedGroup
  require (update.updatedGroup = true) .noDifferences
  .ok
    { channelId := .empty
      readSet := some update.readSet
      writeSet := some update.writeSet }

/-! ## Entries of the sets -/

variable {Message : Type}

section

variable {key : GoString} {Item : Type}

variable {entries : List (GoString × Item)}

theorem lookup_eq_none_of_forall_lt (smaller : ∀ other ∈ entries.map Prod.fst, key < other) :
    entries.lookup key = none := by
  rw [List.lookup_eq_none_iff]
  intro entry member
  have less := smaller entry.1 (List.mem_map_of_mem member)
  exact bne_iff_ne.mpr (ne_of_lt less)

theorem findEntry_filterMap (choose : Item → Option Message)
    (ordered : (entries.map Prod.fst).Pairwise (· < ·)) :
    findEntry key (entries.filterMap fun entry =>
          (choose entry.2).map fun message => (entry.1, some message)) =
      (entries.lookup key).bind choose := by
  induction entries with
  | nil => rfl
  | cons entry entries ih =>
    rcases entry with ⟨other, item⟩
    rw [List.map_cons, List.pairwise_cons] at ordered
    specialize ih ordered.2
    by_cases same : key = other
    · subst same
      rw [lookup_eq_none_of_forall_lt ordered.1, Option.bind_none] at ih
      cases chosen : choose item with
      | none => simp [chosen, ih]
      | some message => simp [findEntry, chosen]
    · rw [List.lookup_cons, beq_false_of_ne same, ← ih]
      cases chosen : choose item with
      | none => simp [chosen]
      | some message => simp [findEntry, List.lookup_cons, beq_false_of_ne same, chosen]

variable {entries : Entries Message}

theorem lookup_eq_map_some (present : ∀ entry ∈ entries, entry.2 ≠ none) :
    entries.lookup key = (findEntry key entries).map some := by
  rw [findEntry]
  cases found : entries.lookup key with
  | none => rfl
  | some message =>
    cases message with
    | none => exact absurd rfl (present _ (mem_of_lookup found))
    | some message => rfl

theorem isNone_lookup_eq_false_iff :
    (entries.lookup key).isNone = false ↔ key ∈ entryKeys entries := by
  rw [Option.isNone_eq_false_iff, Option.isSome_iff_ne_none, ne_eq, List.lookup_eq_none_iff]
  simp [entryKeys]

theorem membersUpdated_eq_false_iff {original updated : Entries Message}
    (originalOrdered : (entryKeys original).Pairwise (· < ·))
    (updatedOrdered : (entryKeys updated).Pairwise (· < ·)) :
    membersUpdated original updated = false ↔ entryKeys original = entryKeys updated := by
  simp only [membersUpdated, Bool.or_eq_false_iff, List.any_eq_false,
    Bool.not_eq_true, isNone_lookup_eq_false_iff]
  constructor
  · rintro ⟨kept, known⟩
    have originalNodup := originalOrdered.imp ne_of_lt
    have updatedNodup := updatedOrdered.imp ne_of_lt
    refine ((List.perm_ext_iff_of_nodup originalNodup updatedNodup).mpr ?_).eq_of_pairwise
      (fun _ _ _ _ less greater => (lt_asymm less greater).elim) originalOrdered updatedOrdered
    intro _
    constructor
    · intro member
      rcases List.mem_map.mp member with ⟨entry, found, rfl⟩
      exact kept entry found
    · intro member
      rcases List.mem_map.mp member with ⟨entry, found, rfl⟩
      exact known entry found
  · intro same
    constructor
    · intro entry member
      rw [← same]
      exact List.mem_map_of_mem member
    · intro entry member
      rw [same]
      exact List.mem_map_of_mem member

end

/-! ## Comparing entries without nil -/

section

variable {same : Message → Message → Bool} {unchanged : Message → Message}
  {next : Message → Message → Message} {added : Message → Message}

/-- The difference between messages that are not nil. -/
def difference (same : Message → Message → Bool)
    (unchanged : Message → Message) (next : Message → Message → Message)
    (added : Message → Message) (original : Option Message)
    (updated : Message) : Difference Message :=
  match original with
  | none => .modified none (added updated)
  | some original =>
    if same original updated = true then .same (unchanged original)
    else .modified none (next original updated)

theorem compareEntry_ok (original : Option Message) (updated : Message) :
    compareEntry same unchanged next added (original.map some) (some updated) =
      .ok (difference same unchanged next added original updated) := by
  cases original with
  | none => rfl
  | some original =>
    simp only [Option.map_some, compareEntry, deref_some, ok_bind, difference]
    split_ifs <;> rfl

theorem computeMapUpdate_ok {original updated : Entries Message}
    (originalPresent : ∀ entry ∈ original, entry.2 ≠ none)
    (updatedPresent : ∀ entry ∈ updated, entry.2 ≠ none) :
    ∃ entries, computeMapUpdate (compareEntry same unchanged next added) original
          updated = .ok ⟨entries, membersUpdated original updated⟩ ∧
        entries.map Prod.fst = entryKeys updated ∧
        ∀ key, entries.lookup key = (findEntry key updated).map
            (difference same unchanged next added (findEntry key original)) := by
  generalize members : membersUpdated original updated = flag
  suffices ∃ entries, (updated.mapM fun entry => do
          let difference ← compareEntry same unchanged next added (original.lookup entry.1) entry.2
          Outcome.ok (entry.1, difference)) = .ok entries ∧
          entries.map Prod.fst = entryKeys updated ∧
          ∀ key, entries.lookup key = (findEntry key updated).map
              (difference same unchanged next added (findEntry key original)) by
    rcases this with ⟨entries, computed, keys, lookups⟩
    refine ⟨entries, ?_, keys, lookups⟩
    rw [computeMapUpdate, computed, ok_bind, members]
  clear members
  induction updated with
  | nil => exact ⟨[], rfl, rfl, fun key => rfl⟩
  | cons entry updated ih =>
    rcases entry with ⟨first, _⟩
    rw [List.forall_mem_cons] at updatedPresent
    rcases Option.ne_none_iff_exists'.mp updatedPresent.1 with ⟨value, isSome⟩
    cases isSome
    rcases ih updatedPresent.2 with ⟨entries, computed, keys, lookups⟩
    refine ⟨(first, difference same unchanged next added
          (findEntry first original) value) :: entries, ?_, ?_, ?_⟩
    · rw [List.mapM_cons, computed, lookup_eq_map_some originalPresent, compareEntry_ok]
      rfl
    · simp only [entryKeys] at keys
      simp only [entryKeys, List.map_cons, keys]
    · intro key
      simp only [List.lookup_cons, findEntry]
      split
      next equal =>
        rw [beq_iff_eq.mp equal]
        rfl
      next => exact lookups key

end

/-! ## Elements that differ -/

/-- Two elements are equal but for their versions and what their groups hold. -/
def SameContent : Element → Element → Prop
  | .group left, .group right =>
    left.modPolicy = right.modPolicy ∧ entryKeys (groupEntries left.groups) =
        entryKeys (groupEntries right.groups) ∧
      entryKeys left.values = entryKeys right.values ∧
      entryKeys left.policies = entryKeys right.policies
  | .value left, .value right => left.modPolicy = right.modPolicy ∧ left.value = right.value
  | .policy left, .policy right => left.modPolicy = right.modPolicy ∧ left.policy = right.policy
  | .absent, .absent => True
  | _, _ => False

instance : DecidableRel SameContent
  | .group _, .group _ => instDecidableAnd
  | .value _, .value _ => instDecidableAnd
  | .policy _, .policy _ => instDecidableAnd
  | .absent, .absent => instDecidableTrue
  | .group _, .value _ | .group _, .policy _ | .group _, .absent
  | .value _, .group _ | .value _, .policy _ | .value _, .absent
  | .policy _, .group _ | .policy _, .value _ | .policy _, .absent
  | .absent, .group _ | .absent, .value _ | .absent, .policy _ => instDecidableFalse

def elementVersion (element : Element) : UInt64 := (Comparable.mk .empty [] element).version

/-- The version that an element gets, given the element that it replaces. -/
def revisedVersion (original : Option Element) (element : Element) : UInt64 :=
  match original with
  | none => 0
  | some existing =>
    if SameContent existing element then elementVersion existing
    else elementVersion existing + 1

/-- An element is new, or differs from the one it replaces. -/
def Changed (original : Option Element) (element : Element) : Prop :=
  ∀ existing, original = some existing → ¬ SameContent existing element

/--
How the read set and the write set of an update show the elements at one
address.
-/
structure Shown (original updated read written : Option Element) : Prop where
  changed : ∀ element, updated = some element → Changed original element →
      ∃ shown, written = some shown ∧ SameContent shown element ∧
        elementVersion shown = revisedVersion original element ∧
        ∀ before, read = some before → elementVersion before ≠ elementVersion shown
  kept : ∀ shown, written = some shown →
      (∀ element, updated = some element → ¬ Changed original element) →
      ∃ before, read = some before ∧ elementVersion before = elementVersion shown
  read : ∀ before, read = some before → ∃ existing, original = some existing ∧
        elementVersion before = elementVersion existing

theorem version_succ_ne (version : UInt64) : version ≠ version + 1 := by
  intro same
  have shifted : version - version = version + 1 - version := by rw [← same]
  rw [UInt64.sub_self, UInt64.add_comm, UInt64.add_sub_cancel] at shifted
  cases shifted

/-- Messages as elements, and how their replacements are made. -/
structure Replacing {Message : Type} (wrap : Message → Element)
    (same : Message → Message → Bool) (unchanged : Message → Message)
    (next : Message → Message → Message) (added : Message → Message) :
    Prop where
  same : ∀ original updated, same original updated = true ↔
      SameContent (wrap original) (wrap updated)
  unchanged : ∀ original, elementVersion (wrap (unchanged original)) =
        elementVersion (wrap original)
  next : ∀ original updated, SameContent (wrap (next original updated)) (wrap updated) ∧
        elementVersion (wrap (next original updated)) = elementVersion (wrap original) + 1
  added : ∀ updated, SameContent (wrap (added updated)) (wrap updated) ∧
        elementVersion (wrap (added updated)) = 0

variable {wrap : Message → Element}

section

variable {same : Message → Message → Bool} {unchanged : Message → Message}
  {next : Message → Message → Message} {added : Message → Message}

theorem shown_difference (replacing : Replacing wrap same unchanged next added)
    (withSame : Bool) (original updated : Option Message) :
    Shown (original.map wrap) (updated.map wrap)
      (((updated.map (difference same unchanged next added original)).bind
        (Difference.select (.readSet withSame))).map wrap)
      (((updated.map (difference same unchanged next added original)).bind
        (Difference.select (.writeSet withSame))).map wrap) := by
  cases updated with
  | none => constructor <;> simp
  | some updated =>
    cases original with
    | none =>
      rcases replacing.added updated with ⟨content, version⟩
      simp only [Option.map_some, Option.map_none, Option.bind_some, difference, Difference.select]
      constructor
      · rintro element ⟨⟩ _
        exact ⟨_, rfl, content, version, by simp⟩
      · intro shown _ none
        exact absurd (by rintro existing ⟨⟩) (none _ rfl)
      · rintro before ⟨⟩
    | some original =>
      simp only [Option.map_some, Option.bind_some, difference]
      by_cases equal : same original updated = true
      · rw [if_pos equal]
        have content := (replacing.same original updated).mp equal
        constructor
        · rintro element ⟨⟩ changed
          exact absurd content (changed _ rfl)
        · intro shown written _
          exact ⟨shown, written, rfl⟩
        · intro before found
          refine ⟨_, rfl, ?_⟩
          cases withSame with
          | false => cases found
          | true =>
            cases found
            exact replacing.unchanged original
      · rw [if_neg equal]
        have content : ¬ SameContent (wrap original) (wrap updated) :=
          fun content => equal ((replacing.same _ _).mpr content)
        rcases replacing.next original updated with ⟨nextContent, version⟩
        constructor
        · rintro element ⟨⟩ _
          refine ⟨_, rfl, nextContent, ?_, by rintro before ⟨⟩⟩
          rw [revisedVersion, if_neg content, version]
        · intro shown _ none
          refine absurd ?_ (none _ rfl)
          rintro existing ⟨⟩
          exact content
        · rintro before ⟨⟩

end

/-! ## Well-formed trees -/

/-- The maps of a tree are maps without nil entries and with valid keys. -/
structure WellFormed (group : ConfigGroup) : Prop where
  ordered : Ordered group
  present : NilFree group
  mappable : Mappable group

/-- Entries in order, with valid keys and without nil messages. -/
structure WellFormedEntries {Message : Type}
    (entries : Entries Message) : Prop where
  ordered : (entryKeys entries).Pairwise (· < ·)
  present : ∀ entry ∈ entries, entry.2 ≠ none
  valid : ∀ entry ∈ entries, ValidKey entry.1

theorem groupEntries_ofEntries :
    ∀ entries : Entries ConfigGroup, groupEntries (ofEntries entries) = entries
  | [] => rfl
  | (_, none) :: rest
  | (_, some _) :: rest => by
    rw [ofEntries, groupEntries, groupEntries_ofEntries rest]

variable {version : UInt64} {modPolicy : GoString}

theorem wellFormed_mk_iff {groups : ConfigGroups} {values : Entries ConfigValue}
    {policies : Entries ConfigPolicy} :
    WellFormed (.mk version groups values policies modPolicy) ↔
      WellFormedEntries (groupEntries groups) ∧
        (∀ key group, (key, some group) ∈ groupEntries groups → WellFormed group) ∧
        WellFormedEntries values ∧ WellFormedEntries policies := by
  constructor
  · rintro ⟨⟨orderedGroups, groupKeys, valueKeys, policyKeys⟩,
        ⟨presentGroups, presentValues, presentPolicies⟩,
        ⟨mappableGroups, validValues, validPolicies⟩⟩
    have present := present_of_nilFreeGroups presentGroups
    refine ⟨⟨groupKeys, present, ?_⟩, ?_, ⟨valueKeys, presentValues, validValues⟩,
        ⟨policyKeys, presentPolicies, validPolicies⟩⟩
    · rintro ⟨key, group⟩ member
      rcases Option.ne_none_iff_exists'.mp (present _ member) with ⟨group, same⟩
      cases same
      exact (mappable_of_mem mappableGroups member).1
    · intro key group member
      exact ⟨orderedGroups_iff.mp orderedGroups _ _ member, nilFree_of_mem presentGroups member,
          (mappable_of_mem mappableGroups member).2⟩
  · rintro ⟨inner, wellFormed, values, policies⟩
    have all : ∀ entry ∈ groupEntries groups, ∃ group,
          entry.2 = some group ∧ ValidKey entry.1 ∧ WellFormed group := by
      rintro ⟨key, group⟩ member
      rcases Option.ne_none_iff_exists'.mp (inner.present _ member) with ⟨group, same⟩
      cases same
      exact ⟨group, rfl, inner.valid _ member, wellFormed key group member⟩
    refine ⟨⟨orderedGroups_iff.mpr fun key group member => (wellFormed key group member).ordered,
          inner.ordered, values.ordered, policies.ordered⟩,
        ⟨nilFreeGroups_iff.mpr ?_, values.present, policies.present⟩,
        ⟨mappableGroups_iff.mpr ?_, values.valid, policies.valid⟩⟩
    · intro entry member
      rcases all entry member with ⟨group, same, _, holds⟩
      exact ⟨group, same, holds.present⟩
    · intro entry member
      rcases all entry member with ⟨group, same, valid, holds⟩
      exact ⟨group, same, valid, holds.mappable⟩

theorem wellFormed_bareGroup (version : UInt64) : WellFormed (bareGroup version) := by
  refine wellFormed_mk_iff.mpr ⟨?_, ?_, ?_, ?_⟩
  · exact ⟨List.Pairwise.nil, by simp [groupEntries], by simp [groupEntries]⟩
  · simp [groupEntries]
  · exact ⟨List.Pairwise.nil, by simp, by simp⟩
  · exact ⟨List.Pairwise.nil, by simp, by simp⟩

variable {selection : Selection}

section

variable {update : MapUpdate Message}

theorem mem_set_iff {entry : GoString × Option Message} :
    entry ∈ update.set selection ↔ ∃ difference message, (entry.1, difference) ∈ update.entries ∧
        difference.select selection = some message ∧
        entry.2 = some message := by
  rw [MapUpdate.set, List.mem_filterMap]
  constructor
  · rintro ⟨⟨_, difference⟩, member, chosen⟩
    rcases Option.map_eq_some_iff.mp chosen with ⟨message, selected, rfl⟩
    exact ⟨difference, message, member, selected, rfl⟩
  · rintro ⟨difference, message, member, selected, same⟩
    refine ⟨(entry.1, difference), member, ?_⟩
    rw [selected, Option.map_some, ← same]

theorem entryKeys_set_sublist (selection : Selection) : (entryKeys (update.set selection)).Sublist
      (update.entries.map Prod.fst) := by
  rcases update with ⟨entries, _⟩
  simp only [MapUpdate.set, entryKeys]
  induction entries with
  | nil => exact List.Sublist.refl _
  | cons _ entries ih =>
    rw [List.filterMap_cons]
    split
    next => exact ih.cons _
    next _ found =>
      rcases Option.map_eq_some_iff.mp found with ⟨_, _, rfl⟩
      exact ih.cons_cons _

theorem entryKeys_set_writeSet :
    entryKeys (update.set (.writeSet true)) = update.entries.map Prod.fst := by
  rcases update with ⟨entries, _⟩
  simp only [MapUpdate.set, entryKeys]
  induction entries with
  | nil => rfl
  | cons entry entries ih =>
    have chosen : ∃ message, entry.2.select (.writeSet true) = some message := by
      rcases entry with ⟨_, message | ⟨_, written⟩⟩
      · exact ⟨message, rfl⟩
      · exact ⟨written, rfl⟩
    rcases chosen with ⟨message, chosen⟩
    simp [chosen, ih]

variable {updated : Entries Message}

theorem wellFormedEntries_set (keys : update.entries.map Prod.fst = entryKeys updated)
    (wellFormed : WellFormedEntries updated) (selection : Selection) :
    WellFormedEntries (update.set selection) := by
  constructor
  · have sublist := @entryKeys_set_sublist _ update selection
    rw [keys] at sublist
    exact wellFormed.ordered.sublist sublist
  · intro entry member
    rcases mem_set_iff.mp member with ⟨_, _, _, _, same⟩
    simp [same]
  · intro entry member
    rcases mem_set_iff.mp member with ⟨_, _, found, _, _⟩
    have key : entry.1 ∈ entryKeys updated := by
      rw [← keys]
      exact List.mem_map_of_mem found
    rcases List.mem_map.mp key with ⟨other, otherMember, same⟩
    rw [← same]
    exact wellFormed.valid other otherMember

theorem findEntry_set (keys : update.entries.map Prod.fst = entryKeys updated)
    (wellFormed : WellFormedEntries updated) (selection : Selection) (key : GoString) :
    findEntry key (update.set selection) =
      (update.entries.lookup key).bind (Difference.select selection) := by
  apply findEntry_filterMap
  rw [keys]
  exact wellFormed.ordered

end

/-! ## Updates between groups -/

/-- The sets of an update show every element as they should. -/
structure Computed (original updated : ConfigGroup) (update : GroupUpdate) : Prop where
  readSet : WellFormed update.readSet
  writeSet : WellFormed update.writeSet
  shown : ∀ address, Shown (elementAt original address) (elementAt updated address)
        (elementAt update.readSet address) (elementAt update.writeSet address)
  same : update.updatedGroup = false ↔ ∀ address element, elementAt updated address = some element →
        ¬ Changed (elementAt original address) element
  members : entryKeys (groupEntries original.groups) = [] →
      entryKeys original.values = [] → entryKeys original.policies = [] →
      entryKeys (groupEntries update.writeSet.groups) = entryKeys (groupEntries updated.groups) ∧
        entryKeys update.writeSet.values = entryKeys updated.values ∧
        entryKeys update.writeSet.policies = entryKeys updated.policies

/-- The outcome of comparing a group with the original one, if there is one. -/
def GroupCompared (original : Option ConfigGroup) (updated : ConfigGroup)
    (difference : Difference ConfigGroup) : Prop :=
  match original with
  | some original =>
    ∃ update, Computed original updated update ∧ difference =
        if update.updatedGroup = true then .modified (some update.readSet) update.writeSet
        else .same update.readSet
  | none =>
    ∃ update, Computed (bareGroup 0) updated update ∧ difference = .modified none
          (.mk 0 update.writeSet.groups update.writeSet.values
            update.writeSet.policies updated.modPolicy)

variable {group : ConfigGroup} {address : Address}

theorem elementAt_mk_of_ne_root (below : address ≠ .group []) :
    elementAt (.mk version group.groups group.values group.policies modPolicy) address =
      elementAt group address := by
  rcases address.cases_below with
    rfl | ⟨key, rfl⟩ | ⟨key, rfl⟩ | ⟨key, _, rfl⟩
  · exact absurd rfl below
  · rfl
  · rfl
  · rw [elementAt_below, elementAt_below]
    rfl

theorem elementAt_bareGroup (below : address ≠ .group []) :
    elementAt (bareGroup version) address = none := by
  rcases address.cases_below with
    rfl | ⟨key, rfl⟩ | ⟨key, rfl⟩ | ⟨key, _, rfl⟩
  · exact absurd rfl below
  · rfl
  · rfl
  · rw [elementAt_below]
    rfl

theorem changed_none (element : Element) : Changed none element := by
  rintro _ ⟨⟩

section

variable {original : Option ConfigGroup} {updated : ConfigGroup}
  {difference : Difference ConfigGroup}

section

variable (compared : GroupCompared original updated difference)
include compared

theorem shown_groupCompared (withSame : Bool) (address : Address) :
    Shown (original.bind fun group => elementAt group address) (elementAt updated address)
      ((difference.select (.readSet withSame)).bind fun group => elementAt group address)
      ((difference.select (.writeSet withSame)).bind fun group => elementAt group address) := by
  cases original with
  | some original =>
    rcases compared with ⟨update, computed, rfl⟩
    by_cases flag : update.updatedGroup = true
    · rw [if_pos flag]
      exact computed.shown address
    · rw [if_neg flag]
      have none := computed.same.mp (Bool.eq_false_of_not_eq_true flag) address
      constructor
      · intro element found changed
        exact absurd changed (none element found)
      · intro shown written _
        exact ⟨shown, written, rfl⟩
      · intro before found
        cases withSame with
        | false => cases found
        | true => exact (computed.shown address).read before found
  | none =>
    rcases compared with ⟨update, computed, rfl⟩
    simp only [Option.bind_none, Difference.select, Option.bind_some]
    by_cases root : address = .group []
    · subst root
      rcases computed.members rfl rfl rfl with ⟨groups, values, policies⟩
      constructor
      · rintro element ⟨⟩ _
        exact ⟨_, rfl, ⟨rfl, groups, values, policies⟩, rfl, by simp⟩
      · intro shown _ none
        exact absurd (changed_none _) (none _ rfl)
      · rintro before ⟨⟩
    · rw [elementAt_mk_of_ne_root root]
      have shown := computed.shown address
      rw [elementAt_bareGroup root] at shown
      constructor
      · intro element found changed
        rcases shown.changed element found changed with ⟨written, here, content, version, _⟩
        exact ⟨written, here, content, version, by simp⟩
      · intro written here none
        rcases shown.kept written here none with ⟨before, found, _⟩
        rcases shown.read before found with ⟨_, missing, _⟩
        cases missing
      · rintro before ⟨⟩

theorem exists_changed_of_groupCompared
    {written : ConfigGroup} (modified : difference.select (.writeSet false) = some written) :
    ∃ address element, elementAt updated address = some element ∧
      Changed (original.bind fun group => elementAt group address)
        element := by
  cases original with
  | some original =>
    rcases compared with ⟨_, computed, rfl⟩
    by_contra none
    push Not at none
    rw [computed.same.mpr none] at modified
    cases modified
  | none => exact ⟨.group [], _, rfl, changed_none _⟩

theorem wellFormed_of_groupCompared (selected : difference.select selection = some group) :
    WellFormed group := by
  cases original with
  | some original =>
    rcases compared with ⟨update, computed, rfl⟩
    split_ifs at selected
    · cases selection <;> cases selected
      · exact computed.readSet
      · exact computed.writeSet
    · rcases selection with withSame | withSame <;> cases withSame <;>
        cases selected <;> exact computed.readSet
  | none =>
    rcases compared with ⟨update, computed, rfl⟩
    cases selection <;> cases selected
    have written := computed.writeSet
    rcases update with ⟨_, ⟨_, _, _, _, _⟩, _⟩
    exact wellFormed_mk_iff.mpr (wellFormed_mk_iff.mp written)

end

end

/-! ## The sets of one group -/

/--
The comparison of two maps shows the elements that the entries stand for.  An
entry of a map of groups stands for all elements of the group.
-/
structure Compared {Message Place : Type}
    (view : Message → Place → Option Element) (original updated : Entries Message)
    (update : MapUpdate Message) : Prop where
  keys : update.entries.map Prod.fst = entryKeys updated
  members : update.updatedMembers = membersUpdated original updated
  shown : ∀ key place withSame, Shown ((findEntry key original).bind (view · place))
        ((findEntry key updated).bind (view · place))
        (((update.entries.lookup key).bind
          (Difference.select (.readSet withSame))).bind (view · place))
        (((update.entries.lookup key).bind
          (Difference.select (.writeSet withSame))).bind (view · place))
  modified : ∀ key difference written, update.entries.lookup key = some difference →
      difference.select (.writeSet false) = some written →
      ∃ place element, (findEntry key updated).bind (view · place) = some element ∧
          Changed ((findEntry key original).bind (view · place)) element

/-- The element that a value stands for. -/
def viewValue (value : ConfigValue) (_ : Unit) : Option Element :=
  some (.value value)

/-- The element that a policy stands for. -/
def viewPolicy (policy : ConfigPolicy) (_ : Unit) : Option Element :=
  some (.policy policy)

section

variable {original updated : ConfigGroup} {policies : MapUpdate ConfigPolicy}
  {values : MapUpdate ConfigValue} {groups : MapUpdate ConfigGroup}

theorem elementAt_value (group : ConfigGroup) (key : GoString) :
    elementAt group (.value [] key) = (findEntry key group.values).bind (viewValue · ()) := by
  rw [elementAt, groupAt, Option.bind_some, Option.map_eq_bind]
  rfl

theorem elementAt_policy (group : ConfigGroup) (key : GoString) :
    elementAt group (.policy [] key) = (findEntry key group.policies).bind (viewPolicy · ()) := by
  rw [elementAt, groupAt, Option.bind_some, Option.map_eq_bind]
  rfl

/-- The maps of two groups have been compared. -/
structure LevelCompared (original updated : ConfigGroup)
    (policies : MapUpdate ConfigPolicy) (values : MapUpdate ConfigValue)
    (groups : MapUpdate ConfigGroup) : Prop where
  originalFormed : WellFormed original
  updatedFormed : WellFormed updated
  policiesCompared : Compared viewPolicy original.policies updated.policies policies
  valuesCompared : Compared viewValue original.values updated.values values
  groupsCompared : Compared elementAt (groupEntries original.groups)
      (groupEntries updated.groups) groups
  innerFormed : ∀ key difference selection group, (key, difference) ∈ groups.entries →
      Difference.select selection difference = some group → WellFormed group

theorem wellFormed_entries (wellFormed : WellFormed updated) :
    WellFormedEntries (groupEntries updated.groups) ∧ WellFormedEntries updated.values ∧
      WellFormedEntries updated.policies := by
  cases updated with
  | mk _ groups values policies _ =>
    rcases wellFormed_mk_iff.mp wellFormed with ⟨groups, _, values, policies⟩
    exact ⟨groups, values, policies⟩

namespace LevelCompared

variable (level : LevelCompared original updated policies values groups)
include level

theorem shown_below (withSame : Bool) (readVersion writeVersion : UInt64)
    (readModPolicy writeModPolicy : GoString) (below : address ≠ .group []) :
    Shown (elementAt original address) (elementAt updated address) (elementAt
        (selectedGroup policies values groups (.readSet withSame) readVersion readModPolicy)
        address)
      (elementAt (selectedGroup policies values groups (.writeSet withSame)
          writeVersion writeModPolicy)
        address) := by
  rcases wellFormed_entries level.updatedFormed with
    ⟨wellFormedGroups, wellFormedValues, wellFormedPolicies⟩
  rcases address.cases_below with
    rfl | ⟨key, rfl⟩ | ⟨key, rfl⟩ | ⟨key, rest, rfl⟩
  · exact absurd rfl below
  · simp only [elementAt_value, selectedGroup, ConfigGroup.values,
      findEntry_set level.valuesCompared.keys wellFormedValues]
    exact level.valuesCompared.shown key () withSame
  · simp only [elementAt_policy, selectedGroup, ConfigGroup.policies,
      findEntry_set level.policiesCompared.keys wellFormedPolicies]
    exact level.policiesCompared.shown key () withSame
  · simp only [elementAt_below, selectedGroup, ConfigGroup.groups, groupEntries_ofEntries,
      findEntry_set level.groupsCompared.keys wellFormedGroups]
    exact level.groupsCompared.shown key rest withSame

theorem wellFormed_selectedGroup (selection : Selection) (version : UInt64) (modPolicy : GoString) :
    WellFormed (selectedGroup policies values groups selection version modPolicy) := by
  rcases wellFormed_entries level.updatedFormed with
    ⟨wellFormedGroups, wellFormedValues, wellFormedPolicies⟩
  refine wellFormed_mk_iff.mpr ⟨?_, ?_, ?_, ?_⟩
  · rw [groupEntries_ofEntries]
    exact wellFormedEntries_set level.groupsCompared.keys wellFormedGroups selection
  · intro key group member
    rw [groupEntries_ofEntries] at member
    rcases mem_set_iff.mp member with ⟨difference, _, found, selected, same⟩
    cases same
    exact level.innerFormed key difference selection group found selected
  · exact wellFormedEntries_set level.valuesCompared.keys wellFormedValues selection
  · exact wellFormedEntries_set level.policiesCompared.keys wellFormedPolicies selection

theorem sameContent_root_iff :
    (policies.updatedMembers || values.updatedMembers ||
        groups.updatedMembers || original.modPolicy != updated.modPolicy) =
        false ↔
      SameContent (.group original) (.group updated) := by
  rcases wellFormed_entries level.originalFormed with
    ⟨originalGroups, originalValues, originalPolicies⟩
  rcases wellFormed_entries level.updatedFormed with ⟨updatedGroups, updatedValues, updatedPolicies⟩
  rw [level.policiesCompared.members, level.valuesCompared.members, level.groupsCompared.members]
  simp only [Bool.or_eq_false_iff, bne_eq_false_iff_eq, SameContent,
    membersUpdated_eq_false_iff originalPolicies.ordered updatedPolicies.ordered,
    membersUpdated_eq_false_iff originalValues.ordered updatedValues.ordered,
    membersUpdated_eq_false_iff originalGroups.ordered updatedGroups.ordered]
  constructor
  · rintro ⟨⟨⟨samePolicies, sameValues⟩, sameGroups⟩, sameModPolicy⟩
    exact ⟨sameModPolicy, sameGroups, sameValues, samePolicies⟩
  · rintro ⟨sameModPolicy, sameGroups, sameValues, samePolicies⟩
    exact ⟨⟨⟨samePolicies, sameValues⟩, sameGroups⟩, sameModPolicy⟩

end LevelCompared

theorem exists_changed_of_set {Message Place : Type} {view : Message → Place → Option Element}
    {original updated : Entries Message} {update : MapUpdate Message}
    (compared : Compared view original updated update) (wellFormed : WellFormedEntries updated)
    (nonempty : ((update.set (.readSet false)).isEmpty &&
        (update.set (.writeSet false)).isEmpty) = false) :
    ∃ key place element, (findEntry key updated).bind (view · place) = some element ∧
        Changed ((findEntry key original).bind (view · place)) element := by
  have exists_modified : ∃ key difference written, (key, difference) ∈ update.entries ∧
        difference.select (.writeSet false) = some written := by
    rw [Bool.and_eq_false_iff] at nonempty
    rcases nonempty with read | written
    · rcases List.exists_mem_of_ne_nil _
        (by simpa [List.isEmpty_iff] using read) with ⟨entry, member⟩
      rcases mem_set_iff.mp member with ⟨difference, _, found, selected, _⟩
      rcases difference with message | ⟨_, written⟩
      · cases selected
      · exact ⟨entry.1, _, written, found, rfl⟩
    · rcases List.exists_mem_of_ne_nil _
        (by simpa [List.isEmpty_iff] using written) with ⟨entry, member⟩
      rcases mem_set_iff.mp member with ⟨difference, message, found, selected, _⟩
      exact ⟨entry.1, difference, message, found, selected⟩
  rcases exists_modified with ⟨key, difference, written, member, selected⟩
  have found : update.entries.lookup key = some difference := by
    apply lookup_of_mem _ member
    rw [compared.keys]
    exact wellFormed.ordered
  rcases compared.modified key difference written found selected with
    ⟨place, element, here, changed⟩
  exact ⟨key, place, element, here, changed⟩

namespace LevelCompared

variable (level : LevelCompared original updated policies values groups)
include level

theorem exists_changed (modified : unmodified policies values groups = false) :
    ∃ address element, elementAt updated address = some element ∧
      Changed (elementAt original address) element := by
  rcases wellFormed_entries level.updatedFormed with
    ⟨wellFormedGroups, wellFormedValues, wellFormedPolicies⟩
  simp only [unmodified, Bool.and_assoc] at modified
  rw [← Bool.and_assoc, Bool.and_eq_false_iff] at modified
  rcases modified with policy | modified
  · rcases exists_changed_of_set level.policiesCompared wellFormedPolicies policy
      with ⟨key, _, element, found, changed⟩
    refine ⟨.policy [] key, element, ?_⟩
    rw [elementAt_policy, elementAt_policy]
    exact ⟨found, changed⟩
  rw [← Bool.and_assoc, Bool.and_eq_false_iff] at modified
  rcases modified with value | group
  · rcases exists_changed_of_set level.valuesCompared wellFormedValues value
      with ⟨key, _, element, found, changed⟩
    refine ⟨.value [] key, element, ?_⟩
    rw [elementAt_value, elementAt_value]
    exact ⟨found, changed⟩
  · rcases exists_changed_of_set level.groupsCompared wellFormedGroups group
      with ⟨key, rest, element, found, changed⟩
    refine ⟨rest.below [key], element, ?_⟩
    rw [elementAt_below, elementAt_below]
    exact ⟨found, changed⟩

omit level in
theorem selectedGroup_of_unmodified
    (none : unmodified policies values groups = true) (version : UInt64) :
    selectedGroup policies values groups (.readSet false) version .empty = bareGroup version ∧
      selectedGroup policies values groups (.writeSet false) version
        .empty = bareGroup version := by
  simp only [unmodified, Bool.and_eq_true, List.isEmpty_iff] at none
  rcases none with ⟨⟨⟨⟨⟨readPolicies, writePolicies⟩, readValues⟩, writeValues⟩, readGroups⟩,
      writeGroups⟩
  constructor
  · rw [selectedGroup, readPolicies, readValues, readGroups]
    rfl
  · rw [selectedGroup, writePolicies, writeValues, writeGroups]
    rfl

theorem groupUpdate_of_same (same : SameContent (.group original) (.group updated)) :
    groupUpdate original updated policies values groups =
      ⟨selectedGroup policies values groups (.readSet false) original.version .empty,
        selectedGroup policies values groups (.writeSet false) original.version .empty,
        !unmodified policies values groups⟩ := by
  rw [groupUpdate, if_pos (level.sameContent_root_iff.mpr same)]
  by_cases none : unmodified policies values groups = true
  · rcases selectedGroup_of_unmodified none original.version with ⟨read, write⟩
    rw [if_pos none, read, write, none]
    rfl
  · rw [if_neg none, Bool.eq_false_of_not_eq_true none]
    rfl

/-- A group that only differs inside keeps its version in both sets. -/
theorem computed_of_same (same : SameContent (.group original) (.group updated)) :
    Computed original updated (groupUpdate original updated policies values groups) := by
  rw [level.groupUpdate_of_same same]
  constructor
  · exact level.wellFormed_selectedGroup _ _ _
  · exact level.wellFormed_selectedGroup _ _ _
  · intro address
    by_cases root : address = .group []
    · subst root
      constructor
      · rintro element ⟨⟩ changed
        exact absurd same (changed _ rfl)
      · rintro shown ⟨⟩ _
        exact ⟨_, rfl, rfl⟩
      · rintro before ⟨⟩
        exact ⟨_, rfl, rfl⟩
    · exact level.shown_below _ _ _ _ _ root
  · constructor
    · intro flag address element found changed
      have none : unmodified policies values groups = true := by
        simpa using flag
      by_cases root : address = .group []
      · subst root
        cases found
        exact changed _ rfl same
      · have shown := level.shown_below false original.version original.version .empty .empty root
        rw [(selectedGroup_of_unmodified none original.version).2,
          elementAt_bareGroup root] at shown
        rcases shown.changed element found changed with ⟨_, missing, _⟩
        cases missing
    · intro none
      by_contra flag
      have modified : unmodified policies values groups = false := by
        simpa using flag
      rcases level.exists_changed modified with ⟨address, element, found, changed⟩
      exact none address element found changed
  · rcases same with ⟨_, sameGroups, sameValues, samePolicies⟩
    intro noGroups noValues noPolicies
    have empty {Message Place : Type} {view : Message → Place → Option Element}
        {before after : Entries Message}
        {update : MapUpdate Message}
        (compared : Compared view before after update)
        (keys : entryKeys after = []) (selection : Selection) :
        entryKeys (update.set selection) = entryKeys after := by
      have sublist := @entryKeys_set_sublist _ update selection
      rw [compared.keys, keys] at sublist
      rw [keys]
      exact List.sublist_nil.mp sublist
    simp only [selectedGroup, ConfigGroup.groups, ConfigGroup.values,
      ConfigGroup.policies, groupEntries_ofEntries]
    exact ⟨empty level.groupsCompared (sameGroups ▸ noGroups) _,
        empty level.valuesCompared (sameValues ▸ noValues) _,
        empty level.policiesCompared (samePolicies ▸ noPolicies) _⟩

/-- A group that differs itself is written with all of its entries. -/
theorem computed_of_not_same (different : ¬ SameContent (.group original) (.group updated)) :
    Computed original updated (groupUpdate original updated policies values groups) := by
  rw [groupUpdate, if_neg fun none => different (level.sameContent_root_iff.mp none)]
  have keys : entryKeys (groups.set (.writeSet true)) = entryKeys (groupEntries updated.groups) ∧
        entryKeys (values.set (.writeSet true)) = entryKeys updated.values ∧
        entryKeys (policies.set (.writeSet true)) = entryKeys updated.policies := by
    simp only [entryKeys_set_writeSet]
    exact ⟨level.groupsCompared.keys, level.valuesCompared.keys, level.policiesCompared.keys⟩
  constructor
  · exact level.wellFormed_selectedGroup _ _ _
  · exact level.wellFormed_selectedGroup _ _ _
  · intro address
    by_cases root : address = .group []
    · subst root
      constructor
      · rintro _ ⟨⟩ _
        refine ⟨_, rfl, ⟨rfl, ?_, keys.2.1, keys.2.2⟩, ?_, ?_⟩
        · simp only [selectedGroup, ConfigGroup.groups, groupEntries_ofEntries]
          exact keys.1
        · exact (if_neg different).symm
        · rintro before ⟨⟩
          exact version_succ_ne _
      · intro _ _ none
        refine absurd ?_ (none _ rfl)
        rintro existing ⟨⟩
        exact different
      · rintro before ⟨⟩
        exact ⟨_, rfl, rfl⟩
    · exact level.shown_below _ _ _ _ _ root
  · constructor
    · intro flag
      cases flag
    · intro none
      refine absurd ?_ (none (.group []) _ rfl)
      rintro existing ⟨⟩
      exact different
  · intro _ _ _
    simp only [selectedGroup, ConfigGroup.groups, ConfigGroup.values,
      ConfigGroup.policies, groupEntries_ofEntries]
    exact keys

/-- The sets of a group show every element as they should. -/
theorem computed :
    Computed original updated (groupUpdate original updated policies values groups) := by
  by_cases same : SameContent (.group original) (.group updated)
  · exact level.computed_of_same same
  · exact level.computed_of_not_same same

end LevelCompared

end

/-! ## Comparing whole trees -/

theorem compared_of_replacing {same : Message → Message → Bool} {unchanged : Message → Message}
    {next : Message → Message → Message} {added : Message → Message}
    (replacing : Replacing wrap same unchanged next added)
    {original updated : Entries Message}
    (originalFormed : WellFormedEntries original) (updatedFormed : WellFormedEntries updated) :
    ∃ update, computeMapUpdate (compareEntry same unchanged next added) original
          updated = .ok update ∧
        Compared (fun message (_ : Unit) => some (wrap message)) original updated update := by
  rcases @computeMapUpdate_ok _ same unchanged next added original updated
      originalFormed.present updatedFormed.present with
    ⟨_, computed, keys, lookups⟩
  have bind_wrap (message : Option Message) :
      (message.bind fun message => some (wrap message)) = message.map wrap := by
    cases message <;> rfl
  refine ⟨_, computed, keys, rfl, ?_, ?_⟩
  · intro key _ withSame
    simp only [lookups key, bind_wrap]
    exact shown_difference replacing withSame _ _
  · intro key _ _ found selected
    rw [lookups key] at found
    rcases Option.map_eq_some_iff.mp found with ⟨message, here, rfl⟩
    refine ⟨(), wrap message, ?_, ?_⟩
    · rw [here]
      rfl
    · rw [bind_wrap]
      intro _ found content
      rcases Option.map_eq_some_iff.mp found with ⟨original, same, rfl⟩
      rw [same, difference, if_pos ((replacing.same original message).mpr content)] at selected
      cases selected

theorem replacing_values :
    Replacing .value (fun original updated =>
        original.modPolicy == updated.modPolicy && original.value == updated.value)
      (fun original => ⟨original.version, none, .empty⟩)
      (fun original updated => ⟨original.version + 1, updated.value, updated.modPolicy⟩)
      (fun updated => ⟨0, updated.value, updated.modPolicy⟩) := by
  constructor
  · intro original updated
    rw [Bool.and_eq_true, beq_iff_eq, beq_iff_eq]
    rfl
  · intro original
    rfl
  · intro original updated
    exact ⟨⟨rfl, rfl⟩, rfl⟩
  · intro updated
    exact ⟨⟨rfl, rfl⟩, rfl⟩

theorem replacing_policies :
    Replacing .policy (fun original updated =>
        original.modPolicy == updated.modPolicy && original.policy == updated.policy)
      (fun original => ⟨original.version, none, .empty⟩)
      (fun original updated => ⟨original.version + 1, updated.policy, updated.modPolicy⟩)
      (fun updated => ⟨0, updated.policy, updated.modPolicy⟩) := by
  constructor
  · intro original updated
    rw [Bool.and_eq_true, beq_iff_eq, beq_iff_eq]
    rfl
  · intro original
    rfl
  · intro original updated
    exact ⟨⟨rfl, rfl⟩, rfl⟩
  · intro updated
    exact ⟨⟨rfl, rfl⟩, rfl⟩

/-- The groups of a group form a map of well-formed trees. -/
structure WellFormedGroups (groups : ConfigGroups) : Prop where
  entries : WellFormedEntries (groupEntries groups)
  inner : ∀ key group, (key, some group) ∈ groupEntries groups → WellFormed group

theorem WellFormed.groups (wellFormed : WellFormed group) : WellFormedGroups group.groups := by
  cases group with
  | mk _ groups _ _ _ =>
    rcases wellFormed_mk_iff.mp wellFormed with ⟨entries, inner, _⟩
    exact ⟨entries, inner⟩

theorem compared_groups {original updated : ConfigGroups}
    {entries : List (GoString × Difference ConfigGroup)} (updatedFormed : WellFormedGroups updated)
    (keys : entries.map Prod.fst = entryKeys (groupEntries updated))
    (compared : ∀ key difference, (key, difference) ∈ entries →
        ∃ group, (key, some group) ∈ groupEntries updated ∧
          GroupCompared (findEntry key (groupEntries original)) group difference) :
    Compared elementAt (groupEntries original) (groupEntries updated) ⟨entries,
        membersUpdated (groupEntries original) (groupEntries updated)⟩ := by
  have ordered := updatedFormed.entries.ordered
  refine ⟨keys, rfl, ?_, ?_⟩
  · intro key rest withSame
    cases found : entries.lookup key with
    | none =>
      have missing : findEntry key (groupEntries updated) = none := by
        by_contra present
        rw [← ne_eq, findEntry_ne_none_iff ordered updatedFormed.entries.present, ← keys] at present
        rcases List.mem_map.mp present with ⟨_, member, rfl⟩
        rw [lookup_of_mem (keys ▸ ordered) member] at found
        cases found
      simp only [missing, Option.bind_none]
      constructor <;> simp
    | some difference =>
      rcases compared key difference (mem_of_lookup found) with ⟨group, member, here⟩
      simp only [findEntry_of_mem ordered member, Option.bind_some]
      exact shown_groupCompared here withSame rest
  · intro key difference _ found selected
    rcases compared key difference (mem_of_lookup found) with ⟨group, member, here⟩
    rcases exists_changed_of_groupCompared here selected with ⟨address, element, there, changed⟩
    refine ⟨address, element, ?_, changed⟩
    rw [findEntry_of_mem ordered member]
    exact there

mutual

theorem exists_computeGroupUpdate :
    ∀ (updated : ConfigGroup) {original : ConfigGroup}, WellFormed original → WellFormed updated →
        ∃ update, computeGroupUpdate original updated = .ok update ∧
          Computed original updated update
  | .mk version groups values policies modPolicy, original, originalFormed,
    updatedFormed => by
      rcases wellFormed_entries originalFormed with ⟨_, originalValues, originalPolicies⟩
      rcases wellFormed_mk_iff.mp updatedFormed with
        ⟨groupsFormed, inner, updatedValues, updatedPolicies⟩
      rcases compared_of_replacing replacing_policies originalPolicies updatedPolicies with
        ⟨policiesUpdate, policiesComputed, policiesCompared⟩
      rcases compared_of_replacing replacing_values originalValues updatedValues with
        ⟨valuesUpdate, valuesComputed, valuesCompared⟩
      rcases exists_compareGroups groups originalFormed.groups ⟨groupsFormed, inner⟩ with
        ⟨entries, entriesComputed, keys, compared⟩
      have level : LevelCompared original
            (.mk version groups values policies modPolicy) policiesUpdate
            valuesUpdate
            ⟨entries, membersUpdated (groupEntries original.groups) (groupEntries groups)⟩ := by
        refine ⟨originalFormed, updatedFormed, policiesCompared, valuesCompared,
          compared_groups ⟨groupsFormed, inner⟩ keys compared, ?_⟩
        intro key difference _ _ member selected
        rcases compared key difference member with ⟨_, _, here⟩
        exact wellFormed_of_groupCompared here selected
      refine ⟨_, ?_, level.computed⟩
      rw [computeGroupUpdate, computePoliciesMapUpdate, computeValuesMapUpdate, policiesComputed,
        ok_bind, valuesComputed, ok_bind, entriesComputed, ok_bind]

theorem exists_compareGroups :
    ∀ (updated : ConfigGroups) {original : ConfigGroups},
      WellFormedGroups original → WellFormedGroups updated →
        ∃ entries, compareGroups original updated = .ok entries ∧
          entries.map Prod.fst = entryKeys (groupEntries updated) ∧
          ∀ key difference, (key, difference) ∈ entries →
            ∃ group, (key, some group) ∈ groupEntries updated ∧
              GroupCompared (findEntry key (groupEntries original)) group difference
  | .nil, _, _, _ => ⟨[], rfl, rfl, by simp⟩
  | .absent _ _, _, _, updatedFormed =>
    absurd rfl (updatedFormed.entries.present _ List.mem_cons_self)
  | .present first group rest, original, originalFormed, updatedFormed => by
    have groupFormed := updatedFormed.inner first group List.mem_cons_self
    have restFormed : WellFormedGroups rest := by
      rcases updatedFormed with ⟨⟨ordered, present, valid⟩, inner⟩
      rw [groupEntries, entryKeys, List.map_cons, List.pairwise_cons] at ordered
      refine ⟨⟨ordered.2, ?_, ?_⟩, ?_⟩
      · exact (List.forall_mem_cons.mp present).2
      · exact (List.forall_mem_cons.mp valid).2
      · intro key other member
        exact inner key other (List.mem_cons_of_mem _ member)
    rcases exists_compareGroups rest originalFormed restFormed with
      ⟨entries, computed, keys, compared⟩
    have lookup := @lookup_eq_map_some _ first _ originalFormed.entries.present
    have compareFirst : ∃ difference, GroupCompared (findEntry first (groupEntries original)) group
              difference ∧
            compareGroups original (.present first group rest) =
              .ok ((first, difference) :: entries) := by
      cases found : findEntry first (groupEntries original) with
      | none =>
        rcases exists_computeGroupUpdate group (wellFormed_bareGroup 0) groupFormed with
          ⟨update, updateComputed, shown⟩
        refine ⟨_, ⟨update, shown, rfl⟩, ?_⟩
        simp only [compareGroups, lookup, found, Option.map_none, updateComputed, ok_bind, computed]
      | some other =>
        rcases exists_computeGroupUpdate group
            (originalFormed.inner first other (mem_of_findEntry found))
            groupFormed with
          ⟨update, updateComputed, shown⟩
        refine ⟨_, ⟨update, shown, rfl⟩, ?_⟩
        simp only [compareGroups, lookup, found, Option.map_some, updateComputed, ok_bind, computed]
        split_ifs <;> rfl
    rcases compareFirst with ⟨difference, here, result⟩
    refine ⟨_, result, ?_, ?_⟩
    · simp only [entryKeys] at keys
      simp only [List.map_cons, keys, entryKeys, groupEntries]
    · intro key other member
      rcases List.mem_cons.mp member with same | later
      · cases same
        exact ⟨group, List.mem_cons_self, here⟩
      · rcases compared key other later with ⟨inner, found, there⟩
        exact ⟨inner, List.mem_cons_of_mem _ found, there⟩

end

end Fabric.ConfigTx.Compute
