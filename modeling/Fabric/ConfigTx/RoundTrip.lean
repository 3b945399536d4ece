import Fabric.ConfigTx.Compute

/-!
# Computed updates lead to the updated configuration

The manager of the original configuration accepts an update that has been
computed from two configurations, provided that the policies of the modified
elements are satisfied.  The configuration that the update leads to is the
updated one, in which unchanged elements keep their versions, modified elements
have the next version and new elements start at version zero.
-/

namespace Fabric.ConfigTx.RoundTrip

open Std (ExtTreeMap)
open Library Outcome ByteString Protos ConfigTx.Tree Manager Elements Authorization Compute

/-! ## Trees with other versions -/

def mapEntries {Message : Type} (change : GoString → Message → Message)
    (entries : Entries Message) :
    Entries Message :=
  entries.map fun entry => (entry.1, entry.2.map (change entry.1))

mutual

/-- The tree whose elements have the versions that their addresses are given. -/
def revise (version : Address → Element → UInt64) : ConfigGroup → ConfigGroup
  | group@(.mk _ groups values policies modPolicy) =>
    .mk (version (.group []) (.group group)) (reviseGroups version groups) (mapEntries
        (fun key value => { value with version := version (.value [] key) (.value value) })
        values)
      (mapEntries (fun key policy =>
          { policy with version := version (.policy [] key) (.policy policy) })
        policies)
      modPolicy

def reviseGroups (version : Address → Element → UInt64) : ConfigGroups → ConfigGroups
  | .nil => .nil
  | .absent key rest => .absent key (reviseGroups version rest)
  | .present key group rest =>
    .present key (revise (fun address => version (address.below [key])) group)
      (reviseGroups version rest)

end

def eraseVersions (group : ConfigGroup) : ConfigGroup :=
  revise (fun _ _ => 0) group

/-- The element with the version that its address is given. -/
def reviseElement (version : Address → Element → UInt64) : Address → Element → Element
  | .group path, .group group => .group (revise (fun inner => version (inner.below path)) group)
  | address, .value value => .value { value with version := version address (.value value) }
  | address, .policy policy => .policy { policy with version := version address (.policy policy) }
  | _, element => element

variable {Message : Type}

section

variable (change : GoString → Message → Message) {entries : Entries Message}

theorem entryKeys_mapEntries : entryKeys (mapEntries change entries) = entryKeys entries := by
  simp [entryKeys, mapEntries]

theorem findEntry_mapEntries (key : GoString) :
    findEntry key (mapEntries change entries) = (findEntry key entries).map (change key) := by
  induction entries with
  | nil => rfl
  | cons entry entries ih =>
    rcases entry with ⟨other, message⟩
    simp only [findEntry, mapEntries] at ih
    simp only [findEntry, mapEntries, List.map_cons, List.lookup_cons]
    by_cases same : key = other
    · subst same
      cases message <;> simp
    · rw [beq_false_of_ne same]
      exact ih

theorem wellFormedEntries_mapEntries (wellFormed : WellFormedEntries entries) :
    WellFormedEntries (mapEntries change entries) := by
  rcases wellFormed with ⟨ordered, present, valid⟩
  refine ⟨?_, ?_, ?_⟩
  · rw [entryKeys_mapEntries]
    exact ordered
  · rw [mapEntries, List.forall_mem_map]
    intro entry member
    rw [ne_eq, Option.map_eq_none_iff]
    exact present entry member
  · rw [mapEntries, List.forall_mem_map]
    exact valid

/-- Entries in order are determined by their keys and their lookups. -/
theorem eq_map_findEntry (ordered : (entryKeys entries).Pairwise (· < ·)) :
    entries = (entryKeys entries).map fun key => (key, findEntry key entries) := by
  have found : ∀ entry ∈ entries, (entry.1, findEntry entry.1 entries) = entry := by
    intro entry member
    rw [findEntry_of_mem ordered member]
  calc
    entries = entries.map id := (List.map_id entries).symm
    _ = entries.map fun entry => (entry.1, findEntry entry.1 entries) :=
      (List.map_congr_left found).symm
    _ = _ := by
      rw [entryKeys, List.map_map]
      rfl

end

theorem groupEntries_reviseGroups (version : Address → Element → UInt64) :
    ∀ groups : ConfigGroups, groupEntries (reviseGroups version groups) = mapEntries
          (fun key => revise fun address => version (address.below [key]))
          (groupEntries groups)
  | .nil => rfl
  | .absent _ rest
  | .present _ _ rest => by
    simp only [reviseGroups, groupEntries, mapEntries, List.map_cons,
      groupEntries_reviseGroups version rest]
    rfl

theorem groupAt_revise (version : Address → Element → UInt64) (root : ConfigGroup)
    (path : List GoString) :
    groupAt (revise version root) path = (groupAt root path).map
        (revise fun address => version (address.below path)) := by
  induction path generalizing version root with
  | nil => simp [groupAt]
  | cons key path ih =>
    cases root with
    | mk _ groups _ _ _ =>
      simp only [groupAt, revise, ConfigGroup.groups,
        groupEntries_reviseGroups, findEntry_mapEntries]
      cases findEntry key (groupEntries groups) with
      | none => rfl
      | some _ =>
        simp only [Option.map_some, Option.bind_some, ih,
          Address.below_below, List.singleton_append]

theorem elementAt_revise (version : Address → Element → UInt64) (root : ConfigGroup)
    (address : Address) :
    elementAt (revise version root) address =
      (elementAt root address).map (reviseElement version address) := by
  rcases address with path | ⟨path, key⟩ | ⟨path, key⟩
  · simp only [elementAt, groupAt_revise, Option.map_map]
    rfl
  · simp only [elementAt, groupAt_revise]
    cases groupAt root path with
    | none => rfl
    | some group =>
      rcases group with ⟨_, _, values, _, _⟩
      simp only [Option.map_some, Option.bind_some, revise, ConfigGroup.values,
        findEntry_mapEntries, Option.map_map, Address.below, List.append_nil]
      rfl
  · simp only [elementAt, groupAt_revise]
    cases groupAt root path with
    | none => rfl
    | some group =>
      rcases group with ⟨_, _, _, policies, _⟩
      simp only [Option.map_some, Option.bind_some, revise, ConfigGroup.policies,
        findEntry_mapEntries, Option.map_map, Address.below, List.append_nil]
      rfl

variable {address : Address} {element : Element} {version : Address → Element → UInt64}

theorem sameContent_reviseElement {root : ConfigGroup}
    (found : elementAt root address = some element) :
    SameContent element (reviseElement version address element) ∧
      elementVersion (reviseElement version address element) = version address element := by
  rcases address with path | ⟨path, key⟩ | ⟨path, key⟩
  · rcases Option.map_eq_some_iff.mp found with ⟨⟨_, groups, values, policies, _⟩, _, rfl⟩
    constructor
    · simp only [SameContent, reviseElement, revise, ConfigGroup.modPolicy,
        ConfigGroup.groups, ConfigGroup.values, ConfigGroup.policies,
        groupEntries_reviseGroups, entryKeys_mapEntries, and_self]
    · simp [elementVersion, Comparable.version, reviseElement, revise,
        ConfigGroup.version, Address.below]
  · rcases Option.bind_eq_some_iff.mp found with ⟨_, _, held⟩
    rcases Option.map_eq_some_iff.mp held with ⟨_, _, rfl⟩
    exact ⟨⟨rfl, rfl⟩, rfl⟩
  · rcases Option.bind_eq_some_iff.mp found with ⟨_, _, held⟩
    rcases Option.map_eq_some_iff.mp held with ⟨_, _, rfl⟩
    exact ⟨⟨rfl, rfl⟩, rfl⟩

theorem wellFormed_revise {group : ConfigGroup} (version : Address → Element → UInt64)
    (wellFormed : WellFormed group) :
    WellFormed (revise version group) := by
  induction group using groupInduction generalizing version with
  | step group ih =>
    rcases group with ⟨_, groups, _, _, _⟩
    rcases wellFormed_mk_iff.mp wellFormed with ⟨groupsFormed, inner, valuesFormed, policiesFormed⟩
    refine wellFormed_mk_iff.mpr ⟨?_, ?_, wellFormedEntries_mapEntries _ valuesFormed,
        wellFormedEntries_mapEntries _ policiesFormed⟩
    · rw [groupEntries_reviseGroups]
      exact wellFormedEntries_mapEntries _ groupsFormed
    · intro key later member
      rw [groupEntries_reviseGroups, mapEntries, List.mem_map] at member
      rcases member with ⟨⟨_, _ | before⟩, listed, same⟩
      · cases same
      · cases same
        exact ih _ before listed _ (inner _ before listed)

/-! ## Trees that are equal but for their versions -/

variable {left right : Element}

theorem sameContent_symm (same : SameContent left right) : SameContent right left := by
  cases left <;> cases right <;> simp_all [SameContent]

theorem sameContent_trans {first second third : Element}
    (left : SameContent first second) (right : SameContent second third) :
    SameContent first third := by
  cases first <;> cases second <;> cases third <;> simp_all [SameContent]

/-- No element of the updated tree differs from the original one. -/
def Unchanged (original updated : ConfigGroup) : Prop :=
  ∀ address element, elementAt updated address = some element →
    ¬ Changed (elementAt original address) element

variable {original updated : ConfigGroup}

theorem Unchanged.exists_same (unchanged : Unchanged original updated)
    (found : elementAt updated address = some element) :
    ∃ existing, elementAt original address = some existing ∧ SameContent existing element := by
  have same := unchanged address element found
  simp only [Changed, not_forall, not_not] at same
  rcases same with ⟨existing, here, content⟩
  exact ⟨existing, here, content⟩

theorem unchanged_of_eraseVersions (same : eraseVersions original = eraseVersions updated) :
    Unchanged original updated := by
  intro address _ found changed
  have revised := elementAt_revise (fun _ _ => 0) updated address
  rw [found, Option.map_some, ← eraseVersions, ← same, eraseVersions,
    elementAt_revise, Option.map_eq_some_iff] at revised
  rcases revised with ⟨existing, here, equal⟩
  refine changed existing here ?_
  have left := (@sameContent_reviseElement _ _ (fun _ _ => 0) _ here).1
  rw [equal] at left
  exact sameContent_trans left (sameContent_symm (sameContent_reviseElement found).1)

theorem mapEntries_eq_of_findEntry {Message : Type} {change : GoString → Message → Message}
    {original updated : Entries Message}
    (originalFormed : WellFormedEntries original) (updatedFormed : WellFormedEntries updated)
    (keys : entryKeys original = entryKeys updated)
    (same : ∀ key message, findEntry key updated = some message →
        ∃ before, findEntry key original = some before ∧ change key before = change key message) :
    mapEntries change original = mapEntries change updated := by
  rw [eq_map_findEntry (wellFormedEntries_mapEntries change originalFormed).ordered,
    eq_map_findEntry (wellFormedEntries_mapEntries change updatedFormed).ordered,
    entryKeys_mapEntries, entryKeys_mapEntries, keys]
  apply List.map_congr_left
  intro key member
  rw [findEntry_mapEntries, findEntry_mapEntries]
  have present := (findEntry_ne_none_iff updatedFormed.ordered updatedFormed.present).mpr member
  rcases Option.ne_none_iff_exists'.mp present with ⟨message, found⟩
  rcases same key message found with ⟨before, here, equal⟩
  rw [found, here, Option.map_some, Option.map_some, equal]

theorem ofEntries_groupEntries : ∀ groups : ConfigGroups, ofEntries (groupEntries groups) = groups
  | .nil => rfl
  | .absent _ rest
  | .present _ _ rest => by
    rw [groupEntries, ofEntries, ofEntries_groupEntries rest]

theorem groupEntries_injective {left right : ConfigGroups}
    (same : groupEntries left = groupEntries right) : left = right := by
  rw [← ofEntries_groupEntries left, same, ofEntries_groupEntries]

variable {key : GoString} {group : ConfigGroup}

section

variable (unchanged : Unchanged original updated)
include unchanged

theorem Unchanged.inner (found : findEntry key (groupEntries updated.groups) = some group) :
    ∃ before, findEntry key (groupEntries original.groups) = some before ∧
      Unchanged before group := by
  have below (rest : Address) {element : Element} (here : elementAt group rest = some element) :
      elementAt updated (rest.below [key]) = some element := by
    rw [elementAt_below, found]
    exact here
  rcases unchanged.exists_same (below (.group []) rfl) with ⟨_, existing, _⟩
  rw [elementAt_below, Option.bind_eq_some_iff] at existing
  rcases existing with ⟨before, member, _⟩
  refine ⟨before, member, ?_⟩
  intro rest element here
  have same := unchanged (rest.below [key]) element (below rest here)
  rw [elementAt_below, member] at same
  exact same

theorem Unchanged.value {value : ConfigValue} (found : findEntry key updated.values = some value) :
    ∃ before, findEntry key original.values = some before ∧
      ({ before with version := 0 } : ConfigValue) = { value with version := 0 } := by
  rcases @Unchanged.exists_same (.value [] key) (.value value) _ _ unchanged
      (by simp [elementAt, groupAt, found]) with
    ⟨_, here, content⟩
  rcases Option.map_eq_some_iff.mp here with ⟨before, member, rfl⟩
  rcases content with ⟨modPolicy, bytes⟩
  exact ⟨before, member, by rw [modPolicy, bytes]⟩

theorem Unchanged.policy {policy : ConfigPolicy}
    (found : findEntry key updated.policies = some policy) :
    ∃ before, findEntry key original.policies = some before ∧
      ({ before with version := 0 } : ConfigPolicy) = { policy with version := 0 } := by
  rcases @Unchanged.exists_same (.policy [] key) (.policy policy) _ _ unchanged
      (by simp [elementAt, groupAt, found]) with
    ⟨_, here, content⟩
  rcases Option.map_eq_some_iff.mp here with ⟨before, member, rfl⟩
  rcases content with ⟨modPolicy, common⟩
  exact ⟨before, member, by rw [modPolicy, common]⟩

end

theorem eraseVersions_of_unchanged (originalFormed : WellFormed original)
    (updatedFormed : WellFormed updated) (unchanged : Unchanged original updated) :
    eraseVersions original = eraseVersions updated := by
  induction updated using groupInduction generalizing original with
  | step updated ih =>
    rcases updated with ⟨_, updatedGroups, _, _, _⟩
    rcases original with ⟨_, originalGroups, _, _, _⟩
    rcases wellFormed_mk_iff.mp originalFormed with
      ⟨originalGroupsFormed, originalInner, originalValuesFormed, originalPoliciesFormed⟩
    rcases wellFormed_mk_iff.mp updatedFormed with
      ⟨updatedGroupsFormed, updatedInner, updatedValuesFormed, updatedPoliciesFormed⟩
    rcases @Unchanged.exists_same (.group []) _ _ _ unchanged rfl with
      ⟨_, ⟨⟩, sameModPolicy, groupKeys, valueKeys, policyKeys⟩
    simp only [ConfigGroup.modPolicy] at sameModPolicy
    simp only [eraseVersions, revise, sameModPolicy]
    congr 1
    · apply groupEntries_injective
      rw [groupEntries_reviseGroups, groupEntries_reviseGroups]
      apply mapEntries_eq_of_findEntry originalGroupsFormed updatedGroupsFormed groupKeys
      intro key group found
      rcases unchanged.inner found with ⟨before, here, inner⟩
      have listed := mem_of_findEntry found
      refine ⟨before, here, ?_⟩
      exact ih key group listed (originalInner key before (mem_of_findEntry here))
          (updatedInner key group listed) inner
    · apply mapEntries_eq_of_findEntry originalValuesFormed updatedValuesFormed valueKeys
      intro key value found
      exact unchanged.value found
    · apply mapEntries_eq_of_findEntry originalPoliciesFormed updatedPoliciesFormed policyKeys
      intro key policy found
      exact unchanged.policy found

theorem eraseVersions_eq_iff (originalFormed : WellFormed original)
    (updatedFormed : WellFormed updated) :
    eraseVersions original = eraseVersions updated ↔ Unchanged original updated :=
  ⟨unchanged_of_eraseVersions, eraseVersions_of_unchanged originalFormed updatedFormed⟩

/-! ## The update is accepted -/

/-- The mod policies of the elements of a tree are valid, and none is empty. -/
def ValidModPolicies (group : ConfigGroup) : Prop :=
  ∀ address element, elementAt group address = some element →
    validateModPolicy (address.comparable element).modPolicy = .ok ()

section

variable {Resources : Type} {handlers : Handlers Resources} {codec : Codec}
  {cm : ConfigManager Resources} {update : GroupUpdate}

/-- The policies of the elements that the update modifies are satisfied. -/
def PoliciesSatisfied (handlers : Handlers Resources) (cm : ConfigManager Resources)
    (signedData : List SignedData) (original updated : ConfigGroup) : Prop :=
  ∀ address existing element, elementAt original address = some existing →
    elementAt updated address = some element →
    ¬ SameContent existing element →
    Satisfied handlers cm signedData (address.comparable existing)

theorem modPolicy_of_sameContent (same : SameContent left right) (address : Address) :
    (address.comparable left).modPolicy =
      (address.comparable right).modPolicy := by
  cases left <;> cases right <;> simp_all [SameContent, Address.comparable, Comparable.modPolicy]

theorem sameElement_of_sameContent (same : SameContent left right)
    (version : elementVersion left = elementVersion right) :
    SameElement left right := by
  cases left with
  | group left =>
    cases right with
    | group right => exact ⟨version, same⟩
    | value _ | policy _ | absent => exact same.elim
  | value left =>
    cases right with
    | value right =>
      rcases left with ⟨_, _, _⟩
      rcases right with ⟨_, _, _⟩
      simp_all [SameContent, SameElement, elementVersion, Comparable.version]
    | group _ | policy _ | absent => exact same.elim
  | policy left =>
    cases right with
    | policy right =>
      rcases left with ⟨_, _, _⟩
      rcases right with ⟨_, _, _⟩
      simp_all [SameContent, SameElement, elementVersion, Comparable.version]
    | group _ | value _ | absent => exact same.elim
  | absent =>
    cases right with
    | absent => trivial
    | group _ | value _ | policy _ => exact same.elim

variable {readSet writeSet : ConfigMap}

section

variable (computed : Computed original updated update)
  (readMapped : mapConfig (some update.readSet) = .ok readSet)
  (writeMapped : mapConfig (some update.writeSet) = .ok writeSet)

include computed readMapped writeMapped

theorem getElem?_computeDeltaSet_iff {name : GoString} {cg : Comparable} :
    (computeDeltaSet readSet writeSet)[name]? = some cg ↔
      ∃ address shown element, elementAt update.writeSet address = some shown ∧
          elementAt updated address = some element ∧
          Changed (elementAt original address) element ∧
          name = address.name ∧ cg = address.comparable shown := by
  rw [computeDeltaSet, ExtTreeMap.getElem?_filter', Option.filter_eq_some_iff,
    getElem?_mapConfig_eq_some_iff writeMapped computed.writeSet.ordered computed.writeSet.present]
  have readLookup {address : Address} (valid : address.Valid) :=
    getElem?_mapConfig readMapped computed.readSet.ordered computed.readSet.present valid
  constructor
  · rintro ⟨⟨address, shown, here, rfl, rfl⟩, differs⟩
    have valid := valid_of_elementAt computed.writeSet.mappable here
    rw [readLookup valid] at differs
    by_contra none
    push Not at none
    rcases (computed.shown address).kept shown here (fun element found changed =>
          none address shown element here found changed rfl rfl) with
      ⟨before, read, version⟩
    rw [read] at differs
    simp only [Option.map_some, bne_iff_ne, ne_eq] at differs
    exact differs version
  · rintro ⟨address, shown, element, here, found, changed, rfl, rfl⟩
    refine ⟨⟨address, shown, here, rfl, rfl⟩, ?_⟩
    rw [readLookup (valid_of_elementAt computed.writeSet.mappable here)]
    rcases (computed.shown address).changed element found changed with ⟨_, there, _, _, differs⟩
    rw [here] at there
    cases there
    cases read : elementAt update.readSet address with
    | none => rfl
    | some before =>
      simp only [Option.map_some, bne_iff_ne, ne_eq]
      exact differs before read

theorem exists_delta_of_changed (found : elementAt updated address = some element)
    (changed : Changed (elementAt original address) element) :
    ∃ shown, (computeDeltaSet readSet writeSet)[address.name]? = some (address.comparable shown) ∧
        SameContent shown element ∧
        elementVersion shown = revisedVersion (elementAt original address) element := by
  rcases (computed.shown address).changed element found changed with
    ⟨shown, here, content, version, _⟩
  refine ⟨shown, ?_, content, version⟩
  rw [getElem?_computeDeltaSet_iff computed readMapped writeMapped]
  exact ⟨address, shown, element, here, found, changed, rfl, rfl⟩

end

variable {signedData : List SignedData}

section

variable (originalFormed : WellFormed original)
  (mapped : mapConfig (some original) = .ok cm.configMap)

include originalFormed mapped

theorem verifyReadSet_ok (computed : Computed original updated update)
    (readMapped : mapConfig (some update.readSet) = .ok readSet) :
    verifyReadSet cm.configMap readSet = .ok () := by
  rw [verifyReadSet, forM_ok_iff]
  rintro ⟨_, _⟩ member
  have found := ExtTreeMap.mem_toList_iff_getElem?_eq_some.mp member
  rw [getElem?_mapConfig_eq_some_iff readMapped computed.readSet.ordered
    computed.readSet.present] at found
  rcases found with ⟨address, before, read, rfl, rfl⟩
  rcases (computed.shown address).read before read with ⟨_, here, version⟩
  have lookup := getElem?_mapConfig mapped originalFormed.ordered originalFormed.present
      (valid_of_elementAt originalFormed.mappable here)
  rw [here, Option.map_some] at lookup
  simp only [lookup, ofOption, ok_bind, require_ok_iff]
  exact version.symm

theorem verifyDelta_of_changed
    (policies : PoliciesSatisfied handlers cm signedData original updated)
    (valid : ValidModPolicies updated) (mappable : Mappable updated) {shown element : Element}
    (found : elementAt updated address = some element)
    (changed : Changed (elementAt original address) element) (content : SameContent shown element)
    (version : elementVersion shown = revisedVersion (elementAt original address) element) :
    verifyDelta handlers cm signedData (address.name, address.comparable shown) = .ok () := by
  have lookup := getElem?_mapConfig mapped originalFormed.ordered originalFormed.present
      (valid_of_elementAt mappable found)
  have modPolicy := valid address element found
  rw [← modPolicy_of_sameContent content] at modPolicy
  simp only [verifyDelta, modPolicy, mapError, ok_bind, lookup]
  cases here : elementAt original address with
  | none =>
    rw [here] at version
    simp only [Option.map_none, require_ok_iff]
    exact version
  | some existing =>
    have different := changed existing here
    rw [here, revisedVersion, if_neg different] at version
    rcases policies address existing element here found different with ⟨policy, searched, satisfied⟩
    simp only [Option.map_some, bind_ok_iff, require_ok_iff, ofOption_ok_iff]
    refine ⟨⟨⟩, version, some policy, searched, policy, rfl, ?_⟩
    rw [satisfied]

variable (computed : Computed original updated update)
  (readMapped : mapConfig (some update.readSet) = .ok readSet)
  (writeMapped : mapConfig (some update.writeSet) = .ok writeSet)

include computed readMapped writeMapped

theorem verifyDeltaSet_ok (updatedFormed : WellFormed updated)
    (policies : PoliciesSatisfied handlers cm signedData original updated)
    (valid : ValidModPolicies updated) (modified : ¬ Unchanged original updated) :
    verifyDeltaSet handlers cm (computeDeltaSet readSet writeSet) signedData = .ok () := by
  simp only [verifyDeltaSet, bind_ok_iff, require_ok_iff, forM_ok_iff]
  refine ⟨⟨⟩, ?_, ?_⟩
  · simp only [Unchanged, not_forall, not_not] at modified
    rcases modified with ⟨address, element, found, changed⟩
    rcases exists_delta_of_changed computed readMapped writeMapped found changed with
      ⟨shown, delta, _⟩
    by_contra empty
    rw [Bool.not_eq_false, ExtTreeMap.isEmpty_iff] at empty
    rw [empty, ExtTreeMap.getElem?_empty] at delta
    cases delta
  · rintro ⟨_, _⟩ member
    have delta := ExtTreeMap.mem_toList_iff_getElem?_eq_some.mp member
    rw [getElem?_computeDeltaSet_iff computed readMapped writeMapped] at delta
    rcases delta with ⟨address, shown, element, here, found, changed, rfl, rfl⟩
    rcases (computed.shown address).changed element found changed with
      ⟨_, there, content, version, _⟩
    rw [here] at there
    cases there
    exact verifyDelta_of_changed originalFormed mapped policies valid
        updatedFormed.mappable found changed content version

theorem verifyFullProposedConfig_ok :
    verifyFullProposedConfig writeSet
      (computeUpdateResult cm.configMap (computeDeltaSet readSet writeSet)) =
      .ok () := by
  simp only [verifyFullProposedConfig, forM_ok_iff, require_ok_iff, computeUpdateResult,
    ExtTreeMap.mem_union_iff, ExtTreeMap.mem_keys]
  intro _ member
  rw [ExtTreeMap.mem_iff_isSome_getElem?, Option.isSome_iff_exists] at member
  rcases member with ⟨_, found⟩
  rw [getElem?_mapConfig_eq_some_iff writeMapped computed.writeSet.ordered
    computed.writeSet.present] at found
  rcases found with ⟨address, shown, here, rfl, rfl⟩
  by_cases changed : ∃ element, elementAt updated address = some element ∧
        Changed (elementAt original address) element
  · rcases changed with ⟨element, found, changed⟩
    rcases exists_delta_of_changed computed readMapped writeMapped found changed with ⟨_, delta, _⟩
    right
    rw [ExtTreeMap.mem_iff_isSome_getElem?, delta]
    rfl
  · push Not at changed
    rcases (computed.shown address).kept shown here changed with ⟨before, read, _⟩
    rcases (computed.shown address).read before read with ⟨_, kept, _⟩
    left
    rw [ExtTreeMap.mem_iff_isSome_getElem?,
      getElem?_mapConfig mapped originalFormed.ordered originalFormed.present
        (valid_of_elementAt originalFormed.mappable kept), kept]
    rfl

theorem configMapToConfig_computeUpdateResult (updatedFormed : WellFormed updated) :
    configMapToConfig (computeUpdateResult cm.configMap (computeDeltaSet readSet writeSet)) = .ok
        (revise (fun address element =>
            revisedVersion (elementAt original address) element)
          updated) := by
  have revised := wellFormed_revise (fun address element =>
      revisedVersion (elementAt original address) element) updatedFormed
  apply configMapToConfig_of_elementAt revised.ordered revised.present
  intro address _ here
  rw [elementAt_revise] at here
  rcases Option.map_eq_some_iff.mp here with ⟨element, found, rfl⟩
  have formed := @sameContent_reviseElement _ _ (fun address element =>
        revisedVersion (elementAt original address) element)
      _ found
  rw [computeUpdateResult, ExtTreeMap.getElem?_union]
  by_cases changed : Changed (elementAt original address) element
  · rcases exists_delta_of_changed computed readMapped writeMapped found changed with
      ⟨shown, delta, content, version⟩
    refine ⟨address.comparable shown, by rw [delta]; rfl, ?_⟩
    apply sameElement_of_sameContent
    · exact sameContent_trans content formed.1
    · rw [formed.2]
      exact version
  · -- An element that is kept is not in the delta set under its name.
    have valid := valid_of_elementAt updatedFormed.mappable found
    have unwritten : (computeDeltaSet readSet writeSet)[address.name]? = none := by
      rw [Option.eq_none_iff_forall_ne_some]
      intro _ delta
      rw [getElem?_computeDeltaSet_iff computed readMapped writeMapped] at delta
      rcases delta with ⟨_, _, _, _, there, replaced, names, _⟩
      have same := Address.name_injective valid
          (valid_of_elementAt updatedFormed.mappable there) names
      subst same
      rw [found] at there
      cases there
      exact changed replaced
    simp only [Changed, not_forall, not_not] at changed
    rcases changed with ⟨existing, kept, content⟩
    refine ⟨address.comparable existing, ?_, ?_⟩
    · rw [unwritten, Option.none_or,
        getElem?_mapConfig mapped originalFormed.ordered originalFormed.present valid, kept]
      rfl
    · apply sameElement_of_sameContent
      · exact sameContent_trans content formed.1
      · rw [formed.2, kept, revisedVersion, if_pos content]
        rfl

end

theorem exists_authorizeUpdate_of_computed (originalFormed : WellFormed original)
    (updatedFormed : WellFormed updated) (valid : ValidModPolicies updated)
    (modified : ¬ Unchanged original updated) (computed : Computed original updated update)
    (mapped : mapConfig (some original) = .ok cm.configMap)
    {configUpdateEnv : ConfigUpdateEnvelope} {signedData : List SignedData}
    (decoded : codec.unmarshalConfigUpdate configUpdateEnv.configUpdate.bytes =
        some ⟨cm.channelID, some update.readSet, some update.writeSet⟩)
    (signed : asSignedData codec configUpdateEnv = .ok signedData)
    (policies : PoliciesSatisfied handlers cm signedData original updated) :
    ∃ configMap, authorizeUpdate handlers codec cm configUpdateEnv = .ok configMap ∧
        configMapToConfig configMap = .ok (revise (fun address element =>
                revisedVersion (elementAt original address) element)
              updated) := by
  rcases exists_mapConfig computed.readSet.mappable with ⟨readSet, readMapped⟩
  rcases exists_mapConfig computed.writeSet.mappable with ⟨writeSet, writeMapped⟩
  refine ⟨computeUpdateResult cm.configMap (computeDeltaSet readSet writeSet), ?_,
      configMapToConfig_computeUpdateResult originalFormed mapped computed
        readMapped writeMapped updatedFormed⟩
  simp only [authorizeUpdate, decoded, bind_ok_iff, ofOption_ok_iff, require_ok_iff,
    mapError_ok_iff]
  exact ⟨_, rfl, ⟨⟩, rfl, readSet, readMapped, ⟨⟩,
      verifyReadSet_ok originalFormed mapped computed readMapped, writeSet,
      writeMapped, signedData, signed, ⟨⟩,
      verifyDeltaSet_ok originalFormed mapped computed readMapped
        writeMapped updatedFormed policies valid modified,
      ⟨⟩,
      verifyFullProposedConfig_ok originalFormed mapped computed readMapped writeMapped,
      rfl⟩

end

theorem eraseVersions_revise (wellFormed : WellFormed group)
    (version : Address → Element → UInt64) :
    eraseVersions (revise version group) = eraseVersions group := by
  rw [eraseVersions_eq_iff (wellFormed_revise version wellFormed) wellFormed]
  intro address element found changed
  apply changed (reviseElement version address element)
  · rw [elementAt_revise, found]
    rfl
  · exact sameContent_symm (sameContent_reviseElement found).1

/--
Between two trees with valid keys and mod policies, there is no update exactly
when they are equal but for their versions.  Otherwise the manager of the
original tree accepts the update that is computed, once its channel is filled
in and the policies of the modified elements are satisfied, and the resulting
tree is the updated one in its new versions.

The root group need not be the same, since no policy can be found for it: an
update that modifies it has no policies that are satisfied.  The bytes of values
are compared as they are in memory, so that a nil value differs from an empty
one.
-/
theorem compute_correct {original updated : Config} {originalGroup updatedGroup : ConfigGroup}
    (originalHeld : original.channelGroup = some originalGroup)
    (updatedHeld : updated.channelGroup = some updatedGroup)
    (originalFormed : WellFormed originalGroup) (updatedFormed : WellFormed updatedGroup)
    (valid : ValidModPolicies updatedGroup) :
    (compute original updated = .error .noDifferences ↔
      eraseVersions originalGroup = eraseVersions updatedGroup) ∧
    (eraseVersions originalGroup ≠ eraseVersions updatedGroup →
      ∃ update, compute original updated = .ok update ∧
        ∀ {Resources : Type} (handlers : Handlers Resources) (codec : Codec)
          (cm : ConfigManager Resources)
          (configUpdateEnv : ConfigUpdateEnvelope)
          (signedData : List SignedData),
          mapConfig (some originalGroup) = .ok cm.configMap →
          codec.unmarshalConfigUpdate configUpdateEnv.configUpdate.bytes =
            some { update with channelId := cm.channelID } →
          asSignedData codec configUpdateEnv = .ok signedData →
          PoliciesSatisfied handlers cm signedData originalGroup updatedGroup →
          ∃ configMap result, authorizeUpdate handlers codec cm configUpdateEnv = .ok configMap ∧
              configMapToConfig configMap = .ok result ∧
              eraseVersions result = eraseVersions updatedGroup ∧
              ∀ address element, elementAt updatedGroup address = some element →
                  ∃ later, elementAt result address = some later ∧ elementVersion later =
                      revisedVersion (elementAt originalGroup address) element) := by
  rcases exists_computeGroupUpdate updatedGroup originalFormed
    updatedFormed with ⟨update, compared, computed⟩
  rw [ne_eq, eraseVersions_eq_iff originalFormed updatedFormed]
  have unmodified : update.updatedGroup = false ↔ Unchanged originalGroup updatedGroup :=
    computed.same
  have unfolded : compute original updated =
        (require (update.updatedGroup = true) .noDifferences >>= fun _ =>
            .ok ⟨.empty, some update.readSet, some update.writeSet⟩) := by
    simp [compute, originalHeld, updatedHeld, compared]
  constructor
  · rw [← unmodified, unfolded]
    cases update.updatedGroup with
    | true | false => simp [require]
  · intro modified
    refine ⟨⟨.empty, some update.readSet, some update.writeSet⟩, ?_, ?_⟩
    · rw [← unmodified, Bool.not_eq_false] at modified
      rw [unfolded]
      simp [require, modified]
    · intro Resources handlers codec cm configUpdateEnv signedData mapped decoded signed policies
      rcases exists_authorizeUpdate_of_computed originalFormed updatedFormed valid
          modified computed mapped decoded signed policies with
        ⟨configMap, authorized, rebuilt⟩
      refine ⟨configMap, _, authorized, rebuilt, eraseVersions_revise updatedFormed _, ?_⟩
      intro address element found
      rw [elementAt_revise, found]
      exact ⟨_, rfl, (sameContent_reviseElement found).2⟩

namespace Sample

/-- A value of a group below the root, in a version of its own. -/
def tree (version : UInt64) (value : Bytes) : ConfigGroup :=
  .mk 3 (.present (.letter 'G') (.mk 1 .nil
        [(.letter 'V', some ⟨version, some value, .letter 'P'⟩)] []
        (.letter 'P'))
      .nil)
    [] [] (.letter 'P')

theorem wellFormed_tree (version : UInt64) (value : Bytes) : WellFormed (tree version value) := by
  refine ⟨?_, ?_, ?_⟩
  · simp [tree, Ordered, OrderedGroups, groupEntries, entryKeys]
  · simp [tree, NilFree, NilFreeGroups]
  · simp only [tree, Mappable, MappableGroups, ValidEntries, List.mem_cons, List.not_mem_nil,
      or_false, forall_eq, and_true, false_implies, implies_true]
    decide

theorem validModPolicies_tree (version : UInt64) (value : Bytes) :
    ValidModPolicies (tree version value) := by
  intro address element found
  have member : address.comparable element ∈ elements [] rootGroupKey (tree version value) :=
    (mem_elements_root_iff (wellFormed_tree version value).ordered
      (wellFormed_tree version value).present).mpr ⟨address, element, found, rfl⟩
  have modPolicy : (address.comparable element).modPolicy = .letter 'P' := by
    simp only [tree, elements, groupsElements, valueElements, policyElements, ConfigGroup.values,
      ConfigGroup.policies, List.map_cons, List.map_nil, List.append_nil, List.mem_append,
      List.mem_cons, List.not_mem_nil, or_false, false_or] at member
    rcases member with same | same | same
    all_goals
      rw [same]
      rfl
  rw [modPolicy]
  decide

/-- Every policy is there and is satisfied. -/
def handlers : Handlers Unit where
  getPolicy _ _ _ := some fun _ => .ok ()
  processConfig resources _ := .ok resources

def codec (update : ConfigUpdate) : Codec :=
  { Codec.rejecting with unmarshalConfigUpdate := fun _ => some update }

variable {cm : ConfigManager Unit}

theorem satisfied_of_ne_root (below : address ≠ .group []) :
    Satisfied handlers cm [] (address.comparable element) := by
  refine ⟨fun _ => .ok (), ?_, rfl⟩
  rcases address with (_ | ⟨_, path⟩) | ⟨path, key⟩ | ⟨path, key⟩
  · exact (below rfl).elim
  · rfl
  · simp [policyForItem, Address.comparable, Address.keys, List.dropLast_cons_of_ne_nil, handlers]
  · simp [policyForItem, Address.comparable, Address.keys, List.dropLast_cons_of_ne_nil, handlers]

theorem policiesSatisfied_tree (first second : UInt64) (left right : Bytes) :
    PoliciesSatisfied handlers cm [] (tree first left) (tree second right) := by
  intro _ _ _ here found changed
  apply satisfied_of_ne_root
  rintro rfl
  cases here
  cases found
  exact changed ⟨rfl, rfl, rfl, rfl⟩

theorem eraseVersions_tree_ne : eraseVersions (tree 7 [1]) ≠ eraseVersions (tree 0 [2]) := by
  simp [tree, eraseVersions, revise, reviseGroups, mapEntries]

end Sample

/-- A value below the root is replaced, at the version after its current one. -/
theorem compute_correct_tree :
    ∃ (cm : ConfigManager Unit) (update : ConfigUpdate)
      (configMap : ConfigMap) (result : ConfigGroup),
      mapConfig (some (Sample.tree 7 [1])) = .ok cm.configMap ∧
        compute ⟨0, some (Sample.tree 7 [1])⟩ ⟨0, some (Sample.tree 0 [2])⟩ = .ok update ∧
        authorizeUpdate Sample.handlers (Sample.codec { update with channelId := cm.channelID }) cm
          ⟨none, []⟩ = .ok configMap ∧
        configMapToConfig configMap = .ok result ∧
        eraseVersions result = eraseVersions (Sample.tree 0 [2]) := by
  rcases exists_mapConfig (Sample.wellFormed_tree 7 [1]).mappable with ⟨current, mapped⟩
  have correct := @compute_correct ⟨0, some (Sample.tree 7 [1])⟩
      ⟨0, some (Sample.tree 0 [2])⟩ _ _ rfl rfl
      (Sample.wellFormed_tree 7 [1]) (Sample.wellFormed_tree 0 [2])
      (Sample.validModPolicies_tree 0 [2])
  rcases correct.2 Sample.eraseVersions_tree_ne with ⟨update, computed, accepted⟩
  let cm : ConfigManager Unit := ⟨.empty, 0, current, (), ⟨_, mapped⟩⟩
  rcases accepted Sample.handlers
      (Sample.codec { update with channelId := cm.channelID }) cm ⟨none, []⟩
      [] mapped rfl rfl (Sample.policiesSatisfied_tree 7 0 [1] [2]) with
    ⟨configMap, result, authorized, rebuilt, same, _⟩
  exact ⟨cm, update, configMap, result, mapped, computed, authorized, rebuilt, same⟩

end Fabric.ConfigTx.RoundTrip
