import Fabric.ConfigTx.Manager
import Fabric.ConfigTx.Elements

/-!
# Authorized updates

An update that is accepted changes the configuration only where its signatures
satisfy the policy of what was there before.  An element of the new
configuration is either the current one, or the current one replaced at its
next version under its own policy, or new; then the nearest group above it that
existed before has been replaced under the policy of that group.  The same
holds of the nearest group above an element that has disappeared.

The argument follows the paths of the tree.  A group that has not been replaced
keeps its keys, so that nothing can be added to it or taken from it.
-/

namespace Fabric.ConfigTx.Authorization

open Std (ExtTreeMap)
open Library Outcome ByteString Protos ConfigTx.Tree Manager Elements

/-! ## Ancestors -/

/-- The deepest group of a tree on a path. -/
structure NearestGroup (root : ConfigGroup) (path nearest : List GoString) : Prop where
  above : nearest <+: path
  present : groupAt root nearest ≠ none
  closest : ∀ other, other <+: path → nearest.length < other.length → groupAt root other = none

theorem groupAt_append (root : ConfigGroup) (path : List GoString) (key : GoString) :
    groupAt root (path ++ [key]) = (groupAt root path).bind fun group =>
        findEntry key (groupEntries group.groups) := by
  induction path generalizing root with
  | nil => simp only [List.nil_append, groupAt, Option.bind_some, Option.bind_fun_some]
  | cons _ path ih => simp only [List.cons_append, groupAt, ih, Option.bind_assoc]

variable {path : List GoString} {root : ConfigGroup}

theorem nearestGroup_self {group : ConfigGroup}
    (found : groupAt root path = some group) : NearestGroup root path path := by
  constructor
  · exact List.prefix_rfl
  · simp [found]
  · intro _ above longer
    exact absurd above.length_le (not_le_of_gt longer)

theorem NearestGroup.append {nearest : List GoString} {key : GoString}
    (nearestGroup : NearestGroup root path nearest) (absent : groupAt root (path ++ [key]) = none) :
    NearestGroup root (path ++ [key]) nearest := by
  constructor
  · exact nearestGroup.above.trans (List.prefix_append path [key])
  · exact nearestGroup.present
  · intro other above longer
    rcases List.prefix_concat_iff.mp above with rfl | shorter
    · exact absent
    · exact nearestGroup.closest other shorter longer

/-! ## What a group lists -/

/-- The group that holds an address has its key. -/
def Listed (group : ConfigGroup) : Address → Prop
  | .group path => ∃ key, path.getLast? = some key ∧ key ∈ entryKeys (groupEntries group.groups)
  | .value _ key => key ∈ entryKeys group.values
  | .policy _ key => key ∈ entryKeys group.policies

variable {address : Address}

variable {left right : ConfigGroup}

theorem listed_of_sameElement (same : SameElement (.group left) (.group right))
    (listed : Listed left address) : Listed right address := by
  rcases same with ⟨_, _, groups, values, policies⟩
  rcases address with path | ⟨path, key⟩ | ⟨path, key⟩
  · rcases listed with ⟨key, last, member⟩
    exact ⟨key, last, groups ▸ member⟩
  · rw [Listed, ← values]
    exact listed
  · rw [Listed, ← policies]
    exact listed

theorem sameElement_symm (same : SameElement (.group left) (.group right)) :
    SameElement (.group right) (.group left) := by
  rcases same with ⟨version, modPolicy, groups, values, policies⟩
  exact ⟨version.symm, modPolicy.symm, groups.symm, values.symm, policies.symm⟩

theorem container_group_append (path : List GoString) (key : GoString) :
    (Address.group (path ++ [key])).container = some path := by
  cases path with
  | nil => rfl
  | cons _ path =>
    rw [List.cons_append, Address.container, ← List.cons_append, List.dropLast_concat]

theorem eq_root_of_container (held : address.container = none) : address = .group [] := by
  rcases address with _ | _ | _
  · rename_i path
    cases path with
    | nil => rfl
    | cons => cases held
  · cases held
  · cases held

theorem container_cases (held : address.container = some path) :
    (∃ key, address = .group (path ++ [key])) ∨
      (∃ key, address = .value path key) ∨ ∃ key, address = .policy path key := by
  rcases address with whole | ⟨whole, key⟩ | ⟨whole, key⟩
  · induction whole using List.reverseRecOn with
    | nil => cases held
    | append_singleton whole key _ =>
      rw [container_group_append] at held
      cases held
      exact Or.inl ⟨key, rfl⟩
  · cases held
    exact Or.inr (Or.inl ⟨key, rfl⟩)
  · cases held
    exact Or.inr (Or.inr ⟨key, rfl⟩)

theorem elementAt_ne_none_iff (ordered : Ordered root) (present : NilFree root)
    (held : address.container = some path) :
    elementAt root address ≠ none ↔
      ∃ group, groupAt root path = some group ∧ Listed group address := by
  have reduce {held listed : ConfigGroup → Prop}
      (same : ∀ group, NilFree group → OrderedKeys group → (held group ↔ listed group)) :
      (∃ group, groupAt root path = some group ∧ held group) ↔
        ∃ group, groupAt root path = some group ∧ listed group := by
    refine exists_congr fun group => and_congr_right fun found => ?_
    exact same group (present.groupAt found) (ordered.groupAt found).keys
  rcases container_cases held with ⟨key, rfl⟩ | ⟨key, rfl⟩ | ⟨key, rfl⟩
  · simp only [elementAt, ne_eq, Option.map_eq_none_iff, groupAt_append, Option.bind_eq_none_iff,
      not_forall, exists_prop, Listed, List.getLast?_concat, Option.some.injEq, exists_eq_left']
    apply reduce
    rintro ⟨_, groups, _, _, _⟩ ⟨inside, _⟩ keys
    exact findEntry_ne_none_iff keys.groups (present_of_nilFreeGroups inside)
  · simp only [elementAt, ne_eq, Option.bind_eq_none_iff,
      Option.map_eq_none_iff, not_forall, exists_prop, Listed]
    apply reduce
    rintro ⟨_, _, values, _, _⟩ ⟨_, inside, _⟩ keys
    exact findEntry_ne_none_iff keys.values inside
  · simp only [elementAt, ne_eq, Option.bind_eq_none_iff,
      Option.map_eq_none_iff, not_forall, exists_prop, Listed]
    apply reduce
    rintro ⟨_, _, _, policies, _⟩ ⟨_, _, inside⟩ keys
    exact findEntry_ne_none_iff keys.policies inside

section

variable {lacking having : ConfigGroup} {changed : List GoString → Prop}

theorem changed_of_missing (ordered : Ordered lacking) (present : NilFree lacking)
    (held : address.container = some path) (absent : elementAt lacking address = none)
    (found : groupAt lacking path = some left) (listed : Listed right address)
    (sameOrChanged : SameElement (.group left) (.group right) ∨ changed path) :
    changed path := by
  rcases sameOrChanged with same | replaced
  · refine absurd absent ?_
    rw [← ne_eq, elementAt_ne_none_iff ordered present held]
    exact ⟨left, found, listed_of_sameElement (sameElement_symm same) listed⟩
  · exact replaced

/--
Where one tree lacks an element of another, the nearest group of the first has
been changed.
-/
theorem exists_changed_above (lackingOrdered : Ordered lacking) (lackingPresent : NilFree lacking)
    (havingOrdered : Ordered having) (havingPresent : NilFree having)
    (sameOrChanged : ∀ {path left right}, groupAt lacking path = some left →
        groupAt having path = some right →
        SameElement (.group left) (.group right) ∨ changed path)
    (held : address.container = some path)
    (absent : elementAt lacking address = none) (found : elementAt having address ≠ none) :
    ∃ nearest, NearestGroup lacking path nearest ∧ changed nearest := by
  induction path using List.reverseRecOn generalizing address with
  | nil =>
    rcases (elementAt_ne_none_iff havingOrdered havingPresent held).mp found with
      ⟨right, rightFound, listed⟩
    refine ⟨[], nearestGroup_self rfl, ?_⟩
    exact changed_of_missing lackingOrdered lackingPresent held absent rfl listed
        (sameOrChanged rfl rightFound)
  | append_singleton path key ih =>
    rcases (elementAt_ne_none_iff havingOrdered havingPresent held).mp found with
      ⟨right, rightFound, listed⟩
    cases leftFound : groupAt lacking (path ++ [key]) with
    | none =>
      rcases ih (container_group_append path key) (by simp [elementAt, leftFound])
          (by simp [elementAt, rightFound]) with
        ⟨nearest, nearestGroup, replaced⟩
      exact ⟨nearest, nearestGroup.append leftFound, replaced⟩
    | some left =>
      refine ⟨path ++ [key], nearestGroup_self leftFound, ?_⟩
      exact changed_of_missing lackingOrdered lackingPresent held absent
          leftFound listed (sameOrChanged leftFound rightFound)

end

/-! ## Verified changes -/

section

variable {Resources : Type} (handlers : Handlers Resources) (cm : ConfigManager Resources)
  (signedData : List SignedData)

/-- The signatures satisfy the policy that guards an element. -/
def Satisfied (item : Comparable) : Prop :=
  ∃ policy, policyForItem handlers cm item = .ok (some policy) ∧ policy signedData = .ok ()

/-- An element is replaced at its next version, under its current policy. -/
def Modified (current updated : ConfigGroup) (address : Address) : Prop :=
  ∃ existing element, elementAt current address = some existing ∧
      elementAt updated address = some element ∧
      (address.comparable element).version = (address.comparable existing).version + 1 ∧
      Satisfied handlers cm signedData (address.comparable existing)

/-- The nearest group of a tree above an address is replaced. -/
def ModifiedAbove (root current updated : ConfigGroup) (address : Address) : Prop :=
  ∃ path nearest, address.container = some path ∧ NearestGroup root path nearest ∧
    Modified handlers cm signedData current updated (.group nearest)

variable {handlers cm signedData}

theorem verifyDelta_ok {name : GoString} {cg : Comparable}
    (verified : verifyDelta handlers cm signedData (name, cg) = .ok ()) :
    (cm.configMap[name]? = none ∧ cg.version = 0) ∨
      ∃ existing, cm.configMap[name]? = some existing ∧ cg.version = existing.version + 1 ∧
        Satisfied handlers cm signedData existing := by
  simp only [verifyDelta, bind_ok_iff] at verified
  rcases verified with ⟨_, _, checked⟩
  split at checked
  next missing => exact Or.inl ⟨missing, (require_ok_iff _ _ _).mp checked⟩
  next existing found =>
    simp only [bind_ok_iff, require_ok_iff, ofOption_ok_iff, mapError_ok_iff] at checked
    rcases checked with ⟨_, version, _, searched, policy, rfl, satisfied⟩
    exact Or.inr ⟨existing, found, version, policy, searched, satisfied⟩

variable {codec : Codec}

variable {configUpdateEnv : ConfigUpdateEnvelope} {configMap : ConfigMap}

theorem exists_delta_of_authorizeUpdate
    (authorized : authorizeUpdate handlers codec cm configUpdateEnv = .ok configMap) :
    ∃ configUpdate writeSet signedData deltaSet,
      codec.unmarshalConfigUpdate configUpdateEnv.configUpdate.bytes = some configUpdate ∧
        mapConfig configUpdate.writeSet = .ok writeSet ∧
        asSignedData codec configUpdateEnv = .ok signedData ∧
        configMap = computeUpdateResult cm.configMap deltaSet ∧
        (∀ (name : GoString) (cg : Comparable), deltaSet[name]? = some cg →
          writeSet[name]? = some cg ∧ verifyDelta handlers cm signedData (name, cg) = .ok ()) := by
  simp only [authorizeUpdate, bind_ok_iff, mapError_ok_iff, ofOption_ok_iff,
    verifyDeltaSet, Outcome.ok.injEq] at authorized
  rcases authorized with ⟨configUpdate, decoded, _, _, _, _, _, _, writeSet, written,
      signedData, signed, _, ⟨_, _, verified⟩, _, _, rfl⟩
  refine ⟨configUpdate, writeSet, signedData, _, decoded, written, signed, rfl, ?_⟩
  intro name cg found
  constructor
  · rw [computeDeltaSet, ExtTreeMap.getElem?_filter', Option.filter_eq_some_iff] at found
    exact found.1
  · exact forM_ok_iff.mp verified (name, cg) (ExtTreeMap.mem_toList_iff_getElem?_eq_some.mpr found)

/-! ## Accepted updates -/

theorem version_of_sameElement {left right : Element} (same : SameElement left right)
    (address : Address) :
    (address.comparable left).version = (address.comparable right).version := by
  cases left <;> cases right <;> simp_all [SameElement, Address.comparable, Comparable.version]

section

variable {current updated : ConfigGroup}

theorem kept_or_modified_or_new (mapped : mapConfig (some current) = .ok cm.configMap)
    (ordered : Ordered current) (present : NilFree current) {deltaSet : ConfigMap}
    (verified : ∀ (name : GoString) (cg : Comparable), deltaSet[name]? = some cg →
        verifyDelta handlers cm signedData (name, cg) = .ok ())
    (rebuilt : configMapToConfig (computeUpdateResult cm.configMap deltaSet) = .ok updated)
    (mappable : Mappable updated) {address : Address} {element : Element}
    (found : elementAt updated address = some element) :
    (∃ existing, elementAt current address = some existing ∧ SameElement existing element) ∨
      Modified handlers cm signedData current updated address ∨
      (elementAt current address = none ∧ (address.comparable element).version = 0) := by
  have valid := valid_of_elementAt mappable found
  have lookup := getElem?_mapConfig mapped ordered present valid
  rcases elementAt_configMapToConfig rebuilt found with ⟨cg, here, same⟩
  rw [computeUpdateResult, ExtTreeMap.getElem?_union, Option.or_eq_some_iff] at here
  rcases here with changed | ⟨_, kept⟩
  · right
    rcases verifyDelta_ok (verified _ _ changed) with
      ⟨missing, version⟩ | ⟨existing, before, version, satisfied⟩
    · right
      rw [lookup, Option.map_eq_none_iff] at missing
      refine ⟨missing, ?_⟩
      rw [← version_of_sameElement same]
      exact version
    · left
      rw [lookup, Option.map_eq_some_iff] at before
      rcases before with ⟨former, before, rfl⟩
      refine ⟨former, element, before, found, ?_, satisfied⟩
      rw [← version_of_sameElement same]
      exact version
  · left
    rw [lookup, Option.map_eq_some_iff] at kept
    rcases kept with ⟨former, before, rfl⟩
    exact ⟨former, before, same⟩

/-- The trees that the codec decodes list their entries in order. -/
structure OrderedUpdates (codec : Codec) : Prop where
  writeSet : ∀ content update, codec.unmarshalConfigUpdate content = some update →
      ∀ group, update.writeSet = some group → Ordered group

section

variable (decodes : OrderedUpdates codec) (mapped : mapConfig (some current) = .ok cm.configMap)
  (ordered : Ordered current)
include decodes mapped ordered

theorem wellFormed_of_authorizeUpdate
    (authorized : authorizeUpdate handlers codec cm configUpdateEnv = .ok configMap)
    (rebuilt : configMapToConfig configMap = .ok updated) :
    Ordered updated ∧ NilFree updated ∧ Mappable updated := by
  have validMap := validMap_authorizeUpdate authorized
  rcases exists_delta_of_authorizeUpdate authorized with
    ⟨_, writeSet, _, _, decoded, written, _, rfl, delta⟩
  refine ⟨?_, nilFree_recurseConfigMap _ rebuilt, mappable_recurseConfigMap validMap _ rebuilt⟩
  refine ordered_recurseConfigMap ?_ _ rebuilt
  apply forall_computeUpdateResult
  · apply orderedMap_mapConfig mapped
    rintro _ ⟨⟩
    exact ordered
  · intro name cg found
    apply orderedMap_mapConfig written (decodes.writeSet _ _ decoded)
    exact (delta name cg found).1

/-- Accepted updates change only what their signatures authorize. -/
theorem authorized_of_authorizeUpdate (present : NilFree current)
    (authorized : authorizeUpdate handlers codec cm configUpdateEnv = .ok configMap)
    (rebuilt : configMapToConfig configMap = .ok updated) :
    ∃ signedData, asSignedData codec configUpdateEnv = .ok signedData ∧
      (∀ address element, elementAt updated address = some element →
        (∃ existing, elementAt current address = some existing ∧ SameElement existing element) ∨
          Modified handlers cm signedData current updated address ∨
          (elementAt current address = none ∧ (address.comparable element).version = 0 ∧
            ModifiedAbove handlers cm signedData current current updated address)) ∧
      (∀ address existing, elementAt current address = some existing →
        elementAt updated address = none →
        ModifiedAbove handlers cm signedData updated current updated address) := by
  rcases wellFormed_of_authorizeUpdate decodes mapped ordered authorized rebuilt with
    ⟨updatedOrdered, updatedPresent, mappable⟩
  rcases exists_delta_of_authorizeUpdate authorized with
    ⟨_, _, signedData, deltaSet, _, _, signed, rfl, delta⟩
  have origin {address : Address} {element : Element} :=
    @kept_or_modified_or_new _ handlers cm signedData current updated mapped
      ordered present deltaSet (fun name cg found => (delta name cg found).2)
      rebuilt mappable address element
  have sameOrModified {path : List GoString} {left right : ConfigGroup}
      (before : groupAt current path = some left)
      (after : groupAt updated path = some right) :
      SameElement (.group left) (.group right) ∨
        Modified handlers cm signedData current updated (.group path) := by
    have shown : elementAt updated (.group path) = some (.group right) := by
      simp [elementAt, after]
    rcases origin shown with ⟨existing, found, same⟩ | modified | ⟨missing, _⟩
    · left
      simp only [elementAt, before, Option.map_some, Option.some.injEq] at found
      rw [found]
      exact same
    · exact Or.inr modified
    · simp [elementAt, before] at missing
  refine ⟨signedData, signed, ?_, ?_⟩
  · intro address element found
    rcases origin found with kept | modified | ⟨missing, version⟩
    · exact Or.inl kept
    · exact Or.inr (Or.inl modified)
    · refine Or.inr (Or.inr ⟨missing, version, ?_⟩)
      cases held : address.container with
      | none =>
        cases eq_root_of_container held
        cases missing
      | some path =>
        rcases exists_changed_above ordered present updatedOrdered updatedPresent
            sameOrModified held missing (by simp [found]) with
          ⟨nearest, nearestGroup, modified⟩
        exact ⟨path, nearest, held, nearestGroup, modified⟩
  · intro address existing found missing
    cases held : address.container with
    | none =>
      cases eq_root_of_container held
      cases missing
    | some path =>
      rcases exists_changed_above updatedOrdered updatedPresent ordered present (fun after before =>
            (sameOrModified before after).imp_left sameElement_symm)
          held missing (by simp [found]) with
        ⟨nearest, nearestGroup, modified⟩
      exact ⟨path, nearest, held, nearestGroup, modified⟩

end

end

end

end Fabric.ConfigTx.Authorization
