import Fabric.ConfigTx.Elements

/-!
# Trees as maps and back

A tree is flattened to a map of its elements and rebuilt from the map.  With
valid names, no two elements have the same name in the map, and the tree that is
rebuilt is the one that was flattened, provided that no element is nil: a nil
group is dereferenced, and a nil value or policy is entered under a name that
belongs to no kind of element.

Cloning a message is the identity here; it differs from it only in that empty
bytes become nil, which the messages do not tell apart.
-/

namespace Fabric.ConfigTx.ConfigMap

open Protos ConfigTx.Tree Elements

/-! ## Trees with valid names -/

mutual

/-- All names of the tree are valid, also those of nil elements. -/
def ValidNames : ConfigGroup → Prop
  | .mk _ groups values policies _ =>
    ValidGroupNames groups ∧ ValidEntries values ∧ ValidEntries policies

def ValidGroupNames : ConfigGroups → Prop
  | .nil => True
  | .absent key rest => ValidKey key ∧ ValidGroupNames rest
  | .present key group rest => ValidKey key ∧ ValidNames group ∧ ValidGroupNames rest

end

mutual

theorem mappable_of_validNames :
    ∀ group : ConfigGroup, ValidNames group → NilFree group → Mappable group
  | .mk _ groups _ _ _, ⟨named, values, policies⟩, ⟨present, _, _⟩ =>
    ⟨mappableGroups_of_validNames groups named present, values, policies⟩

theorem mappableGroups_of_validNames :
    ∀ groups : ConfigGroups, ValidGroupNames groups → NilFreeGroups groups → MappableGroups groups
  | .nil, _, _ => trivial
  | .present _ group rest, ⟨valid, named, others⟩, ⟨present, presentOthers⟩ =>
      ⟨valid, mappable_of_validNames group named present,
        mappableGroups_of_validNames rest others presentOthers⟩

end

/-! ## The round trip -/

/--
The tree is flattened to a map that holds its elements under different names, and
is rebuilt from the map.
-/
structure RoundTrip (root : ConfigGroup) (configMap : ConfigMap) : Prop where
  mapped : mapConfig (some root) = .ok configMap
  entered : ∀ address element, elementAt root address = some element →
      configMap[address.name]? = some (address.comparable element)
  distinct : ∀ left right : Address, elementAt root left ≠ none →
      elementAt root right ≠ none → left ≠ right → left.name ≠ right.name
  rebuilt : configMapToConfig configMap = .ok root

theorem roundTrip_of_nilFree {root : ConfigGroup} {configMap : ConfigMap} (ordered : Ordered root)
    (present : NilFree root) (mapped : mapConfig (some root) = .ok configMap) :
    RoundTrip root configMap := by
  have mappable := (mapConfig_ok_iff.mp mapped).1
  have valid {address : Address} (found : elementAt root address ≠ none) : address.Valid := by
    rcases Option.ne_none_iff_exists'.mp found with ⟨element, held⟩
    exact valid_of_elementAt mappable held
  have entered : ∀ address element, elementAt root address = some element →
        configMap[address.name]? = some (address.comparable element) := by
    intro address element found
    exact (getElem?_mapConfig_eq_some_iff mapped ordered present).mpr
        ⟨address, element, found, rfl, rfl⟩
  refine ⟨mapped, entered, ?_, ?_⟩
  · intro _ _ leftFound rightFound differ same
    exact differ (Address.name_injective (valid leftFound) (valid rightFound) same)
  · apply configMapToConfig_of_elementAt ordered present
    intro address element found
    refine ⟨address.comparable element, entered address element found, ?_⟩
    cases element with
    | group => exact ⟨rfl, rfl, rfl, rfl, rfl⟩
    | value | policy => rfl
    | absent => trivial

/--
A tree with valid names is flattened to a map with one name for each element, and
rebuilt from the map exactly, if and only if none of its elements is nil.
-/
theorem config_map_round_trip_iff {root : ConfigGroup} (ordered : Ordered root)
    (named : ValidNames root) : (∃ configMap, RoundTrip root configMap) ↔ NilFree root := by
  constructor
  · rintro ⟨configMap, trip⟩
    exact nilFree_recurseConfigMap _ trip.rebuilt
  · intro present
    rcases exists_mapConfig (mappable_of_validNames root named present) with ⟨configMap, mapped⟩
    exact ⟨configMap, roundTrip_of_nilFree ordered present mapped⟩

namespace Sample

def tree : ConfigGroup :=
  .mk 3 (.present (.letter 'G') (.mk 1 .nil [(.letter 'V', some ⟨7, some [1], .letter 'P'⟩)] []
        (.letter 'P'))
      .nil)
    [] [] (.letter 'P')

/-- A tree with a name but no group for it. -/
def treeWithNil : ConfigGroup :=
  .mk 3 (.absent (.letter 'G') .nil) [] [] (.letter 'P')

end Sample

/-- A tree with valid names is not flattened if a group is nil. -/
theorem mapConfig_panics_on_nil_group :
    Ordered Sample.treeWithNil ∧ ValidNames Sample.treeWithNil ∧
      mapConfig (some Sample.treeWithNil) = .panic := by
  refine ⟨?_, ?_, rfl⟩
  · simp [Sample.treeWithNil, Ordered, OrderedGroups, groupEntries, entryKeys]
  · simp only [Sample.treeWithNil, ValidNames, ValidGroupNames,
      ValidEntries, List.not_mem_nil, false_implies, implies_true, and_true]
    decide

theorem config_map_round_trip_tree : ∃ configMap, RoundTrip Sample.tree configMap := by
  have ordered : Ordered Sample.tree := by
    simp [Sample.tree, Ordered, OrderedGroups, groupEntries, entryKeys]
  have named : ValidNames Sample.tree := by
    simp only [Sample.tree, ValidNames, ValidGroupNames, ValidEntries, List.mem_cons,
      List.not_mem_nil, or_false, forall_eq, false_implies, implies_true, and_true]
    decide
  have present : NilFree Sample.tree := by
    simp [Sample.tree, NilFree, NilFreeGroups]
  exact (config_map_round_trip_iff ordered named).mpr present

end Fabric.ConfigTx.ConfigMap
