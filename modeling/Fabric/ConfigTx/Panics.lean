import Fabric.ConfigTx.Transactions

/-!
# Panics while an update is authorized

Go visits the entries of a map in an order of its own choosing, and a loop that
fails stops at the first entry that makes it fail.  Whether a loop ends in an
error or in a panic can therefore depend on the order.  Here the maps of an
update are visited in any order, of which the order of the keys is one.

Three kinds of updates let the authorization panic: those with a nil group that
is reached through valid keys, those that write the root group at its next
version, for which no policy manager can be looked up, and those that are signed
and change an element whose policy names a principal, on a channel that defines
no membership service providers.
-/

namespace Fabric.ConfigTx.Panics

open Std (ExtTreeMap)
open Library Outcome ByteString Protos Config.GroupValues Config.Policies Config.Proposals
  ConfigTx.Tree Manager Elements Transactions

/-! ## Orders of visits -/

/-- An order in which the entries of a map are visited. -/
structure Visit (Item : Type) where
  order : List Item → List Item
  perm : ∀ items, (order items).Perm items

variable {Item : Type}

theorem Visit.mem_order_iff {visit : Visit Item} {items : List Item} {item : Item} :
    item ∈ visit.order items ↔ item ∈ items :=
  (visit.perm items).mem_iff

def Visit.inKeyOrder (Item : Type) : Visit Item :=
  ⟨id, List.Perm.refl⟩

/-- What visiting a group of a group does to the map that is being filled. -/
abbrev Step := ConfigMap → Outcome ConfigMapError ConfigMap

/-- The orders in which the maps of a tree are visited, by their path. -/
structure TreeVisit where
  groups : List GoString → Visit Step
  values : List GoString → Visit Comparable
  policies : List GoString → Visit Comparable

def TreeVisit.inKeyOrder : TreeVisit where
  groups _ := .inKeyOrder Step
  values _ := .inKeyOrder Comparable
  policies _ := .inKeyOrder Comparable

def runSteps (steps : List Step) : Step :=
  fun result => steps.foldlM (fun result step => step result) result

mutual

/-- Add a group and everything in it, visiting its maps in the given orders. -/
def recurseConfigIn (visit : TreeVisit) (path : List GoString) (key : GoString) : ConfigGroup → Step
  | .mk version groups values policies modPolicy => fun result => do
      let group : ConfigGroup := .mk version groups values policies modPolicy
      let inside := path ++ [key]
      let added ← addToMap ⟨key, path, .group group⟩ result
      let withGroups ← runSteps ((visit.groups inside).order (groupSteps visit inside groups)) added
      let withValues ← addAllToMap withGroups
          ((visit.values inside).order (valueElements inside group))
      addAllToMap withValues ((visit.policies inside).order (policyElements inside group))

/-- The visits of the groups of a group; a nil group is dereferenced. -/
def groupSteps (visit : TreeVisit) (path : List GoString) : ConfigGroups → List Step
  | .nil => []
  | .absent key rest =>
    (fun result => do
      let _ ← addToMap ⟨key, path, .absent⟩ result
      .panic) :: groupSteps visit path rest
  | .present key group rest => recurseConfigIn visit path key group :: groupSteps visit path rest

end

def mapConfigIn (visit : TreeVisit) : Option ConfigGroup → Outcome ConfigMapError ConfigMap
  | none => .ok ∅
  | some group => recurseConfigIn visit [] rootGroupKey group ∅

variable {Resources : Type}

section

variable (handlers : Handlers Resources) (codec : Codec) (cm : ConfigManager Resources)

end

/-! ## The order of the keys -/

mutual

theorem recurseConfigIn_inKeyOrder :
    ∀ (group : ConfigGroup) (path : List GoString) (key : GoString) (result : ConfigMap),
      recurseConfigIn .inKeyOrder path key group result = recurseConfig result path key group
  | .mk _ groups _ _ _, path, key, result => by
    simp only [recurseConfigIn, recurseConfig]
    congr 1
    funext added
    have inside := runSteps_inKeyOrder groups (path ++ [key]) added
    simp only [TreeVisit.inKeyOrder, Visit.inKeyOrder, id] at inside ⊢
    rw [inside]

theorem runSteps_inKeyOrder :
    ∀ (groups : ConfigGroups) (path : List GoString) (result : ConfigMap),
      runSteps (groupSteps .inKeyOrder path groups) result = recurseGroups result path groups
  | .nil, _, _ => rfl
  | .absent key rest, path, result => by
    simp only [groupSteps, runSteps, List.foldlM_cons, recurseGroups]
    cases addToMap ⟨key, path, .absent⟩ result <;> rfl
  | .present key group rest, path, result => by
    simp only [groupSteps, runSteps, List.foldlM_cons, recurseGroups,
      recurseConfigIn_inKeyOrder group path key result]
    congr 1
    funext added
    exact runSteps_inKeyOrder rest path added

end

mutual

/-- A nil group is reached from the group through valid keys. -/
def NilBelow : ConfigGroup → Prop
  | .mk _ groups _ _ _ => NilBelowGroups groups

def NilBelowGroups : ConfigGroups → Prop
  | .nil => False
  | .absent key rest => ValidKey key ∨ NilBelowGroups rest
  | .present key group rest => (ValidKey key ∧ NilBelow group) ∨ NilBelowGroups rest

end

theorem validateConfigID_ne_panic (configID : GoString) : validateConfigID configID ≠ .panic := by
  apply require_bind_ne_panic
  intro _
  apply require_bind_ne_panic
  intro _
  apply require_bind_ne_panic
  intro _
  exact require_ne_panic _ _

theorem addToMap_ne_panic (cg : Comparable) (result : ConfigMap) : addToMap cg result ≠ .panic := by
  apply mapError_bind_ne_panic
  · exact validateConfigID_ne_panic cg.key
  · intro _ _
    nofun

theorem addAllToMap_ne_panic (result : ConfigMap) (cgs : List Comparable) :
    addAllToMap result cgs ≠ .panic :=
  foldlM_ne_panic (fun cg _ result => addToMap_ne_panic cg result) result

mutual

theorem recurseConfigIn_ne_panic (visit : TreeVisit) :
    ∀ (group : ConfigGroup) (path : List GoString) (key : GoString),
      ¬ (ValidKey key ∧ NilBelow group) →
        ∀ result, recurseConfigIn visit path key group result ≠ .panic
  | .mk _ groups _ _ _, path, key, safe, result => by
      apply bind_ne_panic (addToMap_ne_panic _ _)
      intro _ found
      have valid := (addToMap_ok_iff.mp found).1
      apply bind_ne_panic
      · apply foldlM_ne_panic
        intro step member
        exact groupSteps_ne_panic visit groups (path ++ [key])
            (fun below => safe ⟨valid, below⟩) step (Visit.mem_order_iff.mp member)
      · intro _ _
        apply bind_ne_panic (addAllToMap_ne_panic _ _)
        intro _ _
        exact addAllToMap_ne_panic _ _

theorem groupSteps_ne_panic (visit : TreeVisit) :
    ∀ (groups : ConfigGroups) (path : List GoString), ¬ NilBelowGroups groups →
        ∀ step ∈ groupSteps visit path groups, ∀ result, step result ≠ .panic
  | .nil, _, _, _, member => by cases member
  | .absent key rest, path, safe, step, member => by
    rcases not_or.mp safe with ⟨invalid, safeRest⟩
    rcases List.mem_cons.mp member with rfl | later
    · intro result
      apply bind_ne_panic (addToMap_ne_panic _ _)
      intro _ found
      exact (invalid (addToMap_ok_iff.mp found).1).elim
    · exact groupSteps_ne_panic visit rest path safeRest step later
  | .present key group rest, path, safe, step, member => by
    rcases not_or.mp safe with ⟨safeGroup, safeRest⟩
    rcases List.mem_cons.mp member with rfl | later
    · exact recurseConfigIn_ne_panic visit group path key safeGroup
    · exact groupSteps_ne_panic visit rest path safeRest step later

end

section

open scoped Classical

/-- Visit the entries with a property before the others. -/
noncomputable def Visit.first {Item : Type} (leads : Item → Prop) : Visit Item where
  order items := items.filter (leads ·) ++ items.filter (! leads ·)
  perm items := List.filter_append_perm _ items

theorem Visit.exists_first {leads : Item → Prop} {items : List Item} {item : Item}
    (member : item ∈ items) (lead : leads item) :
    ∃ head rest, (Visit.first leads).order items = head :: rest ∧ leads head := by
  have kept : item ∈ items.filter (leads ·) := by
    rw [List.mem_filter]
    exact ⟨member, decide_eq_true lead⟩
  rcases List.exists_cons_of_ne_nil (List.ne_nil_of_mem kept) with ⟨head, rest, same⟩
  refine ⟨head, rest ++ items.filter (! leads ·), ?_, ?_⟩
  · show items.filter (leads ·) ++ _ = _
    rw [same, List.cons_append]
  · have found : head ∈ items.filter (leads ·) := by
      rw [same]
      exact List.mem_cons_self
    exact of_decide_eq_true (List.mem_filter.mp found).2

/-- Visit the groups that lead to a panic before the others. -/
noncomputable def panicsFirst : TreeVisit where
  groups _ := .first fun step => ∀ result, step result = .panic
  values _ := .inKeyOrder Comparable
  policies _ := .inKeyOrder Comparable

mutual

theorem recurseConfigIn_panicsFirst :
    ∀ (group : ConfigGroup) (path : List GoString) (key : GoString), ValidKey key → NilBelow group →
        ∀ result, recurseConfigIn panicsFirst path key group result = .panic
  | .mk version groups values policies modPolicy, path, key, valid, below,
    result => by
      rcases exists_groupSteps_panicsFirst groups (path ++ [key]) below with ⟨step, member, panics⟩
      rcases @Visit.exists_first Step (fun step => ∀ result, step result = .panic)
          _ step member panics with
        ⟨_, _, same, headPanics⟩
      have stops : ∀ added, runSteps ((panicsFirst.groups (path ++ [key])).order
                  (groupSteps panicsFirst (path ++ [key]) groups)) added =
              .panic := by
        intro added
        rw [panicsFirst] at same ⊢
        rw [same, runSteps, List.foldlM_cons, headPanics, panic_bind]
      simp only [recurseConfigIn, stops, panic_bind]
      rw [addToMap_ok_iff.mpr ⟨valid, rfl⟩, ok_bind]

theorem exists_groupSteps_panicsFirst :
    ∀ (groups : ConfigGroups) (path : List GoString), NilBelowGroups groups →
        ∃ step ∈ groupSteps panicsFirst path groups, ∀ result, step result = .panic
  | .nil, _, below => below.elim
  | .absent key rest, path, below => by
    rcases below with valid | later
    · refine ⟨_, List.mem_cons_self, ?_⟩
      intro result
      rw [addToMap_ok_iff.mpr ⟨valid, rfl⟩, ok_bind]
    · rcases exists_groupSteps_panicsFirst rest path later with ⟨step, member, panics⟩
      exact ⟨step, List.mem_cons_of_mem _ member, panics⟩
  | .present key group rest, path, below => by
    rcases below with ⟨valid, inside⟩ | later
    · exact ⟨_, List.mem_cons_self, recurseConfigIn_panicsFirst group path key valid inside⟩
    · rcases exists_groupSteps_panicsFirst rest path later with ⟨step, member, panics⟩
      exact ⟨step, List.mem_cons_of_mem _ member, panics⟩

end

end

/-! ## Maps in any order -/

/-- A visit that returns enters the elements, in some order. -/
def Adds (step : Step) (cgs : List Comparable) : Prop :=
  ∀ result later, step result = .ok later →
    ∃ visited, visited.Perm cgs ∧ later = insertAll result visited

variable {steps : List Step}

theorem adds_runSteps {cgss : List (List Comparable)} (each : List.Forall₂ Adds steps cgss) :
    Adds (runSteps steps) cgss.flatten := by
  induction each with
  | nil =>
    rintro result later ⟨⟩
    exact ⟨[], List.Perm.nil, rfl⟩
  | @cons _ _ steps cgss adds _ ih =>
    intro result later runs
    rw [runSteps, List.foldlM_cons, bind_ok_iff] at runs
    rcases runs with ⟨middle, first, rest⟩
    rcases adds result middle first with ⟨visited, perm, rfl⟩
    rcases ih _ later rest with ⟨others, permOthers, rfl⟩
    refine ⟨visited ++ others, ?_, (insertAll_append _ _ _).symm⟩
    rw [List.flatten_cons]
    exact perm.append permOthers

theorem exists_ok_of_runSteps {result later : ConfigMap}
    (runs : runSteps steps result = .ok later) :
    ∀ step ∈ steps, ∃ before after, step before = .ok after := by
  induction steps generalizing result with
  | nil => nofun
  | cons step steps ih =>
    rw [runSteps, List.foldlM_cons, bind_ok_iff] at runs
    rcases runs with ⟨middle, first, rest⟩
    rw [List.forall_mem_cons]
    exact ⟨⟨result, middle, first⟩, ih rest⟩

mutual

theorem adds_recurseConfigIn (visit : TreeVisit) :
    ∀ (group : ConfigGroup) (path : List GoString) (key : GoString),
      Adds (recurseConfigIn visit path key group) (elements path key group) ∧
        ∀ result later, recurseConfigIn visit path key group result = .ok later →
          ValidKey key ∧ Mappable group
  | .mk version groups values policies modPolicy, path, key => by
    rcases exists_adds_groupSteps visit groups (path ++ [key]) with ⟨_, adds, flat, mappable⟩
    constructor
    · intro _ _ runs
      simp only [recurseConfigIn, bind_ok_iff] at runs
      rcases runs with ⟨_, added, _, inGroups, _, withValues, withPolicies⟩
      rcases addToMap_ok_iff.mp added with ⟨_, rfl⟩
      rcases List.perm_comp_forall₂ ((visit.groups (path ++ [key])).perm _) adds with
        ⟨_, addsVisited, permGroups⟩
      rcases adds_runSteps addsVisited _ _ inGroups with ⟨_, perm, rfl⟩
      rcases addAllToMap_ok_iff.mp withValues with ⟨_, rfl⟩
      rcases addAllToMap_ok_iff.mp withPolicies with ⟨_, rfl⟩
      simp only [elements, ← flat, ← insertAll_append, List.append_assoc]
      exact ⟨_, ((perm.trans permGroups.flatten).append (((visit.values _).perm _).append
              ((visit.policies _).perm _))).cons _,
          rfl⟩
    · intro _ _ runs
      simp only [recurseConfigIn, bind_ok_iff, addAllToMap_ok_iff, Visit.mem_order_iff,
        forall_valueElements_iff, forall_policyElements_iff] at runs
      rcases runs with ⟨_, added, _, inGroups, _, ⟨validValues, _⟩, validPolicies, _⟩
      refine ⟨(addToMap_ok_iff.mp added).1, mappable ?_, validValues, validPolicies⟩
      intro step member
      exact exists_ok_of_runSteps inGroups step (Visit.mem_order_iff.mpr member)

theorem exists_adds_groupSteps (visit : TreeVisit) :
    ∀ (groups : ConfigGroups) (path : List GoString),
      ∃ cgss, List.Forall₂ Adds (groupSteps visit path groups) cgss ∧
        cgss.flatten = groupsElements path groups ∧
        ((∀ step ∈ groupSteps visit path groups, ∃ before after, step before = .ok after) →
          MappableGroups groups)
  | .nil, _ => ⟨[], .nil, rfl, fun _ => trivial⟩
  | .absent key rest, path => by
    rcases exists_adds_groupSteps visit rest path with ⟨cgss, adds, flat, _⟩
    have panics : ∀ result later, ¬ (addToMap ⟨key, path, .absent⟩ result >>= fun _ =>
          (.panic : Outcome ConfigMapError ConfigMap)) = .ok later := by
      simp [bind_ok_iff]
    refine ⟨[] :: cgss, .cons ?_ adds, flat, ?_⟩
    · exact fun result later runs => absurd runs (panics result later)
    · intro succeed
      rcases (List.forall_mem_cons.mp succeed).1 with ⟨result, later, runs⟩
      exact absurd runs (panics result later)
  | .present key group rest, path => by
    rcases exists_adds_groupSteps visit rest path with ⟨cgss, adds, flat, mappableRest⟩
    rcases adds_recurseConfigIn visit group path key with ⟨addsGroup, mappable⟩
    refine ⟨elements path key group :: cgss, .cons addsGroup adds, ?_, ?_⟩
    · rw [List.flatten_cons, flat, groupsElements]
    · intro succeed
      rcases List.forall_mem_cons.mp succeed with ⟨⟨_, _, first⟩, others⟩
      rcases mappable _ _ first with ⟨valid, mappableGroup⟩
      exact ⟨valid, mappableGroup, mappableRest others⟩

end

variable {root : ConfigGroup} {visit : TreeVisit} {configMap : ConfigMap}

variable {path : List GoString} {group : ConfigGroup} {key : GoString}

variable {cg : Comparable}

variable {cm : ConfigManager Resources} {current : ConfigGroup} {update : ConfigUpdate}

section

variable {readSet : ConfigMap}

end

/-! ## The root group -/

section

variable {handlers : Handlers Resources} {signedData : List SignedData}

variable {name : GoString}

variable {deltaSet : ConfigMap} {visit : Visit (GoString × Comparable)}

variable {changed : Comparable}

end

/-! ## Updates that are authorized without a panic -/

section

variable {MSP : Type}

section

variable (codec : Codec) (cm : ChannelManager MSP) (configUpdateEnv : ConfigUpdateEnvelope)
  (update : ConfigUpdate)

/--
An element of the current configuration is changed to its next version, by an
update that has come to the check of its changes.
-/
def Changes (signedData : List SignedData) (existing : Comparable) : Prop :=
  asSignedData codec configUpdateEnv = .ok signedData ∧
    ∃ readSet visit writeSet, mapConfig update.readSet = .ok readSet ∧
      verifyReadSet cm.configMap readSet = .ok () ∧
      mapConfigIn visit update.writeSet = .ok writeSet ∧
      ∃ (name : GoString) (changed : Comparable),
        (computeDeltaSet readSet writeSet)[name]? = some changed ∧
        validateModPolicy changed.modPolicy = .ok () ∧
        cm.configMap[name]? = some existing ∧ changed.version = existing.version + 1

end

variable {services : Services MSP} {codec : Codec}
  {cm : ChannelManager MSP} {configUpdateEnv : ConfigUpdateEnvelope}

end

end Fabric.ConfigTx.Panics
