import Fabric.Config.Proposals
import Fabric.Library.Paths

/-!
# What is committed

The proposal of a configuration holds the values and the policies of each of its
groups, as `Proposes` says.  Checking the proposal completes the values by what
follows from them and sets up the providers that the groups define.  Committing
it cannot fail: the handlers then hold exactly the configuration, group by group,
and the manager of the channel has exactly its providers.
-/

namespace Fabric.Config.Committed

open Library Outcome ByteString Paths Protos GroupValues Config.Policies Proposals
  ConfigTx.Elements Handler

variable {MSP : Type}

/-! ## What a proposal holds -/

def proposedValues : Proposer → Option (Values × List GoString)
  | .mk _ _ _ .none => none
  | .mk _ _ _ (.begun allocated names _) => some (allocated, names)

def proposedPolicies : Manager MSP → Option (List (GoString × Definition MSP) × List GoString)
  | .mk _ _ .none => none
  | .mk _ _ (.begun policies managers) => some (policies, managers.map Prod.fst)

/-- The policies that the policies of a group define. -/
def definitions (services : Services MSP) (entries : Entries ConfigPolicy) :
    Outcome PolicyError (List (GoString × Definition MSP)) :=
  entries.mapM fun entry => do
    let definition ← define services.toProviders entry.2
    .ok (entry.1, definition)

/-- A group of a given kind, or one below it, defines a provider. -/
inductive Defines (codec : ValueCodec) : Kind → ConfigGroup → MSPConfig → Prop where
  | own {kind : Kind} {group : ConfigGroup} {decoded : Values} {org : OrganizationConfig}
      (decodes : deserializeAll codec group.values kind.allocate = .ok decoded)
      (organization : decoded.organization? = some org) :
      Defines codec kind group org.msp
  | inner {kind lower : Kind} {group child : ConfigGroup} {key : GoString} {config : MSPConfig}
      (listed : (key, some child) ∈ groupEntries group.groups)
      (kinds : kind.newGroup key = .ok lower) (defines : Defines codec lower child config) :
      Defines codec kind group config

/-- The manager of a channel has the providers that a configuration defines. -/
structure Provided (services : Services MSP) (kind : Kind) (group : ConfigGroup)
    (manager : Option (List (GoString × MSP))) : Prop where
  absent : manager = none ↔ ∀ config, ¬ Defines services.codec kind group config
  lookup : ∀ msps, manager = some msps → ∀ id msp, msps.lookup id = some msp ↔
      ∃ config, Defines services.codec kind group config ∧
        services.setup config = .ok msp ∧ services.getIdentifier msp = id

section

variable (services : Services MSP) (stage : Values → Values → Prop)

/--
The open proposals of the handlers of a group hold its configuration.  How the
values are related to those that are decoded depends on the stage of the proposal.
-/
inductive Proposes : ConfigGroup → ConfigResult → Handler MSP → Prop where
  | mk {group : ConfigGroup} {subResults : SubResults}
      {handler : Handler MSP} {allocated decoded : Values}
      {defined : List (GoString × Definition MSP)}
      (listed : subResults.map Prod.fst = entryKeys (groupEntries group.groups))
      (distinct : (subResults.map Prod.fst).Nodup)
      (decodes : deserializeAll services.codec group.values handler.values.kind.allocate =
          .ok decoded)
      (values : proposedValues handler.values =
          some (allocated, entryKeys (groupEntries group.groups)))
      (staged : stage decoded allocated)
      (defines : definitions services group.policies = .ok defined)
      (policies : proposedPolicies handler.policies =
          some (defined.reverse, entryKeys (groupEntries group.groups)))
      (present : ∀ key ∈ entryKeys (groupEntries group.groups), ∃ inner sub,
          (key, some inner) ∈ groupEntries group.groups ∧ handler.sub key = some sub ∧
            handler.values.kind.newGroup key = .ok sub.values.kind)
      (below : ∀ key result inner sub, (key, result) ∈ subResults →
          (key, some inner) ∈ groupEntries group.groups →
          handler.sub key = some sub → Proposes inner result sub) :
      Proposes group (.mk subResults) handler

end

/-- The values that follow from those that were decoded. -/
def Derived (services : Services MSP) (decoded values : Values) : Prop :=
  decoded.derive services = .ok values

/--
The handlers of a group hold its configuration.  The values are those that follow
from the messages of the group.  The policies are those that the group defines,
beside the ones of the groups below under their relative names; what they refer
to by absolute names was looked up at the given root.
-/
inductive Holds (services : Services MSP) (root : Manager MSP) :
    ConfigGroup → Handler MSP → Prop where
  | mk {group : ConfigGroup} {handler : Handler MSP} {decoded held : Values}
      {defined : List (GoString × Definition MSP)}
      {managers : List (GoString × Manager MSP)}
      (closed : handler.values.pending = .none)
      (decodes : deserializeAll services.codec group.values handler.values.kind.allocate =
          .ok decoded)
      (derived : Derived services decoded held)
      (values : handler.values.committed = some held)
      (groups : ∀ key, handler.values.groups key ≠ none ↔
          key ∈ entryKeys (groupEntries group.groups))
      (defines : definitions services group.policies = .ok defined)
      (policies : handler.policies = .mk
            (relativePolicies root managers ++ defined.reverse.map fun entry =>
                (entry.1, resolve root managers entry.2))
            managers .none)
      (managed : managers.map Prod.fst = entryKeys (groupEntries group.groups))
      (present : ∀ key ∈ entryKeys (groupEntries group.groups), ∃ inner proposer,
          (key, some inner) ∈ groupEntries group.groups ∧
            handler.values.groups key = some proposer ∧
            handler.values.kind.newGroup key = .ok proposer.kind)
      (below : ∀ key inner proposer manager, (key, some inner) ∈ groupEntries group.groups →
          handler.values.groups key = some proposer →
          managers.lookup key = some manager →
          Holds services root inner ⟨proposer, manager⟩) :
      Holds services root group handler

/-! ## What the handlers of a group keep while those below change -/

@[simp]
theorem kind_setGroup (proposer : Proposer) (key : GoString)
    (group : Proposer) : (proposer.setGroup key group).kind = proposer.kind := by
  rcases proposer with ⟨_, _, _, _ | _⟩
  · rfl
  · rw [Proposer.setGroup]
    split
    · rfl
    · rfl

@[simp]
theorem proposedValues_setGroup (proposer : Proposer) (key : GoString) (group : Proposer) :
    proposedValues (proposer.setGroup key group) = proposedValues proposer := by
  rcases proposer with ⟨_, _, _, _ | _⟩
  · rfl
  · rw [Proposer.setGroup]
    split
    · rfl
    · rfl

@[simp]
theorem proposedPolicies_setPendingManager (manager inner : Manager MSP) (key : GoString) :
    proposedPolicies (setPendingManager key inner manager) = proposedPolicies manager := by
  rcases manager with ⟨_, _, _ | ⟨_, _⟩⟩
  · rfl
  · simp only [setPendingManager, proposedPolicies, List.map_map,
      Option.some.injEq, Prod.mk.injEq, true_and]
    apply List.map_congr_left
    intro _ _
    simp only [Function.comp_apply]
    split
    next same => exact same.symm
    next => rfl

variable {result : ConfigResult}

variable {first later : Proposer}

theorem kind_of_begun (begun : Begun result first later) : later.kind = first.kind := by
  cases begun with
  | closed _ | opened _ _ _ _ => rfl

/-! ## Proposing a group -/

variable {services : Services MSP} {codec : ValueCodec}
  {policies : Entries ConfigPolicy} {values : Entries ConfigValue}
  {handler : Handler MSP} {group : ConfigGroup}

section

variable {names : List GoString}

theorem proposedValues_beginValueProposals (opened : first.beginValueProposals names = .ok later) :
    later.kind = first.kind ∧ proposedValues later = some (first.kind.allocate, names) := by
  rcases beginValueProposals_ok opened with ⟨_, _, _, _, rfl, _, rfl⟩
  exact ⟨rfl, rfl⟩

theorem proposedValues_loadValues {entries : Entries ConfigValue}
    {allocated : Values} (before : proposedValues first = some (allocated, names))
    (loaded : first.loadValues codec entries = .ok later) :
    later.kind = first.kind ∧ ∃ decoded, deserializeAll codec entries allocated = .ok decoded ∧
        proposedValues later = some (decoded, names) := by
  rcases revalues_loadValues loaded with ⟨_, decoded, ⟨⟩, decodes⟩
  cases before
  exact ⟨rfl, decoded, decodes, rfl⟩

variable {first later : Manager MSP}

theorem proposedPolicies_beginPolicyProposals
    (begun : first.beginPolicyProposals names = .ok later) :
    proposedPolicies later = some ([], names) := by
  rcases first with ⟨_, _, _ | _⟩
  · cases begun
    simp [proposedPolicies, Function.comp_def]
  · cases begun

theorem proposedPolicies_loadPolicies {entries : Entries ConfigPolicy}
    {proposed : List (GoString × Definition MSP)}
    (before : proposedPolicies first = some (proposed, names))
    (loaded : loadPolicies services entries first = .ok later) :
    ∃ defined, definitions services entries = .ok defined ∧
      proposedPolicies later = some (defined.reverse ++ proposed, names) := by
  induction entries generalizing first proposed with
  | nil =>
    cases loaded
    exact ⟨[], rfl, before⟩
  | cons entry _ ih =>
    rw [loadPolicies, List.foldlM_cons, bind_ok_iff] at loaded
    rcases loaded with ⟨_, proposes, others⟩
    rcases first with ⟨_, _, _ | _⟩
    · cases before
    · cases before
      simp only [Manager.proposePolicy, bind_ok_iff] at proposes
      rcases proposes with ⟨definition, defines, same⟩
      cases same
      rcases ih rfl others with ⟨defined, defines', after⟩
      refine ⟨(entry.1, definition) :: defined, ?_, ?_⟩
      · rw [definitions] at defines'
        simp [definitions, List.mapM_cons, defines, defines']
      · rw [after]
        simp

/-- The own part of the handlers of a group. -/
structure SameOwn (first later : Handler MSP) : Prop where
  kind : later.values.kind = first.values.kind
  values : proposedValues later.values = proposedValues first.values
  policies : proposedPolicies later.policies = proposedPolicies first.policies

theorem SameOwn.trans {first middle later : Handler MSP} (left : SameOwn first middle)
    (right : SameOwn middle later) : SameOwn first later :=
  ⟨right.kind.trans left.kind, right.values.trans left.values, right.policies.trans left.policies⟩

theorem sameOwn_setSub (handler : Handler MSP) (key : GoString)
    (inner : Handler MSP) : SameOwn handler (handler.setSub key inner) := by
  constructor
  · exact kind_setGroup _ _ _
  · exact proposedValues_setGroup _ _ _
  · exact proposedPolicies_setPendingManager _ _ _

/-- What proposing the groups below a group adds to the handlers. -/
structure Adds (services : Services MSP) (groups : ConfigGroups) (results : SubResults)
    (first later : Handler MSP) : Prop extends
    Changes (fun key handler => handler.sub key) (fun key result before after => ∃ inner,
      (key, some inner) ∈ groupEntries groups ∧ after.values.kind = before.values.kind ∧
        Proposes services Eq inner result after) results first later where
  own : SameOwn first later
  names : results.map Prod.fst = entryKeys (groupEntries groups)

theorem nodup_of_opened {subResults : SubResults} {first later : Handler MSP}
    (opened : Opened (.mk subResults) first later) (pending : later.values.pending ≠ .none) :
    (subResults.map Prod.fst).Nodup := by
  rcases first with ⟨_, _⟩
  rcases later with ⟨_, _⟩
  rcases opened with ⟨begun, _, _⟩
  cases begun with
  | closed settled =>
    cases settled
    exact (pending rfl).elim
  | opened distinct _ _ _ => exact distinct

variable {key : GoString}

variable {rest : ConfigGroups}

variable {results : SubResults}

theorem adds_cons {before after later : Handler MSP} (found : handler.sub key = some before)
    (sameKind : after.values.kind = before.values.kind)
    (proposes : Proposes services Eq group result after) (fresh : key ∉ results.map Prod.fst)
    (adds : Adds services rest results (handler.setSub key after) later) :
    Adds services (.present key group rest) ((key, result) :: results) handler later := by
  refine ⟨.cons found (sub_setSub_self found after)
    (fun _ different => sub_setSub_of_ne different handler after)
    ⟨group, List.mem_cons_self, sameKind, proposes⟩ fresh (adds.toChanges.imp ?_),
    (sameOwn_setSub handler key after).trans adds.own, ?_⟩
  · rintro _ _ _ _ ⟨inner, there, kinds, holds⟩
    exact ⟨inner, List.mem_cons_of_mem _ there, kinds, holds⟩
  · rw [List.map_cons, adds.names]
    rfl

variable {groups : ConfigGroups}

theorem eq_of_mem_groupEntries {first later : Option ConfigGroup}
    (listed : results.map Prod.fst = entryKeys (groupEntries groups))
    (distinct : (results.map Prod.fst).Nodup) (there : (key, first) ∈ groupEntries groups)
    (elsewhere : (key, later) ∈ groupEntries groups) : first = later := by
  rw [listed] at distinct
  exact congrArg Prod.snd (List.inj_on_of_nodup_map distinct there elsewhere rfl)

theorem proposes_of_adds {version : UInt64} {modPolicy : GoString}
    {first begun loaded later : Handler MSP} (settled : first.Settled)
    (opens : first.begin (entryKeys (groupEntries groups)) = .ok begun)
    (loads : begun.load services values policies = .ok loaded)
    (distinct : (results.map Prod.fst).Nodup)
    (adds : Adds services groups results loaded later) :
    Proposes services Eq (.mk version groups values policies modPolicy)
      (.mk results) later := by
  rcases of_begin opens with ⟨beginsValues, beginsPolicies⟩
  rcases of_load loads with ⟨loadsValues, loadsPolicies⟩
  rcases proposedValues_beginValueProposals beginsValues with ⟨kind, allocated⟩
  rcases proposedValues_loadValues allocated loadsValues with ⟨kindLater, _, decodes, values⟩
  have empty := proposedPolicies_beginPolicyProposals beginsPolicies
  rcases proposedPolicies_loadPolicies empty loadsPolicies with ⟨_, defines, policies⟩
  rw [List.append_nil] at policies
  have sameKind := adds.own.kind.trans (kindLater.trans kind)
  refine .mk adds.names distinct ?_ (adds.own.values.trans values) rfl
    defines (adds.own.policies.trans policies) ?_ ?_
  · rw [sameKind]
    exact decodes
  · intro key member
    rw [sameKind]
    rw [ConfigGroup.groups, ← adds.names] at member
    rcases List.mem_map.mp member with ⟨⟨_, result⟩, listed, rfl⟩
    rcases adds.each _ result listed with ⟨_, after, found, remains, inner, there, kinds, _⟩
    refine ⟨inner, after, there, remains, ?_⟩
    rw [kinds]
    have group := (sub_eq_some_iff.mp found).1
    rw [(loadValues_ok loadsValues).2] at group
    exact (settled_beginValueProposals settled.values beginsValues group).1
  · intro key result inner _ member there found
    rcases adds.each key result member with ⟨_, after, _, remains, _, elsewhere, _, proposes⟩
    rw [found] at remains
    cases remains
    cases eq_of_mem_groupEntries adds.names distinct there elsewhere
    exact proposes

end

/-! ## Changes of the groups below a group -/

section

variable {Each : GoString → ConfigResult → Proposer → Proposer → Prop} {key : GoString}
  {subResults : SubResults}

/-- The handlers of the listed groups have been changed in their turn, and nothing else. -/
structure Updates (Each : GoString → ConfigResult → Proposer → Proposer → Prop)
    (subResults : SubResults) (first later : Proposer) : Prop extends
    Changes (fun key proposer => proposer.group key) Each subResults first later where
  kind : later.kind = first.kind
  values : proposedValues later = proposedValues first

theorem Updates.nil : Updates Each [] first first := ⟨.nil, rfl, rfl⟩

theorem Updates.cons {before after last : Proposer} (found : first.group key = some before)
    (changed : Each key result before after) (fresh : key ∉ subResults.map Prod.fst)
    (rest : Updates Each subResults (first.setGroup key after) last) :
    Updates Each ((key, result) :: subResults) first last := by
  refine ⟨.cons found (Proposer.group_setGroup_self found after)
    (fun _ different => Proposer.group_setGroup_of_ne different first after) changed fresh
    rest.toChanges, ?_, ?_⟩
  · rw [rest.kind, kind_setGroup]
  · rw [rest.values, proposedValues_setGroup]

end

/-! ## Checking a proposal -/

section

/--
The groups below a group are checked one after the other, and the providers that
they define are set up.
-/
theorem updates_preCommitSub {defines : GoString → MSPConfig → Prop}
    {Each : GoString → ConfigResult → Proposer → Proposer → Prop} :
    ∀ {subResults : SubResults} {store next : MSPConfigStore MSP}
      {first later : Proposer} {proposed : MSPConfig → Prop},
      (subResults.map Prod.fst).Nodup →
        preCommitSub services subResults store first = .ok (next, later) →
        (∀ key result, (key, result) ∈ subResults → ∀ before after store next proposed,
          first.group key = some before →
            preCommit services result store before = .ok (next, after) →
            store.Provides services proposed →
            Each key result before after ∧
              next.Provides services fun config => proposed config ∨ defines key config) →
        store.Provides services proposed →
        Updates Each subResults first later ∧
          next.Provides services fun config =>
            proposed config ∨ ∃ key ∈ subResults.map Prod.fst, defines key config
  | [], _, _, _, _, _, _, checked, _, provides => by
    cases checked
    exact ⟨.nil, provides.congr fun config => by simp⟩
  | (key, result) :: rest, store, next, first, later, proposed, distinct, checked, each,
    provides => by
      rcases List.nodup_cons.mp distinct with ⟨fresh, distinct⟩
      simp only [preCommitSub, bind_ok_iff, deref_ok_iff] at checked
      rcases checked with ⟨group, found, ⟨middle, inner⟩, below, others⟩
      rcases each key result List.mem_cons_self group inner store middle proposed found below
        provides with ⟨changed, own⟩
      have later := updates_preCommitSub distinct others (by
        intro other sub member before after store next proposed located
        rw [Proposer.group_setGroup_of_ne
          (ne_of_mem_of_not_mem (List.mem_map_of_mem member) fresh)] at located
        exact each other sub (List.mem_cons_of_mem _ member) before after store next proposed
          located) own
      exact ⟨.cons found changed fresh later.1, later.2.congr fun config => by simp [or_assoc]⟩

variable {store next : MSPConfigStore MSP} {proposed : MSPConfig → Prop}

theorem preCommit_ok (checked : first.preCommit services store = .ok (next, later))
    {values : Values} {names : List GoString}
    (before : proposedValues first = some (values, names))
    (provides : store.Provides services proposed) :
    later.kind = first.kind ∧ (∀ key, later.group key = first.group key) ∧
      (∃ validated, proposedValues later = some (validated, names) ∧
        Derived services values validated) ∧
      next.Provides services fun config =>
        proposed config ∨ ∃ org, values.organization? = some org ∧ config = org.msp := by
  rcases revalues_preCommit checked with ⟨_, validated, _, ⟨⟩, validates⟩
  cases before
  rcases provides.validate validates with ⟨derived, later⟩
  exact ⟨rfl, fun _ => rfl, ⟨validated, rfl, derived⟩, later⟩

theorem defines_iff {kind : Kind} {decoded : Values} {config : MSPConfig}
    (decodes : deserializeAll codec group.values kind.allocate = .ok decoded) :
    Defines codec kind group config ↔
      (∃ key ∈ entryKeys (groupEntries group.groups), ∃ child lower,
          (key, some child) ∈ groupEntries group.groups ∧ kind.newGroup key = .ok lower ∧
            Defines codec lower child config) ∨
        ∃ org, decoded.organization? = some org ∧ config = org.msp := by
  constructor
  · rintro (⟨decodesHere, organization⟩ | ⟨listed, kinds, defines⟩)
    · rw [decodes] at decodesHere
      cases decodesHere
      exact .inr ⟨_, organization, rfl⟩
    · exact .inl ⟨_, List.mem_map_of_mem listed, _, _, listed, kinds, defines⟩
  · rintro (⟨_, _, _, _, listed, kinds, defines⟩ | ⟨_, organization, rfl⟩)
    · exact .inner listed kinds defines
    · exact .own decodes organization

/-- A check that passes completes the values and sets up the providers. -/
theorem Proposes.preCommit (proposes : Proposes services Eq group result handler)
    {later : Proposer}
    (checked : Proposals.preCommit services result store handler.values = .ok (next, later))
    (provides : store.Provides services proposed) :
    Proposes services (Derived services) group result ⟨later, handler.policies⟩ ∧
      later.kind = handler.values.kind ∧
      next.Provides services fun config =>
        proposed config ∨ Defines services.codec handler.values.kind group config := by
  induction proposes generalizing store next later proposed with
  | @mk group subResults handler allocated decoded defined listed distinct
      decodes values staged defines policies present below ih =>
      subst staged
      simp only [Proposals.preCommit, bind_ok_iff] at checked
      rcases checked with ⟨⟨middle, between⟩, inner, last⟩
      have sub := @updates_preCommitSub MSP services (fun key config => ∃ child lower,
            (key, some child) ∈ groupEntries group.groups ∧
              handler.values.kind.newGroup key = .ok lower ∧
              Defines services.codec lower child config)
          (fun key result before after => after.kind = before.kind ∧
            ∀ child manager, (key, some child) ∈ groupEntries group.groups →
              handler.sub key = some ⟨before, manager⟩ →
              Proposes services (Derived services) child result
                ⟨after, manager⟩) subResults store middle handler.values between proposed distinct
          inner (by
            intro key result member before after store next proposed located checked provides
            rcases present key (listed ▸ List.mem_map_of_mem member) with
              ⟨child, sub, there, found, kinds⟩
            rcases sub_eq_some_iff.mp found with ⟨group, _⟩
            rw [group] at located
            cases located
            rcases ih key result child sub member there found checked provides with
              ⟨derives, sameKind, later⟩
            refine ⟨⟨sameKind, ?_⟩, later.congr fun config => or_congr_right ⟨?_, fun defines =>
              ⟨child, _, there, kinds, defines⟩⟩⟩
            · intro other manager elsewhere here
              rw [found] at here
              rw [Option.some.inj here] at derives
              cases eq_of_mem_groupEntries listed distinct there elsewhere
              exact derives
            · rintro ⟨other, _, elsewhere, sameKind, defines⟩
              rw [kinds] at sameKind
              cases sameKind
              cases eq_of_mem_groupEntries listed distinct there elsewhere
              exact defines) provides
      rcases sub with ⟨updates, provides⟩
      rcases preCommit_ok last (updates.values.trans values) provides with
        ⟨sameKind, sameGroups, ⟨validated, held, derived⟩, later⟩
      have sameKind := sameKind.trans updates.kind
      refine ⟨.mk listed distinct (sameKind ▸ decodes) held derived defines policies ?_ ?_,
        sameKind, ?_⟩
      · intro key member
        rcases present key member with ⟨inner, sub, there, found, kinds⟩
        rcases List.mem_map.mp (listed ▸ member) with ⟨⟨_, result⟩, at', rfl⟩
        rcases updates.each _ result at' with ⟨before, after, located, remains, same, _⟩
        rcases sub_eq_some_iff.mp found with ⟨group, manager⟩
        rw [group] at located
        cases located
        refine ⟨inner, ⟨after, sub.policies⟩, there, ?_, ?_⟩
        · rw [sub_eq_some_iff]
          exact ⟨(sameGroups _).trans remains, manager⟩
        · rw [sameKind, kinds, same]
      · intro key result inner sub member there found
        rcases updates.each key result member with ⟨before, after, located, remains, _, derives⟩
        rcases sub_eq_some_iff.mp found with ⟨group, manager⟩
        rw [sameGroups, remains] at group
        cases group
        exact derives inner sub.policies there (sub_eq_some_iff.mpr ⟨located, manager⟩)
      · refine later.congr fun config => ?_
        rw [defines_iff decodes, listed, or_assoc]

end

/-! ## Committing a proposal -/

section

variable {root : Manager MSP}

theorem exists_commitSubValues :
    ∀ {subResults : SubResults} {first : Proposer},
      (subResults.map Prod.fst).Nodup → (∀ key result, (key, result) ∈ subResults → ∃ before after,
          first.group key = some before ∧ commitValues result before = .ok after) →
        ∃ later, commitSubValues subResults first = .ok later ∧
          Updates (fun _ result before after => commitValues result before = .ok after)
            subResults first later
  | [], first, _, _ => ⟨first, rfl, .nil⟩
  | (key, result) :: rest, first, distinct, ready => by
    rcases List.nodup_cons.mp distinct with ⟨fresh, distinct⟩
    rcases ready key result List.mem_cons_self with ⟨before, after, found, commits⟩
    rcases @exists_commitSubValues rest (first.setGroup key after) distinct (by
        intro other sub listed
        rw [Proposer.group_setGroup_of_ne
          (ne_of_mem_of_not_mem (List.mem_map_of_mem listed) fresh)]
        exact ready other sub (List.mem_cons_of_mem _ listed)) with
      ⟨later, committed, updates⟩
    exact ⟨later, by simp [commitSubValues, found, commits, committed],
      .cons found commits fresh updates⟩

/-- What committing the policies of the groups below a group changes. -/
structure CommitsPolicies (root : Manager MSP)
    (subResults : SubResults) (first later : Manager MSP) : Prop extends
    Changes pendingManager (fun _ result before after => commitPolicies root result before =
      .ok after) subResults first later where
  policies : proposedPolicies later = proposedPolicies first

theorem exists_commitSubPolicies :
    ∀ {subResults : SubResults} {first : Manager MSP},
      (subResults.map Prod.fst).Nodup → (∀ key result, (key, result) ∈ subResults → ∃ before after,
          pendingManager key first = some before ∧ commitPolicies root result before = .ok after) →
        ∃ later, commitSubPolicies root subResults first = .ok later ∧
          CommitsPolicies root subResults first later
  | [], first, _, _ => ⟨first, rfl, .nil, rfl⟩
  | (key, result) :: rest, first, distinct, ready => by
    rcases List.nodup_cons.mp distinct with ⟨fresh, distinct⟩
    rcases ready key result List.mem_cons_self with ⟨before, after, found, commits⟩
    rcases @exists_commitSubPolicies rest (setPendingManager key after first) distinct (by
        intro other sub listed
        rw [setPendingManager_of_ne (ne_of_mem_of_not_mem (List.mem_map_of_mem listed) fresh)]
        exact ready other sub (List.mem_cons_of_mem _ listed)) with
      ⟨later, committed, changes⟩
    refine ⟨later, ?_, .cons found (setPendingManager_self found after)
      (fun _ different => setPendingManager_of_ne different first after) commits fresh
      changes.toChanges, ?_⟩
    · simp [commitSubPolicies, found, commits, committed]
    · rw [changes.policies, proposedPolicies_setPendingManager]

variable {names : List GoString}

theorem exists_commitProposals {proposer : Proposer} {values : Values}
    (proposed : proposedValues proposer = some (values, names)) :
    ∃ later, proposer.commitProposals = .ok later ∧
      later.kind = proposer.kind ∧ later.pending = .none ∧
      later.committed = some values ∧
      ∀ key, later.groups key = if key ∈ names then proposer.group key else none := by
  rcases proposer with ⟨kind, committed, groups, _ | _⟩
  · cases proposed
  · cases proposed
    exact ⟨_, rfl, rfl, rfl, rfl, fun _ => rfl⟩

theorem exists_commitPolicyProposals
    {manager : Manager MSP} {defined : List (GoString × Definition MSP)}
    (proposed : proposedPolicies manager = some (defined, names)) :
    ∃ managers, manager.commitProposals root = .ok (.mk
              (relativePolicies root managers ++ defined.map fun entry =>
                  (entry.1, resolve root managers entry.2))
              managers .none) ∧
        managers.map Prod.fst = names ∧
        ∀ key, managers.lookup key = pendingManager key manager := by
  rcases manager with ⟨_, managers, _ | ⟨_, pending⟩⟩
  · cases proposed
  · cases proposed
    exact ⟨pending, rfl, rfl, fun _ => rfl⟩

theorem Proposes.commit
    (proposes : Proposes services (Derived services) group result handler)
    (root : Manager MSP) :
    ∃ values policies, commitValues result handler.values = .ok values ∧
        commitPolicies root result handler.policies = .ok policies ∧
        values.kind = handler.values.kind ∧
        Holds services root group ⟨values, policies⟩ := by
  induction proposes with
  | @mk group subResults handler allocated decoded defined listed distinct
      decodes values derived defines policies present below ih =>
      have sub : ∀ key result, (key, result) ∈ subResults → ∃ inner sub,
            (key, some inner) ∈ groupEntries group.groups ∧ handler.sub key = some sub ∧
              handler.values.kind.newGroup key = .ok sub.values.kind := by
        intro key result member
        apply present
        rw [← listed]
        exact List.mem_map_of_mem member
      rcases @exists_commitSubValues subResults handler.values distinct (by
            intro key result member
            rcases sub key result member with ⟨inner, sub, there, found, _⟩
            rcases ih key result inner sub member there found with ⟨after, _, commits, _⟩
            exact ⟨_, after, (sub_eq_some_iff.mp found).1, commits⟩) with
        ⟨middle, belowValues, commitsValues⟩
      rcases @exists_commitSubPolicies MSP root subResults handler.policies distinct (by
            intro key result member
            rcases sub key result member with ⟨inner, sub, there, found, _⟩
            rcases ih key result inner sub member there found with ⟨_, after, _, commits, _⟩
            exact ⟨_, after, (sub_eq_some_iff.mp found).2, commits⟩) with
        ⟨manager, belowPolicies, commitsPolicies⟩
      rcases exists_commitProposals (commitsValues.values.trans values) with
        ⟨later, committed, sameKind, closed, held, groups⟩
      rcases @exists_commitPolicyProposals _ root _ _ _
          (commitsPolicies.policies.trans policies) with
        ⟨managers, committedPolicies, managed, lookups⟩
      have kind : later.kind = handler.values.kind := sameKind.trans commitsValues.kind
      -- The handlers and managers below have been committed in their turn.
      have each : ∀ key result, (key, result) ∈ subResults → ∃ inner proposer manager,
              (key, some inner) ∈ groupEntries group.groups ∧ later.groups key = some proposer ∧
                managers.lookup key = some manager ∧
                handler.values.kind.newGroup key = .ok proposer.kind ∧
                Holds services root inner ⟨proposer, manager⟩ := by
        intro key result member
        rcases sub key result member with ⟨inner, sub, there, found, kinds⟩
        rcases ih key result inner sub member there found with
          ⟨proposer, manager, commits, commitsManager, same, holds⟩
        rcases sub_eq_some_iff.mp found with ⟨before, beforeManager⟩
        rcases commitsValues.each key result member with ⟨source, _, located, remains, commitsHere⟩
        rcases commitsPolicies.each key result member with
          ⟨_, _, innerLocated, innerRemains, commitsManagerHere⟩
        rw [before] at located
        cases located
        rw [beforeManager] at innerLocated
        cases innerLocated
        rw [commits] at commitsHere
        cases commitsHere
        rw [commitsManager] at commitsManagerHere
        cases commitsManagerHere
        have name : key ∈ entryKeys (groupEntries group.groups) := by
          rw [← listed]
          exact List.mem_map_of_mem member
        refine ⟨inner, proposer, manager, there, ?_, ?_, ?_, holds⟩
        · rw [groups, if_pos name, remains]
        · rw [lookups, innerRemains]
        · rw [same, kinds]
      have listedName : ∀ key ∈ entryKeys (groupEntries group.groups), ∃ result,
            (key, result) ∈ subResults := by
        intro key name
        rw [← listed] at name
        rcases List.mem_map.mp name with ⟨⟨_, result⟩, member, rfl⟩
        exact ⟨result, member⟩
      refine ⟨later, _, ?_, ?_, kind,
        .mk closed (kind ▸ decodes) derived held ?_ defines rfl managed ?_ ?_⟩
      · simp [commitValues, belowValues, committed]
      · simp [commitPolicies, belowPolicies, committedPolicies]
      · intro key
        constructor
        · intro found
          by_contra missing
          rw [groups, if_neg missing] at found
          exact found rfl
        · intro name
          rcases listedName key name with ⟨result, member⟩
          rcases each key result member with ⟨_, _, _, _, found, _⟩
          rw [found]
          exact Option.some_ne_none _
      · intro key name
        rcases listedName key name with ⟨result, member⟩
        rcases each key result member with ⟨inner, proposer, _, there, found, _, kinds, _⟩
        refine ⟨inner, proposer, there, found, ?_⟩
        rw [kind]
        exact kinds
      · intro key inner proposer manager there found located
        have name : key ∈ entryKeys (groupEntries group.groups) := List.mem_map_of_mem there
        rcases listedName key name with ⟨result, member⟩
        rcases each key result member with ⟨_, source, _, elsewhere, here, lookup, _, holds⟩
        rw [found] at here
        cases here
        rw [located] at lookup
        cases lookup
        cases eq_of_mem_groupEntries listed distinct there elsewhere
        exact holds

theorem exists_lookup_of_mem {Item : Type} {entries : List (GoString × Item)} {key : GoString}
    (name : key ∈ entries.map Prod.fst) : ∃ item, entries.lookup key = some item := by
  induction entries with
  | nil => cases name
  | cons _ _ ih =>
    rw [List.lookup_cons]
    split
    · exact ⟨_, rfl⟩
    next different =>
      rcases List.mem_cons.mp name with same | later
      · simp [same] at different
      · exact ih later

theorem Holds.settled (holds : Holds services root group handler) :
    handler.Settled := by
  induction holds with
  | @mk group handler decoded held defined managers closed decodes derived values groups
      defines policies managed present below settled =>
      refine ⟨?_, ?_⟩
      · rcases handler with ⟨⟨kind, _, inner, _⟩, _⟩
        cases closed
        have each : ∀ key proposer, inner key = some proposer →
              kind.newGroup key = .ok proposer.kind ∧ Settled proposer := by
          intro key proposer found
          have nonempty : inner key ≠ none := by
            rw [found]
            exact Option.some_ne_none _
          have name := (groups key).mp nonempty
          rcases present key name with ⟨child, _, there, here, kinds⟩
          rw [Proposer.groups, found] at here
          cases here
          refine ⟨kinds, ?_⟩
          rw [← managed] at name
          rcases exists_lookup_of_mem name with ⟨lower, located⟩
          exact (settled _ child proposer lower there found located).values
        exact .mk (fun key proposer found => (each key proposer found).1)
            (fun key proposer found => (each key proposer found).2)
      · rw [policies]
        rfl

theorem present_of_deserializeAll :
    ∀ {entries : Entries ConfigValue} {allocated decoded : Values},
      deserializeAll codec entries allocated = .ok decoded → ∀ entry ∈ entries, entry.2 ≠ none
  | [], _, _, _, entry, member => by cases member
  | first :: rest, allocated, decoded, decodes, entry, member => by
    simp only [deserializeAll, List.foldlM_cons, bind_ok_iff, deref_ok_iff] at decodes
    rcases decodes with ⟨_, ⟨value, held, _⟩, others⟩
    rcases List.mem_cons.mp member with same | later
    · rw [same, held]
      exact Option.some_ne_none value
    · exact present_of_deserializeAll others entry later

theorem present_of_definitions :
    ∀ {entries : Entries ConfigPolicy}
      {defined : List (GoString × Definition MSP)},
      definitions services entries = .ok defined → ∀ entry ∈ entries, entry.2 ≠ none
  | [], _, _, entry, member => by cases member
  | first :: rest, defined, defines, entry, member => by
    simp only [definitions, List.mapM_cons, bind_ok_iff, define, deref_ok_iff] at defines
    rcases defines with ⟨_, ⟨_, ⟨policy, held, _⟩, _⟩, _, others, _⟩
    rcases List.mem_cons.mp member with same | later
    · rw [same, held]
      exact Option.some_ne_none policy
    · exact present_of_definitions others entry later

theorem Holds.nilFree (holds : Holds services root group handler)
    (ordered : Ordered group) : NilFree group := by
  induction holds with
  | @mk group handler decoded held defined managers closed decodes derived values groups
      defines policies managed present below nilFree =>
      rcases group with ⟨_, inner, _, _, _⟩
      rcases ordered with ⟨orderedGroups, keys, _, _⟩
      rw [ConfigGroup.groups] at managed
      refine ⟨nilFreeGroups_iff.mpr ?_, present_of_deserializeAll decodes,
          present_of_definitions defines⟩
      rintro ⟨key, entry⟩ member
      have name : key ∈ entryKeys (groupEntries inner) := List.mem_map_of_mem member
      rcases present key name with ⟨child, proposer, there, found, _⟩
      rw [← managed] at name
      rcases exists_lookup_of_mem name with ⟨lower, located⟩
      have same : entry = some child := congrArg Prod.snd
          (List.inj_on_of_nodup_map (keys.imp ne_of_lt) member there rfl)
      refine ⟨child, same, ?_⟩
      exact nilFree _ child proposer lower there found located
          (orderedGroups_iff.mp orderedGroups _ _ there)

theorem Holds.congr {other : Manager MSP} (holds : Holds services root group handler)
    (same : root.policies = other.policies) :
    Holds services other group handler := by
  induction holds with
  | mk closed decodes derived values groups defines policies managed present below
      inner =>
      refine .mk closed decodes derived values groups defines ?_ managed present inner
      rw [policies]
      unfold relativePolicies resolve
      simp only [Manager.getPolicy, same]

end

/-! ## Proposals that do not panic -/

section

theorem newGroup_ne_panic (kind : Kind) (name : GoString) : kind.newGroup name ≠ .panic := by
  cases kind with
  | channel =>
    rw [Kind.newGroup]
    split_ifs <;> nofun
  | application | applicationOrg _ | orderer | organization _ | consortiums
  | consortium => nofun

variable {current : GoString → Option Proposer} {kind : Kind}

theorem createGroups_ne_panic : ∀ {names : List GoString}, createGroups kind current names ≠ .panic
  | [] => by simp [createGroups]
  | name :: names => by
    rw [createGroups]
    cases current name with
    | some _ => exact createGroups_ne_panic
    | none =>
      apply bind_ne_panic (newGroup_ne_panic kind name)
      intro _ _
      apply bind_ne_panic createGroups_ne_panic
      simp

theorem isSome_createGroups :
    ∀ {names : List GoString} {created : GoString → Option Proposer},
      createGroups kind current names = .ok created →
        ∀ name ∈ names, ((current name).or (created name)).isSome = true
  | [], _, _, _, member => by cases member
  | first :: names, created, made, name, member => by
    rw [createGroups] at made
    cases here : current first with
    | some _ =>
      rw [here] at made
      rcases List.mem_cons.mp member with same | later
      · rw [same, here]
        rfl
      · exact isSome_createGroups made name later
    | none =>
      rw [here] at made
      simp only [bind_ok_iff] at made
      rcases made with ⟨_, _, _, rest, same⟩
      cases same
      by_cases same : name = first
      · rw [same, here, Function.update_self]
        rfl
      · rw [Function.update_of_ne same]
        exact isSome_createGroups rest name ((List.mem_cons.mp member).resolve_left same)

theorem decodeInto_ne_panic {Message : Type} {key : GoString} {unmarshal : Bytes → Option Message}
    {store : Message → Values} {value : Slice} :
    decodeInto key unmarshal store value ≠ .panic := by
  rw [decodeInto]
  apply ofOption_bind_ne_panic
  nofun

theorem deserialize_ne_panic
    (codec : ValueCodec) (values : Values) (key : GoString) (value : Slice) :
    values.deserialize codec key value ≠ .panic := by
  cases values with
  | channel protos _ =>
    rw [Values.deserialize, deserializeChannel]
    split_ifs <;> first | exact decodeInto_ne_panic | nofun
  | orderer protos _ =>
    rw [Values.deserialize, deserializeOrderer]
    split_ifs <;> first | exact decodeInto_ne_panic | nofun
  | applicationOrg _ _ | organization _ | consortium _ =>
    rw [Values.deserialize]
    split_ifs <;> first | exact decodeInto_ne_panic | nofun
  | application | consortiums => nofun

theorem deserializeAll_ne_panic (codec : ValueCodec) :
    ∀ {entries : Entries ConfigValue} {allocated : Values},
      (∀ entry ∈ entries, entry.2 ≠ none) → deserializeAll codec entries allocated ≠ .panic
  | [], _, _ => nofun
  | (key, value) :: rest, allocated, present => by
    rcases List.forall_mem_cons.mp present with ⟨first, others⟩
    rcases Option.ne_none_iff_exists'.mp first with ⟨message, held⟩
    dsimp only at held
    subst held
    intro panics
    rw [deserializeAll, List.foldlM_cons, bind_panic_iff] at panics
    rcases panics with panics | ⟨_, _, panics⟩
    · exact deserialize_ne_panic codec allocated key message.value panics
    · exact deserializeAll_ne_panic codec others panics

theorem define_ne_panic {configPolicy : Option ConfigPolicy} (present : configPolicy ≠ none) :
    define services.toProviders configPolicy ≠ .panic := by
  rcases Option.ne_none_iff_exists'.mp present with ⟨_, rfl⟩
  rw [define, deref_some, ok_bind]
  apply ofOption_bind_ne_panic
  intro _ _
  split_ifs
  · apply ofOption_bind_ne_panic
    nofun
  · apply ofOption_bind_ne_panic
    nofun
  · nofun

theorem loadPolicies_ne_panic :
    ∀ {entries : Entries ConfigPolicy} {manager : Manager MSP},
      (∀ entry ∈ entries, entry.2 ≠ none) → proposedPolicies manager ≠ none →
        loadPolicies services entries manager ≠ .panic
  | [], _, _, _ => nofun
  | (key, policy) :: rest, manager, present, pending => by
    rcases List.forall_mem_cons.mp present with ⟨first, others⟩
    rcases manager with ⟨_, _, _ | ⟨_, _⟩⟩
    · exact (pending rfl).elim
    · rw [loadPolicies, List.foldlM_cons]
      apply bind_ne_panic
      · apply bind_ne_panic (define_ne_panic first)
        nofun
      · intro _ proposes
        apply loadPolicies_ne_panic others
        simp only [Manager.proposePolicy, bind_ok_iff] at proposes
        rcases proposes with ⟨_, _, same⟩
        cases same
        exact Option.some_ne_none _

variable {first begun : Handler MSP}

theorem exists_sub_of_begin {names : List GoString} (opens : first.begin names = .ok begun) :
    ∀ name ∈ names, ∃ sub, begun.sub name = some sub := by
  intro name member
  rcases begun with ⟨_, _⟩
  rcases of_begin opens with ⟨beginsValues, beginsPolicies⟩
  rcases beginValueProposals_ok beginsValues with ⟨_, _, _, _, _, made, rfl⟩
  rcases first with ⟨_, ⟨_, _, _ | _⟩⟩
  · cases beginsPolicies
    rcases Option.isSome_iff_exists.mp (isSome_createGroups made name member) with ⟨group, found⟩
    rcases @exists_lookup_of_mem _ (names.map fun group => (group, (newManager : Manager MSP)))
        name (by simpa using member) with
      ⟨inner, located⟩
    exact ⟨⟨group, inner⟩, sub_eq_some_iff.mpr ⟨found, located⟩⟩
  · cases beginsPolicies

theorem begin_ne_panic {first : Handler MSP} (settled : first.Settled) (names : List GoString) :
    first.begin names ≠ .panic := by
  rcases first with ⟨⟨_, _, _, _ | _⟩, ⟨_, _, _ | _⟩⟩
  · rw [begin]
    apply bind_ne_panic
    · rw [ne_eq, mapError_panic_iff]
      apply bind_ne_panic createGroups_ne_panic
      simp
    · simp [Manager.beginPolicyProposals, mapError]
  · rcases settled with ⟨_, closed⟩
    cases closed
  · rcases settled with ⟨closed, _⟩
    cases closed
  · rcases settled with ⟨closed, _⟩
    cases closed

theorem sub_load {first later : Handler MSP}
    (loads : first.load services values policies = .ok later)
    (key : GoString) : later.sub key = first.sub key := by
  rcases of_load loads with ⟨loadsValues, loadsPolicies⟩
  simp only [sub, (loadValues_ok loadsValues).2, (loadPolicies_ok loadsPolicies).2]

theorem load_ne_panic {names : List GoString} (presentValues : ∀ entry ∈ values, entry.2 ≠ none)
    (presentPolicies : ∀ entry ∈ policies, entry.2 ≠ none) (opens : first.begin names = .ok begun) :
    begun.load services values policies ≠ .panic := by
  rcases begun with ⟨proposer, _⟩
  rcases of_begin opens with ⟨beginsValues, beginsPolicies⟩
  rw [load]
  apply bind_ne_panic
  · rw [ne_eq, mapError_panic_iff]
    have opened := (proposedValues_beginValueProposals beginsValues).2
    rcases proposer with ⟨_, _, _, _ | _⟩
    · cases opened
    · apply bind_ne_panic (deserializeAll_ne_panic _ presentValues)
      simp
  · intro _ _
    apply bind_ne_panic
    · rw [ne_eq, mapError_panic_iff]
      apply loadPolicies_ne_panic presentPolicies
      rw [proposedPolicies_beginPolicyProposals beginsPolicies]
      exact Option.some_ne_none _
    · simp

mutual

/--
What is open after a group has been proposed is its configuration, and a tree
without nil entries is proposed without a panic.
-/
theorem proposeGroup_spec :
    ∀ (group : ConfigGroup) {handler : Handler MSP}, handler.Settled →
      ((proposeGroup services group handler).outcome = .ok () →
        Proposes services Eq group
          (proposeGroup services group handler).result
          (proposeGroup services group handler).handler) ∧
      (NilFree group → Ordered group →
        (proposeGroup services group handler).outcome ≠ .panic)
  | .mk _ groups _ _ _, handler, settled => by
    rw [proposeGroup]
    split
    next => exact ⟨nofun, fun _ _ => nofun⟩
    next panics => exact ⟨nofun, fun _ _ => absurd panics (begin_ne_panic settled _)⟩
    next _ opens =>
      split
      next => exact ⟨nofun, fun _ _ => nofun⟩
      next panics =>
        refine ⟨nofun, ?_⟩
        rintro ⟨_, presentValues, presentPolicies⟩ _
        exact absurd panics (load_ne_panic presentValues presentPolicies opens)
      next _ loads =>
        rcases proposeGroups_spec groups (progress_load settled opens loads) with ⟨adds, quiet⟩
        dsimp only
        split
        next => exact ⟨nofun, fun _ _ => nofun⟩
        next =>
          constructor
          · intro accepted
            rcases adds accepted with ⟨_, listed, distinct, added⟩
            rw [listed]
            exact proposes_of_adds settled opens loads distinct added
          · rintro ⟨present, _, _⟩ ⟨ordered, keys, _, _⟩
            refine quiet present ordered (keys.imp ne_of_lt) (fun _ _ => List.not_mem_nil) ?_
            intro key member
            rcases exists_sub_of_begin opens key member with ⟨sub, found⟩
            exact ⟨sub, (sub_load loads key).trans found⟩

theorem proposeGroups_spec :
    ∀ (groups : ConfigGroups) {first handler : Handler MSP} {done : SubResults},
      Progress first done handler →
      ((proposeGroups services groups handler done).outcome = .ok () →
        ∃ results, (proposeGroups services groups handler done).result =
              .mk (done ++ results) ∧ ((done ++ results).map Prod.fst).Nodup ∧
            Adds services groups results handler
              (proposeGroups services groups handler done).handler) ∧
      (NilFreeGroups groups → OrderedGroups groups → (entryKeys (groupEntries groups)).Nodup →
        (∀ key ∈ entryKeys (groupEntries groups), key ∉ done.map Prod.fst) →
        (∀ key ∈ entryKeys (groupEntries groups), ∃ sub, handler.sub key = some sub) →
        (proposeGroups services groups handler done).outcome ≠ .panic)
  | .nil, _, _, done, progress => by
    rw [proposeGroups]
    refine ⟨fun _ => ⟨[], ?_, ?_, .nil, ⟨rfl, rfl, rfl⟩, rfl⟩, nofun⟩
    · rw [List.append_nil]
    · rw [List.append_nil]
      exact nodup_of_opened progress.opened progress.pending
  | .absent _ _, _, _, _, _ => by
    rw [proposeGroups]
    exact ⟨nofun, nofun⟩
  | .present key group rest, first, handler, done, progress => by
    rw [proposeGroups]
    split
    next missing =>
      refine ⟨nofun, ?_⟩
      intro _ _ _ _ there
      rcases there key List.mem_cons_self with ⟨_, found⟩
      rw [missing] at found
      cases found
    next inner found =>
      by_cases listed : key ∈ done.map Prod.fst
      · simp only [proposeGroup_of_pending group (progress.begun key inner listed found)]
        exact ⟨nofun, fun _ _ _ fresh _ => absurd listed (fresh key List.mem_cons_self)⟩
      · have settled := progress.settled key inner listed found
        have returns := @returns_proposeGroup MSP services group inner settled
        rcases @proposeGroup_spec group inner settled with ⟨proposes, quiet⟩
        dsimp only
        split
        next accepted =>
          rw [Proposed.Returns, accepted] at returns
          rcases proposeGroups_spec rest (progress.next listed found returns.1.values returns.2)
            with ⟨adds, quietRest⟩
          constructor
          · intro acceptedRest
            rcases adds acceptedRest with ⟨_, same, distinct, added⟩
            rw [List.append_assoc, List.singleton_append] at same distinct
            refine ⟨_, same, distinct, ?_⟩
            apply adds_cons found (kind_of_begun returns.1.values) (proposes accepted) ?_ added
            rw [List.map_append, List.map_cons] at distinct
            exact (List.nodup_cons.mp distinct.of_append_right).1
          · rintro ⟨_, presentRest⟩ ⟨_, orderedRest⟩ distinct fresh there
            rcases List.nodup_cons.mp distinct with ⟨unlisted, distinct⟩
            have different : ∀ other ∈ entryKeys (groupEntries rest), other ≠ key :=
              fun _ member => ne_of_mem_of_not_mem member unlisted
            refine quietRest presentRest orderedRest distinct ?_ ?_
            · intro other member
              rw [List.map_append, List.mem_append, List.map_singleton, List.mem_singleton, not_or]
              exact ⟨fresh other (List.mem_cons_of_mem _ member), different other member⟩
            · intro other member
              rw [sub_setSub_of_ne (different other member)]
              exact there other (List.mem_cons_of_mem _ member)
        next => exact ⟨nofun, fun _ _ _ _ _ => nofun⟩
        next panics =>
          exact ⟨nofun, fun present ordered _ _ _ => absurd panics (quiet present.1 ordered.1)⟩

end

theorem preCommitSub_ne_panic :
    ∀ {subResults : SubResults} {store : MSPConfigStore MSP} {first : Proposer},
      (subResults.map Prod.fst).Nodup → (∀ key result, (key, result) ∈ subResults → ∃ before,
          first.group key = some before ∧
            ∀ store, preCommit services result store before ≠ .panic) →
        preCommitSub services subResults store first ≠ .panic
  | [], _, _, _, _ => nofun
  | (key, result) :: rest, store, first, distinct, ready => by
    rcases List.nodup_cons.mp distinct with ⟨fresh, distinct⟩
    rcases ready key result List.mem_cons_self with ⟨before, found, safe⟩
    rw [preCommitSub, found, deref_some, ok_bind]
    apply bind_ne_panic (safe store)
    rintro ⟨_, group⟩ _
    apply preCommitSub_ne_panic distinct
    intro other sub listed
    have different : other ≠ key := ne_of_mem_of_not_mem (List.mem_map_of_mem listed) fresh
    rw [Proposer.group_setGroup_of_ne different]
    exact ready other sub (List.mem_cons_of_mem _ listed)

theorem proposedValues_preCommitSub :
    ∀ {subResults : SubResults} {store next : MSPConfigStore MSP}
      {first later : Proposer}, preCommitSub services subResults store first = .ok (next, later) →
        proposedValues later = proposedValues first
  | [], _, _, _, _, checked => by
    cases checked
    rfl
  | _ :: rest, _, _, _, _, checked => by
    simp only [preCommitSub, bind_ok_iff] at checked
    rcases checked with ⟨_, _, ⟨_, _⟩, _, others⟩
    rw [proposedValues_preCommitSub others, proposedValues_setGroup]

theorem validateMSP_ne_panic {org : OrganizationConfig} (quiet : services.setup org.msp ≠ .panic)
    (name : GoString) (committed : Option OrganizationConfig) (store : MSPConfigStore MSP) :
    validateMSP services name committed store org ≠ .panic := by
  rw [validateMSP]
  apply bind_ne_panic
  · rw [MSPConfigStore.proposeMSP]
    apply require_bind_ne_panic
    intro _
    apply mapError_bind_ne_panic
    · exact quiet
    · intro _ _
      apply require_bind_ne_panic
      simp
  · rintro ⟨_, _⟩ _
    apply require_bind_ne_panic
    intro _
    apply require_bind_ne_panic
    simp

/-- Values are checked without a panic, unless the setup of their provider panics. -/
theorem validate_ne_panic {values : Values}
    (quiet : ∀ org, values.organization? = some org → services.setup org.msp ≠ .panic)
    (kind : Kind) (committed : Option Values) (groups : List (GoString × Kind))
    (store : MSPConfigStore MSP) :
    values.validate services kind committed groups store ≠ .panic := by
  cases values with
  | channel protos _ =>
    rw [Values.validate]
    apply bind_ne_panic
    · rw [validateHashingAlgorithm]
      split_ifs <;> simp
    · intro _ _
      apply require_bind_ne_panic
      intro _
      apply require_bind_ne_panic
      intro _
      apply bind_ne_panic
      · apply forM_ne_panic
        intro _ _
        rw [validateChannelGroup]
        split_ifs <;>
          first | exact require_ne_panic _ _ | simp
      · simp
  | application =>
    apply bind_ne_panic
    · exact forM_ne_panic fun _ _ => require_ne_panic _ _
    · simp
  | applicationOrg _ org =>
    apply bind_ne_panic (validateMSP_ne_panic (quiet org rfl) _ _ _)
    simp
  | orderer protos _ =>
    rw [Values.validate]
    apply bind_ne_panic
    · unfold validateConsensusType
      split
      · exact require_ne_panic _ _
      · simp
    · intro _ _
      apply bind_ne_panic
      · rw [validateBatchSize]
        apply require_bind_ne_panic
        intro _
        apply require_bind_ne_panic
        intro _
        apply require_bind_ne_panic
        intro _
        exact require_ne_panic _ _
      · intro _ _
        apply bind_ne_panic
        · rw [validateBatchTimeout]
          apply ofOption_bind_ne_panic
          intro _ _
          apply require_bind_ne_panic
          simp
        · intro _ _
          apply bind_ne_panic
          · exact forM_ne_panic fun _ _ => require_ne_panic _ _
          · intro _ _
            apply bind_ne_panic
            · exact forM_ne_panic fun _ _ => require_ne_panic _ _
            · simp
  | organization org =>
    apply bind_ne_panic (validateMSP_ne_panic (quiet org rfl) _ _ _)
    simp
  | consortiums | consortium _ =>
    apply bind_ne_panic
    · exact forM_ne_panic fun _ _ => require_ne_panic _ _
    · simp

/-- A check panics only if the setup of a provider that the configuration defines does. -/
theorem Proposes.preCommit_ne_panic
    (proposes : Proposes services Eq group result handler)
    (quiet : ∀ config, Defines services.codec handler.values.kind group config →
      services.setup config ≠ .panic) (store : MSPConfigStore MSP) :
    Proposals.preCommit services result store handler.values ≠ .panic := by
  induction proposes generalizing store with
  | @mk group subResults handler allocated decoded defined listed distinct
      decodes values staged defines policies present below ih =>
      subst staged
      rw [Proposals.preCommit]
      apply bind_ne_panic
      · apply preCommitSub_ne_panic distinct
        intro key result member
        rcases present key (listed ▸ List.mem_map_of_mem member) with
          ⟨inner, sub, there, found, kinds⟩
        exact ⟨sub.values, (sub_eq_some_iff.mp found).1, ih key result inner sub member there found
          fun config defined => quiet config (.inner there kinds defined)⟩
      · rintro ⟨_, middle⟩ checked
        have pending := (proposedValues_preCommitSub checked).trans values
        rcases middle with ⟨_, _, _, _ | _⟩
        · cases pending
        · cases pending
          apply bind_ne_panic (validate_ne_panic (fun org organization =>
            quiet _ (.own decodes organization)) _ _ _ _)
          nofun

end

/-! ## Committing the configuration of a channel -/

section

theorem provides_empty (services : Services MSP) :
    MSPConfigStore.Provides services (fun _ => False) ⟨[], none⟩ :=
  ⟨rfl, fun _ none => none.elim, fun _ _ _ => by simp⟩

theorem lookup_map {Item Other : Type} (change : Item → Other) (key : GoString)
    (entries : List (GoString × Item)) :
    (entries.map fun entry => (entry.1, change entry.2)).lookup key =
      (entries.lookup key).map change := by
  induction entries with
  | nil => rfl
  | cons entry entries ih =>
    rw [List.map_cons, List.lookup_cons, List.lookup_cons, ih]
    cases key == entry.1 <;> rfl

/-- The manager has the providers of the store, if there are any. -/
theorem provided_preCommit {store : MSPConfigStore MSP} {kind : Kind} {group : ConfigGroup}
    (provides : store.Provides services (Defines services.codec kind group)) :
    Provided services kind group store.preCommit.proposedMgr := by
  have empty : store.idMap = [] ↔ ∀ config, ¬ Defines services.codec kind group config := by
    constructor
    · intro empty config defined
      rcases provides.setup config defined with ⟨msp, setup⟩
      have found := (provides.lookup _ config msp).mpr ⟨defined, setup, rfl⟩
      rw [empty] at found
      cases found
    · intro none
      rcases entries : store.idMap with _ | ⟨⟨id, config, msp⟩, rest⟩
      · rfl
      · have found := provides.lookup id config msp
        rw [entries, List.lookup_cons_self] at found
        exact absurd (found.mp rfl).1 (none config)
  rw [MSPConfigStore.preCommit]
  constructor
  · rw [← empty]
    split_ifs with isEmpty
    · simp [provides.pending, List.isEmpty_iff.mp isEmpty]
    · simpa using isEmpty
  · intro msps held id msp
    split_ifs at held with isEmpty
    · rw [provides.pending] at held
      cases held
    · cases held
      rw [lookup_map Prod.snd, Option.map_eq_some_iff]
      constructor
      · rintro ⟨⟨config, _⟩, found, rfl⟩
        exact ⟨config, (provides.lookup id config _).mp found⟩
      · rintro ⟨config, defined⟩
        exact ⟨(config, msp), (provides.lookup id config msp).mpr defined, rfl⟩

variable {channelGroup : ConfigGroup} {resources : Resources MSP}

variable {later : Resources MSP}

theorem proposes_propose (settled : resources.Settled)
    (proposed : resources.propose services channelGroup = (later, .ok result)) :
    Proposes services Eq channelGroup result later.handler ∧
      later.channel.kind = resources.channel.kind ∧
      later.mspConfigHandler.pending = some ⟨[], none⟩ := by
  have returns := @returns_propose MSP services resources settled channelGroup
  rw [Resources.Returns, proposed] at returns
  have sameKind := kind_of_begun returns.handler.values
  have proposes := (@proposeGroup_spec MSP services channelGroup resources.handler
      ⟨settled.channel, settled.policyManager⟩).1
  rw [Resources.propose, beginConfig_of_settled settled] at proposed
  dsimp only at proposed
  split at proposed
  next outcome =>
    cases proposed
    exact ⟨proposes outcome, sameKind, rfl⟩
  next => cases proposed
  next => cases proposed

theorem propose_ne_panic (settled : resources.Settled) (present : NilFree channelGroup)
    (ordered : Ordered channelGroup) :
    (resources.propose services channelGroup).2 ≠ .panic := by
  have quiet := (@proposeGroup_spec MSP services channelGroup resources.handler
      ⟨settled.channel, settled.policyManager⟩).2
  rw [Resources.propose, beginConfig_of_settled settled]
  dsimp only
  split
  next => simp
  next => simp
  next panics => exact absurd panics (quiet present ordered)

section

variable (settled : resources.Settled)
  (processed : resources.processConfig services channelGroup = (later, .ok result))
include settled processed

theorem proposes_processConfig :
    Proposes services (Derived services) channelGroup result later.handler ∧
      later.channel.kind = resources.channel.kind ∧
      ∃ store : MSPConfigStore MSP, later.mspConfigHandler.pending = some store.preCommit ∧
        store.Provides services (Defines services.codec resources.channel.kind channelGroup) := by
  rw [Resources.processConfig] at processed
  split at processed
  next _ _ proposed =>
    split at processed
    next _ accepted =>
      cases processed
      rcases proposes_propose settled proposed with ⟨proposes, kind, pending⟩
      simp only [Resources.preCommit, pending, deref_some, ok_bind, bind_ok_iff,
        mapError_ok_iff] at accepted
      rcases accepted with ⟨⟨_, channel⟩, inner, same⟩
      cases same
      rcases proposes.preCommit inner (provides_empty services) with ⟨kept, sameKind, provides⟩
      refine ⟨kept, sameKind.trans kind, _, rfl, provides.congr fun config => ?_⟩
      rw [← kind, false_or]
      rfl
    next => cases processed
    next => cases processed
  next => cases processed
  next => cases processed

theorem exists_commit_of_processConfig :
    ∃ committed, later.commit result = .ok committed ∧ committed.Settled ∧
      committed.channel.kind = resources.channel.kind ∧
      Provided services resources.channel.kind channelGroup committed.mspConfigHandler.manager ∧
      Holds services resources.policyManager channelGroup committed.handler := by
  rcases proposes_processConfig settled processed with
    ⟨proposes, kind, store, pending, provides⟩
  rcases proposes.commit later.policyManager with
    ⟨channel, policyManager, commitsValues, commitsPolicies, same, holds⟩
  have returns := @returns_processConfig MSP services resources settled channelGroup
  rw [Resources.Returns, processed] at returns
  have held : Holds services resources.policyManager channelGroup
        ⟨channel, policyManager⟩ :=
    holds.congr returns.handler.policies.policies
  refine ⟨⟨channel, policyManager, none, store.preCommit.proposedMgr⟩, ?_, ?_, same.trans kind,
    provided_preCommit provides, held⟩
  · simp only [Resources.handler] at commitsValues commitsPolicies
    simp [Resources.commit, commitsValues, commitsPolicies, pending, mapError]
  · exact ⟨held.settled.values, held.settled.policies, rfl⟩

end

theorem processConfig_ne_panic
    (quiet : ∀ config, Defines services.codec resources.channel.kind channelGroup config →
      services.setup config ≠ .panic)
    (settled : resources.Settled) (present : NilFree channelGroup)
    (ordered : Ordered channelGroup) :
    (resources.processConfig services channelGroup).2 ≠ .panic := by
  rw [Resources.processConfig]
  split
  next later _ proposed =>
    rcases proposes_propose settled proposed with ⟨proposes, kind, pending⟩
    split
    next => simp
    next => simp
    next panics =>
      simp only [Resources.preCommit, pending, deref_some, ok_bind] at panics
      refine absurd panics (bind_ne_panic ?_ ?_)
      · rw [ne_eq, mapError_panic_iff]
        apply proposes.preCommit_ne_panic
        rw [← kind] at quiet
        exact quiet
      · simp
  next => simp
  next later proposed =>
    exact absurd (congrArg Prod.snd proposed) (propose_ne_panic settled present ordered)

end

end Fabric.Config.Committed
