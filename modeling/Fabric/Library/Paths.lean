/-!
# Nodes at the end of a path

The nodes of a tree have children under keys, which may be replaced.  A path
leads from a node to one below it, and what is at its end may be updated in
place; an update at the end of a path that leads nowhere changes nothing.

Children that are replaced one after the other, each under a key of its own, do
not get in each other's way.
-/

namespace Fabric.Library.Paths

/-! ## Replacing some children of a node -/

section

variable {Key Item Node : Type} {child : Key → Node → Option Node}
  {Each : Key → Item → Node → Node → Prop} {key : Key} {item : Item} {listed : List (Key × Item)}
  {first next later before after : Node}

/-- The children under the listed keys have been changed, and no others. -/
structure Changes (child : Key → Node → Option Node) (Each : Key → Item → Node → Node → Prop)
    (listed : List (Key × Item)) (first later : Node) : Prop where
  others : ∀ key, key ∉ listed.map Prod.fst → child key later = child key first
  each : ∀ key item, (key, item) ∈ listed → ∃ before after,
      child key first = some before ∧ child key later = some after ∧ Each key item before after

theorem Changes.nil : Changes child Each [] first first := by
  refine ⟨fun _ _ => rfl, ?_⟩
  intro key item member
  cases member

/-- One more child has been changed before the others. -/
theorem Changes.cons (found : child key first = some before)
    (replaced : child key next = some after)
    (kept : ∀ other, other ≠ key → child other next = child other first)
    (changed : Each key item before after) (fresh : key ∉ listed.map Prod.fst)
    (rest : Changes child Each listed next later) :
    Changes child Each ((key, item) :: listed) first later := by
  constructor
  · intro other unlisted
    rw [List.map_cons, List.mem_cons, not_or] at unlisted
    rw [rest.others other unlisted.2, kept other unlisted.1]
  · intro other inner member
    rcases List.mem_cons.mp member with same | listed
    · cases same
      refine ⟨before, after, found, ?_, changed⟩
      rw [rest.others key fresh, replaced]
    · rcases rest.each other inner listed with ⟨source, target, located, remains, changes⟩
      rw [kept other (ne_of_mem_of_not_mem (List.mem_map_of_mem listed) fresh)] at located
      exact ⟨source, target, located, remains, changes⟩

theorem Changes.imp {Other : Key → Item → Node → Node → Prop}
    (changes : Changes child Each listed first later)
    (weaken : ∀ key item before after, Each key item before after → Other key item before after) :
    Changes child Other listed first later := by
  refine ⟨changes.others, ?_⟩
  intro key item member
  rcases changes.each key item member with ⟨before, after, found, remains, changed⟩
  exact ⟨before, after, found, remains, weaken key item before after changed⟩

end

/-! ## Paths -/

/-- How the nodes of a tree hold their children. -/
structure Children (Key Node : Type) where
  child : Key → Node → Option Node
  setChild : Key → Node → Node → Node
  child_setChild : ∀ {key node inner}, child key node = some inner →
      ∀ later, child key (setChild key later node) = some later
  setChild_setChild : ∀ {key node inner}, child key node = some inner →
      ∀ first second, setChild key second (setChild key first node) = setChild key second node

namespace Children

variable {Key Node : Type} (children : Children Key Node)

/-- The node at the end of a path. -/
def nodeAt : List Key → Node → Option Node
  | [], node => some node
  | key :: path, node => (children.child key node).bind (nodeAt path)

/-- Update the node at the end of a path. -/
def updateAt (update : Node → Node) : List Key → Node → Node
  | [], node => update node
  | key :: path, node =>
    match children.child key node with
    | some inner => children.setChild key (updateAt update path inner) node
    | none => node

variable {children}

theorem nodeAt_append (path : List Key) (key : Key) (node : Node) :
    children.nodeAt (path ++ [key]) node =
      (children.nodeAt path node).bind (children.child key) := by
  induction path generalizing node with
  | nil =>
    show (children.child key node).bind some = children.child key node
    rw [Option.bind_fun_some]
  | cons first path ih =>
    rw [List.cons_append, nodeAt, nodeAt]
    cases children.child first node with
    | none => rfl
    | some inner => exact ih inner

theorem updateAt_append (update : Node → Node) (path : List Key) (key : Key) (node : Node) :
    children.updateAt update (path ++ [key]) node =
      children.updateAt (children.updateAt update [key]) path node := by
  induction path generalizing node with
  | nil => rfl
  | cons first path ih =>
    rw [List.cons_append, updateAt, updateAt]
    cases children.child first node with
    | none => rfl
    | some _ => simp only [ih]

variable {node inner : Node}

theorem nodeAt_updateAt {path : List Key} (found : children.nodeAt path node = some inner)
    (update : Node → Node) :
    children.nodeAt path (children.updateAt update path node) = some (update inner) := by
  induction path generalizing node with
  | nil =>
    cases found
    rfl
  | cons _ path ih =>
    rw [nodeAt, Option.bind_eq_some_iff] at found
    rcases found with ⟨_, here, below⟩
    rw [updateAt, here, nodeAt, children.child_setChild here]
    exact ih below

theorem updateAt_of_child {key : Key}
    (here : children.child key node = some inner) (update : Node → Node) (path : List Key) :
    children.updateAt update (key :: path) node =
      children.setChild key (children.updateAt update path inner) node := by
  rw [updateAt, here]

theorem updateAt_of_no_child {key : Key} {node : Node} (here : children.child key node = none)
    (update : Node → Node) (path : List Key) :
    children.updateAt update (key :: path) node = node := by
  rw [updateAt, here]

theorem updateAt_updateAt (first second : Node → Node) (path : List Key) (node : Node) :
    children.updateAt second path (children.updateAt first path node) =
      children.updateAt (fun inner => second (first inner)) path node := by
  induction path generalizing node with
  | nil => rfl
  | cons key path ih =>
    cases here : children.child key node with
    | none => simp only [updateAt_of_no_child here]
    | some inner =>
      have replaced := children.child_setChild here
      rw [updateAt_of_child here, updateAt_of_child here, updateAt_of_child (replaced _),
        children.setChild_setChild here, ih]

theorem updateAt_congr {path : List Key} (found : children.nodeAt path node = some inner)
    {first second : Node → Node} (same : first inner = second inner) :
    children.updateAt first path node = children.updateAt second path node := by
  induction path generalizing node with
  | nil =>
    cases found
    exact same
  | cons _ path ih =>
    rw [nodeAt, Option.bind_eq_some_iff] at found
    rcases found with ⟨_, here, below⟩
    rw [updateAt, updateAt, here]
    simp only [ih below]

end Children

end Fabric.Library.Paths
