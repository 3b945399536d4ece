import Fabric.Library.ByteString

/-!
# Ordered key-value stores

A store is an ordered finite map; a scan lists the entries of a key interval
in key order.  Pending updates are a second map whose values may be `none`,
which stands for a deletion.

The module relates three ways of looking at "the store with the updates
applied": the updated map, the merge of the two sorted scans, and the lookup
in the updates first.  It also records how a scan that was stopped early is
determined by the last key it returned.
-/

namespace Fabric.Library.OrderedStore

open Std (ExtTreeMap)

variable {Key : Type*} [LinearOrder Key] {Value : Type*}

/-! ## Lists sorted by key -/

/-- Strictly increasing in the key. -/
def SortedByKey (entries : List (Key × Value)) : Prop :=
  entries.Pairwise fun left right => left.1 < right.1

theorem toList_sortedByKey (store : ExtTreeMap Key Value) : SortedByKey store.toList := by
  refine store.ordered_keys_toList.imp ?_
  intro _ _ ordered
  exact compare_lt_iff_lt.mp ordered

variable {entries : List (Key × Value)}

theorem SortedByKey.filter (sorted : SortedByKey entries) (keep : Key × Value → Bool) :
    SortedByKey (entries.filter keep) :=
  List.Pairwise.filter keep sorted

variable {entry : Key × Value}

theorem SortedByKey.tail (sorted : SortedByKey (entry :: entries)) : SortedByKey entries :=
  (List.pairwise_cons.mp sorted).2

theorem SortedByKey.head_lt (sorted : SortedByKey (entry :: entries))
    {other : Key × Value} (member : other ∈ entries) :
    entry.1 < other.1 :=
  (List.pairwise_cons.mp sorted).1 other member

variable {key : Key}

theorem SortedByKey.lt_of_lt_head (sorted : SortedByKey (entry :: entries)) (less : key < entry.1)
    : ∀ other ∈ entry :: entries, key < other.1 := by
  intro other member
  rcases List.mem_cons.mp member with equal | later
  · rwa [equal]
  · exact less.trans (sorted.head_lt later)

theorem not_mem_of_lt (above : ∀ entry ∈ entries, key < entry.1) (value : Value) :
    (key, value) ∉ entries :=
  fun member => lt_irrefl key (above _ member)

theorem SortedByKey.nodup (sorted : SortedByKey entries) : entries.Nodup := by
  refine List.Pairwise.imp ?_ sorted
  intro _ _ ordered equal
  exact absurd ordered (by simp [equal])

theorem SortedByKey.eq_of_mem_iff {left right : List (Key × Value)} (leftSorted : SortedByKey left)
    (rightSorted : SortedByKey right) (sameMembers : ∀ entry, entry ∈ left ↔ entry ∈ right) :
    left = right := by
  have permutation : left.Perm right :=
    (List.perm_ext_iff_of_nodup leftSorted.nodup rightSorted.nodup).mpr sameMembers
  refine permutation.eq_of_pairwise ?_ leftSorted rightSorted
  intro _ _ _ _ forward backward
  exact absurd forward (lt_asymm backward)

/-! ## Merging pending updates into a sorted list -/

/--
Merge two lists sorted by key.  On a common key the update wins, and an
update without a value removes the key.
-/
def mergeUpdates : List (Key × Value) → List (Key × Option Value) → List (Key × Value)
  | [], [] => []
  | entry :: entries, [] => entry :: mergeUpdates entries []
  | [], (key, some value) :: updates => (key, value) :: mergeUpdates [] updates
  | [], (_, none) :: updates => mergeUpdates [] updates
  | entry :: entries, (key, update) :: updates =>
    match compare entry.1 key with
    | .lt => entry :: mergeUpdates entries ((key, update) :: updates)
    | .eq =>
      match update with
      | some value => (key, value) :: mergeUpdates entries updates
      | none => mergeUpdates entries updates
    | .gt =>
      match update with
      | some value => (key, value) :: mergeUpdates (entry :: entries) updates
      | none => mergeUpdates (entry :: entries) updates
termination_by entries updates => entries.length + updates.length

/-- What the merge contains, in terms of its two arguments. -/
def Merged (entries : List (Key × Value)) (updates : List (Key × Option Value))
    (key : Key) (value : Value) : Prop :=
  (key, some value) ∈ updates ∨ (key, value) ∈ entries ∧ ∀ update, (key, update) ∉ updates

section

variable (entries : List (Key × Value)) (updates : List (Key × Option Value))
  (entriesSorted : SortedByKey entries) (updatesSorted : SortedByKey updates)

include entriesSorted updatesSorted

theorem mem_mergeUpdates_iff (key : Key) (value : Value)
    : (key, value) ∈ mergeUpdates entries updates ↔ Merged entries updates key value := by
  fun_induction mergeUpdates entries updates with
  | case1 => simp [Merged]
  | case2 entry entries ih =>
    have tail := ih entriesSorted.tail updatesSorted
    simp only [Merged, List.not_mem_nil, false_or] at tail
    simp [Merged, tail]
  | case3 head headValue updates ih | case4 head updates ih =>
    have tail := ih entriesSorted updatesSorted.tail
    simp only [Merged, List.not_mem_nil, false_and, or_false] at tail
    simp [Merged, tail]
  | case5 entry entries head _ updates smaller ih =>
    have headLess : entry.1 < head := compare_lt_iff_lt.mp smaller
    have tail := ih entriesSorted.tail updatesSorted
    have absent := not_mem_of_lt (updatesSorted.lt_of_lt_head headLess)
    rw [List.mem_cons, tail]
    unfold Merged
    grind
  | case6 entry entries head updates same headValue ih =>
    have headEq : entry.1 = head := compare_eq_iff_eq.mp same
    have tail := ih entriesSorted.tail updatesSorted.tail
    have absent := not_mem_of_lt fun _ => entriesSorted.head_lt
    rw [List.mem_cons, tail]
    unfold Merged
    grind
  | case7 entry entries head updates same ih =>
    have headEq : entry.1 = head := compare_eq_iff_eq.mp same
    have tail := ih entriesSorted.tail updatesSorted.tail
    have absentEntry := not_mem_of_lt fun _ => entriesSorted.head_lt
    have absentUpdate := not_mem_of_lt fun _ => updatesSorted.head_lt
    rw [tail]
    unfold Merged
    grind
  | case8 entry entries head updates larger headValue ih =>
    have headLess : head < entry.1 := compare_gt_iff_gt.mp larger
    have tail := ih entriesSorted updatesSorted.tail
    have absent := not_mem_of_lt (entriesSorted.lt_of_lt_head headLess)
    rw [List.mem_cons, tail]
    unfold Merged
    grind
  | case9 entry entries head updates larger ih =>
    have headLess : head < entry.1 := compare_gt_iff_gt.mp larger
    have tail := ih entriesSorted updatesSorted.tail
    have absentEntry := not_mem_of_lt (entriesSorted.lt_of_lt_head headLess)
    have absentUpdate := not_mem_of_lt fun _ => updatesSorted.head_lt
    rw [tail]
    unfold Merged
    grind

theorem mergeUpdates_lt_of_lt (bound : Key) (entriesAbove : ∀ entry ∈ entries, bound < entry.1)
    (updatesAbove : ∀ update ∈ updates, bound < update.1) :
    ∀ entry ∈ mergeUpdates entries updates, bound < entry.1 := by
  rintro ⟨key, value⟩ member
  rcases (mem_mergeUpdates_iff entries updates entriesSorted updatesSorted
      key value).mp member with updated | ⟨kept, _⟩
  · exact updatesAbove _ updated
  · exact entriesAbove _ kept

theorem mergeUpdates_sortedByKey : SortedByKey (mergeUpdates entries updates) := by
  fun_induction mergeUpdates entries updates with
  | case1 => exact List.Pairwise.nil
  | case2 entry entries ih =>
    refine List.pairwise_cons.mpr ⟨?_, ih entriesSorted.tail updatesSorted⟩
    exact mergeUpdates_lt_of_lt entries [] entriesSorted.tail
      updatesSorted entry.1 (fun _ => entriesSorted.head_lt) (by simp)
  | case3 head headValue updates ih =>
    refine List.pairwise_cons.mpr ⟨?_, ih entriesSorted updatesSorted.tail⟩
    exact mergeUpdates_lt_of_lt [] updates entriesSorted
      updatesSorted.tail head (by simp) (fun _ => updatesSorted.head_lt)
  | case4 head updates ih => exact ih entriesSorted updatesSorted.tail
  | case5 entry entries head update updates smaller ih =>
    have headLess : entry.1 < head := compare_lt_iff_lt.mp smaller
    refine List.pairwise_cons.mpr ⟨?_, ih entriesSorted.tail updatesSorted⟩
    refine mergeUpdates_lt_of_lt entries ((head, update) :: updates)
      entriesSorted.tail updatesSorted entry.1
      (fun _ => entriesSorted.head_lt) ?_
    exact updatesSorted.lt_of_lt_head headLess
  | case6 entry entries head updates same headValue ih =>
    have headEq : entry.1 = head := compare_eq_iff_eq.mp same
    refine List.pairwise_cons.mpr ⟨?_, ih entriesSorted.tail updatesSorted.tail⟩
    refine mergeUpdates_lt_of_lt entries updates entriesSorted.tail
      updatesSorted.tail head ?_ (fun _ => updatesSorted.head_lt)
    intro _ member
    simpa [headEq] using entriesSorted.head_lt member
  | case7 entry entries head updates same ih => exact ih entriesSorted.tail updatesSorted.tail
  | case8 entry entries head updates larger headValue ih =>
    have headLess : head < entry.1 := compare_gt_iff_gt.mp larger
    refine List.pairwise_cons.mpr ⟨?_, ih entriesSorted updatesSorted.tail⟩
    refine mergeUpdates_lt_of_lt (entry :: entries) updates entriesSorted
      updatesSorted.tail head ?_ (fun _ => updatesSorted.head_lt)
    exact entriesSorted.lt_of_lt_head headLess
  | case9 entry entries head updates larger ih => exact ih entriesSorted updatesSorted.tail

end

theorem length_mergeUpdates_le (entries : List (Key × Value))
    (updates : List (Key × Option Value)) : (mergeUpdates entries updates).length ≤
      entries.length + updates.length := by
  fun_induction mergeUpdates entries updates <;> simp_all <;> omega

/-! ## Applying pending updates to a store -/

/-- Write one update; an update without a value removes the key. -/
def applyUpdate (store : ExtTreeMap Key Value) (key : Key) (update : Option Value) :
    ExtTreeMap Key Value :=
  match update with
  | some value => store.insert key value
  | none => store.erase key

@[simp]
theorem getElem?_applyUpdate_self
    (store : ExtTreeMap Key Value) (key : Key) (update : Option Value) :
    (applyUpdate store key update)[key]? = update := by
  cases update <;> simp [applyUpdate]

theorem getElem?_applyUpdate_of_ne (store : ExtTreeMap Key Value) (update : Option Value)
    {other : Key} (distinct : key ≠ other) :
    (applyUpdate store key update)[other]? = store[other]? := by
  cases update <;> simp [applyUpdate, ExtTreeMap.getElem?_insert,
      ExtTreeMap.getElem?_erase, distinct]

/-- Write a list of updates, one after the other. -/
def applyAll (store : ExtTreeMap Key Value) (updates : List (Key × Option Value)) :
    ExtTreeMap Key Value :=
  updates.foldl (fun current update => applyUpdate current update.1 update.2) store

/-- Write a map of updates, in key order. -/
def applyUpdates (store : ExtTreeMap Key Value) (updates : ExtTreeMap Key (Option Value)) :
    ExtTreeMap Key Value :=
  applyAll store updates.toList

theorem getElem?_applyAll_of_not_mem (updates : List (Key × Option Value))
    (store : ExtTreeMap Key Value) (key : Key) (absent : ∀ update, (key, update) ∉ updates) :
    (applyAll store updates)[key]? = store[key]? := by
  induction updates generalizing store with
  | nil => rfl
  | cons head _ ih =>
    have headNe : head.1 ≠ key := by
      intro equal
      exact absent head.2 (by simp [← equal])
    rw [applyAll, List.foldl_cons, ← applyAll, ih]
    · exact getElem?_applyUpdate_of_ne store head.2 headNe
    · intro update member
      exact absent update (List.mem_cons_of_mem head member)

/-- Updates of distinct keys may be written in any order. -/
theorem getElem?_applyAll_of_mem (updates : List (Key × Option Value))
    (distinct : (updates.map Prod.fst).Nodup)
    (store : ExtTreeMap Key Value) (key : Key) (update : Option Value)
    (member : (key, update) ∈ updates) : (applyAll store updates)[key]? = update := by
  induction updates generalizing store with
  | nil => simp at member
  | cons _ _ ih =>
    rw [List.map_cons, List.nodup_cons] at distinct
    rw [applyAll, List.foldl_cons, ← applyAll]
    rcases List.mem_cons.mp member with equal | later
    · subst equal
      rw [getElem?_applyAll_of_not_mem]
      · exact getElem?_applyUpdate_self store key update
      · intro _ otherMember
        exact distinct.1 (List.mem_map.mpr ⟨_, otherMember, rfl⟩)
    · exact ih distinct.2 _ later

theorem SortedByKey.nodup_keys (sorted : SortedByKey entries) : (entries.map Prod.fst).Nodup := by
  rw [List.Nodup, List.pairwise_map]
  exact List.Pairwise.imp (fun smaller => ne_of_lt smaller) sorted

/-- Reading an updated store consults the updates first. -/
theorem getElem?_applyUpdates (store : ExtTreeMap Key Value)
    (updates : ExtTreeMap Key (Option Value)) (key : Key) :
    (applyUpdates store updates)[key]? = updates[key]?.getD store[key]? := by
  cases found : updates[key]? with
  | some update =>
    exact getElem?_applyAll_of_mem updates.toList
        (toList_sortedByKey updates).nodup_keys store key update
        (ExtTreeMap.mem_toList_iff_getElem?_eq_some.mpr found)
  | none =>
    refine getElem?_applyAll_of_not_mem updates.toList store key ?_
    intro update member
    have present := ExtTreeMap.mem_toList_iff_getElem?_eq_some.mp member
    rw [found] at present
    cases present

/-! ## Scans -/

variable (inside : Key → Bool) (store : ExtTreeMap Key Value)

/-- The entries whose key lies in an interval, in key order. -/
def scan : List (Key × Value) :=
  store.toList.filter fun entry => inside entry.1

theorem scan_sortedByKey : SortedByKey (scan inside store) := (toList_sortedByKey store).filter _

@[simp]
theorem mem_scan_iff (key : Key) (value : Value) : (key, value) ∈ scan inside store ↔
      store[key]? = some value ∧ inside key = true := by
  simp [scan, ExtTreeMap.mem_toList_iff_getElem?_eq_some]

theorem scan_map {Image : Type*} (image : Key → Value → Image) :
    scan inside (store.map image) = (scan inside store).map fun entry =>
        (entry.1, image entry.1 entry.2) := by
  simp only [scan, ExtTreeMap.toList_map, List.filter_map]
  rfl

/-- Scanning an updated store merges the two scans. -/
theorem scan_applyUpdates (updates : ExtTreeMap Key (Option Value)) :
    scan inside (applyUpdates store updates) =
      mergeUpdates (scan inside store) (scan inside updates) := by
  refine (scan_sortedByKey inside _).eq_of_mem_iff
    (mergeUpdates_sortedByKey _ _ (scan_sortedByKey inside store)
      (scan_sortedByKey inside updates)) ?_
  rintro ⟨key, _⟩
  rw [mem_mergeUpdates_iff _ _ (scan_sortedByKey inside store) (scan_sortedByKey inside updates)]
  simp only [mem_scan_iff, Merged, getElem?_applyUpdates]
  cases updates[key]? with
  | none => simp
  | some update => cases update <;> simp

/-! ## Scans that were stopped early -/

/-- An initial segment is cut out of a sorted list by its last key. -/
theorem SortedByKey.filter_le_last {front back : List (Key × Value)} {last : Key × Value}
    (sorted : SortedByKey (front ++ last :: back)) : (front ++ last :: back).filter
        (fun entry => decide (entry.1 ≤ last.1)) =
      front ++ [last] := by
  obtain ⟨_, backSorted, across⟩ := List.pairwise_append.mp sorted
  have frontKept : front.filter (fun entry => decide (entry.1 ≤ last.1)) = front := by
    rw [List.filter_eq_self]
    intro entry member
    simpa using (across entry member last (by simp)).le
  have backDropped : back.filter (fun entry => decide (entry.1 ≤ last.1)) = [] := by
    rw [List.filter_eq_nil_iff]
    intro entry member
    simpa using (List.pairwise_cons.mp backSorted).1 entry member
  rw [List.filter_append, frontKept, List.filter_cons_of_pos (by simp), backDropped]

end Fabric.Library.OrderedStore
