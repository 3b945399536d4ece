import Fabric.Library.ByteString

/-!
# Keys behind a name

Several key spaces share one ordered store by writing the name of the space and
a zero byte before each key.  If names contain no zero byte, the first one in a
stored key ends the name, and the keys of one space are those between its name
with the zero byte and its name with the byte one.
-/

namespace Fabric.Library.SeparatedKeys

open ByteString

/-- A key behind a name and the separating zero byte. -/
def joined (name key : Bytes) : Bytes :=
  name ++ 0 :: key

/-- Take a sequence apart at its first zero byte. -/
def split : Bytes → Option (Bytes × Bytes)
  | [] => none
  | byte :: rest =>
    if byte = 0 then some ([], rest) else (split rest).map fun parts => (byte :: parts.1, parts.2)

/-- Names contain no zero byte. -/
def NulFree (name : Bytes) : Prop :=
  0 ∉ name

instance (name : Bytes) : Decidable (NulFree name) :=
  inferInstanceAs (Decidable (0 ∉ name))

theorem split_joined {name : Bytes} (free : NulFree name) (key : Bytes) :
    split (joined name key) = some (name, key) := by
  induction name with
  | nil => rfl
  | cons _ name ih =>
    rw [NulFree, List.mem_cons, not_or] at free
    have rest : split (name ++ 0 :: key) = some (name, key) := ih free.2
    rw [joined, List.cons_append, split, if_neg (Ne.symm free.1), rest]
    rfl

theorem joined_inj {name other key otherKey : Bytes}
    (free : NulFree name) (otherFree : NulFree other)
    (equal : joined name key = joined other otherKey) :
    name = other ∧ key = otherKey := by
  have parts := split_joined free key
  rw [equal, split_joined otherFree] at parts
  cases parts
  exact ⟨rfl, rfl⟩

theorem joined_right_inj {name key otherKey : Bytes} :
    joined name key = joined name otherKey ↔ key = otherKey := by
  rw [joined, joined, List.append_cancel_left_eq, List.cons_inj_right]

/-! ## Order -/

theorem append_lt_append_iff (front left right : Bytes) :
    front ++ left < front ++ right ↔ left < right := by
  induction front with
  | nil => rfl
  | cons _ front ih =>
    rw [List.cons_append, List.cons_append, List.cons_lt_cons_iff, ih]
    simp

theorem append_le_append_iff (front left right : Bytes) :
    front ++ left ≤ front ++ right ↔ left ≤ right := by
  rw [← not_lt, ← not_lt, append_lt_append_iff]

/-- What lies between two sequences with a common start has that start. -/
theorem exists_append_of_between {front left right bytes : Bytes}
    (lower : front ++ left ≤ bytes) (upper : bytes < front ++ right) :
    ∃ rest, bytes = front ++ rest := by
  induction front generalizing bytes with
  | nil => exact ⟨bytes, rfl⟩
  | cons _ front ih =>
    cases bytes with
    | nil => exact absurd (List.nil_lt_cons _ _) (not_lt.mpr lower)
    | cons _ bytes =>
      rw [List.cons_append] at lower upper
      rw [← not_lt, List.cons_lt_cons_iff] at lower
      rw [List.cons_lt_cons_iff] at upper
      rcases upper with smaller | ⟨rfl, upper⟩
      · exact absurd (Or.inl smaller) lower
      · have lower : front ++ left ≤ bytes := by
          rw [← not_lt]
          exact fun smaller => lower (Or.inr ⟨rfl, smaller⟩)
        rcases ih lower upper with ⟨rest, rfl⟩
        exact ⟨rest, rfl⟩

theorem joined_lt_joined_iff (name left right : Bytes) :
    joined name left < joined name right ↔ left < right := by
  rw [joined, joined, append_lt_append_iff, List.cons_lt_cons_iff]
  simp

theorem joined_le_joined_iff (name left right : Bytes) :
    joined name left ≤ joined name right ↔ left ≤ right := by
  rw [← not_lt, ← not_lt, joined_lt_joined_iff]

theorem joined_lt_bound (name key : Bytes) : joined name key < name ++ [1] := by
  rw [joined, append_lt_append_iff, List.cons_lt_cons_iff]
  exact Or.inl (by decide)

theorem exists_joined_of_lt_bound {name key bytes : Bytes}
    (lower : joined name key ≤ bytes) (upper : bytes < name ++ [1]) :
    ∃ rest, bytes = joined name rest := by
  rcases exists_append_of_between lower upper with ⟨rest, rfl⟩
  rw [joined, append_le_append_iff] at lower
  rw [append_lt_append_iff] at upper
  cases rest with
  | nil => exact absurd (List.nil_lt_cons _ _) (not_lt.mpr lower)
  | cons byte rest =>
    rw [List.cons_lt_cons_iff] at upper
    rcases upper with small | ⟨_, absurdity⟩
    · have zero : byte = 0 := by
        apply UInt8.toNat_inj.mp
        have below : byte.toNat < 1 := UInt8.lt_iff_toNat_lt.mp small
        show byte.toNat = 0
        exact Nat.lt_one_iff.mp below
      subst zero
      exact ⟨rest, rfl⟩
    · exact absurd absurdity (List.not_lt_nil _)

theorem exists_joined_of_lt_joined {name key bound bytes : Bytes}
    (lower : joined name key ≤ bytes) (upper : bytes < joined name bound) :
    ∃ rest, bytes = joined name rest :=
  exists_joined_of_lt_bound lower (upper.trans (joined_lt_bound name bound))

end Fabric.Library.SeparatedKeys
