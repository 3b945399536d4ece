import Mathlib.Data.List.Basic

/-!
# Append-only logs

A log is a list that only grows at its end.  What has been read at a position
stays there.
-/

namespace Fabric.Library.Log

variable {Entry : Type*} {log later : List Entry} {entry found : Entry} {position : Nat}

theorem getElem?_concat_eq_some_iff : (log ++ [entry])[position]? = some found ↔
      log[position]? = some found ∨ position = log.length ∧ found = entry := by
  rcases Nat.lt_trichotomy position log.length with before | rfl | beyond
  · rw [List.getElem?_append_left before]
    constructor
    · exact Or.inl
    · rintro (old | ⟨rfl, _⟩)
      · exact old
      · exact absurd before (Nat.lt_irrefl _)
  · rw [List.getElem?_concat_length, List.getElem?_eq_none (Nat.le_refl _)]
    simp [eq_comm]
  · have outside : ¬ position = log.length := Nat.ne_of_gt beyond
    rw [List.getElem?_eq_none (by simpa using Nat.succ_le_of_lt beyond),
      List.getElem?_eq_none (Nat.le_of_lt beyond)]
    simp [outside]

theorem getElem?_of_grown (grown : log <+: later) (present : log[position]? = some found) :
    later[position]? = some found := by
  rcases grown with ⟨_, rfl⟩
  have inside := (List.getElem?_eq_some_iff.mp present).1
  rw [List.getElem?_append_left inside]
  exact present

theorem lt_length_of_getElem? (present : log[position]? = some found) : position < log.length :=
  (List.getElem?_eq_some_iff.mp present).1

/-- What holds of every entry and the ones around it, from the first entry on. -/
theorem forall_split_cons_iff {property : List Entry → Entry → List Entry → Prop} :
    (∀ before next after, entry :: log = before ++ next :: after → property before next after) ↔
      property [] entry log ∧ ∀ before next after, log = before ++ next :: after →
        property (entry :: before) next after := by
  constructor
  · intro holds
    refine ⟨holds [] entry log rfl, ?_⟩
    rintro before next after rfl
    exact holds (entry :: before) next after rfl
  · rintro ⟨first, rest⟩ (_ | ⟨_, before⟩) next after split
    · cases split
      exact first
    · cases split
      exact rest before next after rfl

end Fabric.Library.Log
