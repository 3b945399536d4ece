import Mathlib.Data.List.Basic
import Mathlib.Data.UInt

/-!
# Counting loops over machine words

A loop counts a 64-bit word up until it exceeds a bound.  It runs through the
words up to the bound, unless the bound is the greatest word: the counter wraps
around before it exceeds that bound, and the loop never ends.  The loop is
given an amount of fuel, and a loop that ends does so for every larger amount.
-/

namespace Fabric.Library.WordLoop

def maxWord : UInt64 := 18446744073709551615

theorem toNat_maxWord : maxWord.toNat = 18446744073709551615 := rfl

section

variable {first last word : UInt64}

def words (first last : UInt64) : List UInt64 :=
  (List.range' first.toNat (last.toNat + 1 - first.toNat)).map UInt64.ofNat

theorem length_words : (words first last).length = last.toNat + 1 - first.toNat := by
  simp [words]

theorem toNat_ofNat_of_le {number : Nat} (bounded : number ≤ last.toNat) :
    (UInt64.ofNat number).toNat = number :=
  UInt64.toNat_ofNat_of_lt' (Nat.lt_of_le_of_lt bounded last.toNat_lt)

theorem map_toNat_words : (words first last).map UInt64.toNat =
      List.range' first.toNat (last.toNat + 1 - first.toNat) := by
  rw [words, List.map_map]
  conv_rhs => rw [← List.map_id (List.range' _ _)]
  apply List.map_congr_left
  intro number member
  rcases List.mem_range'_1.mp member with ⟨_, _⟩
  exact toNat_ofNat_of_le (show number ≤ last.toNat by omega)

theorem mem_words_iff : word ∈ words first last ↔ first ≤ word ∧ word ≤ last := by
  rw [UInt64.le_iff_toNat_le, UInt64.le_iff_toNat_le]
  have member : word ∈ words first last ↔ word.toNat ∈ (words first last).map UInt64.toNat := by
    rw [List.mem_map_of_injective]
    exact fun _ _ same => UInt64.toNat_inj.mp same
  rw [member, map_toNat_words, List.mem_range'_1]
  omega

theorem nodup_words : (words first last).Nodup := by
  apply List.Nodup.of_map UInt64.toNat
  rw [map_toNat_words]
  exact List.nodup_range'

theorem words_of_lt (exceeded : last < first) : words first last = [] := by
  have order := UInt64.lt_iff_toNat_lt.mp exceeded
  rw [← List.length_eq_zero_iff, length_words]
  omega

theorem words_of_le (within : first ≤ last) (bounded : last ≠ maxWord) :
    words first last = first :: words (first + 1) last := by
  have order := UInt64.le_iff_toNat_le.mp within
  have size := last.toNat_lt
  have small : last.toNat ≠ maxWord.toNat := fun same => bounded (UInt64.toNat_inj.mp same)
  rw [toNat_maxWord] at small
  have next : (first + 1).toNat = first.toNat + 1 := by
    rw [UInt64.toNat_add, UInt64.toNat_one]
    omega
  have count : last.toNat + 1 - first.toNat = last.toNat + 1 - (first.toNat + 1) + 1 := by
    omega
  rw [words, words, next, count, List.range'_succ, List.map_cons, UInt64.ofNat_toNat]

end

section

variable {State : Type*} (body : UInt64 → State → State) (last : UInt64)

/-- Run the body for each word up to the last one. -/
def forUpTo : Nat → UInt64 → State → Option State
  | 0, _, _ => none
  | fuel + 1, word, state =>
    if word ≤ last then forUpTo fuel (word + 1) (body word state) else some state

variable {body last}

/-- A loop up to a smaller word runs through the interval and ends. -/
theorem forUpTo_eq (bounded : last ≠ maxWord) (fuel : Nat) (word : UInt64) (state : State) :
    forUpTo body last fuel word state = if (words word last).length < fuel then
        some ((words word last).foldl (fun state word => body word state) state)
      else
        none := by
  induction fuel generalizing word state with
  | zero => rfl
  | succ fuel ih =>
    rw [forUpTo]
    split
    next within =>
      rw [ih, words_of_le within bounded]
      simp
    next exceeded =>
      rw [words_of_lt (UInt64.not_le.mp exceeded)]
      simp

/-- A loop up to the greatest word does not end. -/
theorem forUpTo_maxWord (fuel : Nat) (word : UInt64) (state : State) :
    forUpTo body maxWord fuel word state = none := by
  induction fuel generalizing word state with
  | zero => rfl
  | succ fuel ih =>
    have within : word ≤ maxWord := by
      have size := word.toNat_lt
      rw [UInt64.le_iff_toNat_le, toNat_maxWord]
      omega
    rw [forUpTo, if_pos within]
    exact ih _ _

end

end Fabric.Library.WordLoop
