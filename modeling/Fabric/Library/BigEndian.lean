import Fabric.Library.ByteString
import Mathlib.Algebra.Order.Ring.Nat
import Mathlib.Tactic.Ring

/-!
# Big-endian numbers

A number is written in base 256, most significant byte first, with a fixed
number of bytes or without leading zeros.  The bytes without leading zeros
determine the number, and more of them mean a larger number.
-/

namespace Fabric.Library.BigEndian

open ByteString

/-- The lowest bytes of a number, as many as asked for. -/
def bigEndian : Nat → Nat → Bytes
  | 0, _ => []
  | width + 1, number => UInt8.ofNat (number / 256 ^ width) :: bigEndian width number

/-- The number that the bytes stand for. -/
def ofBigEndian : Bytes → Nat
  | [] => 0
  | byte :: rest => byte.toNat * 256 ^ rest.length + ofBigEndian rest

def trim (bytes : Bytes) : Bytes :=
  bytes.dropWhile fun byte => byte == 0

@[simp]
theorem length_bigEndian (width number : Nat) : (bigEndian width number).length = width := by
  induction width with
  | zero => rfl
  | succ width ih => rw [bigEndian, List.length_cons, ih]

theorem ofBigEndian_bigEndian (width number : Nat) :
    ofBigEndian (bigEndian width number) = number % 256 ^ width := by
  induction width with
  | zero => rw [bigEndian, ofBigEndian, pow_zero, Nat.mod_one]
  | succ width ih =>
    have digit : (UInt8.ofNat (number / 256 ^ width)).toNat = number / 256 ^ width % 256 := by
      simp
    rw [bigEndian, ofBigEndian, length_bigEndian, ih, digit, pow_succ,
      Nat.mod_mul, Nat.add_comm, Nat.mul_comm]

theorem ofBigEndian_replicate_append (count : Nat) (bytes : Bytes) :
    ofBigEndian (List.replicate count 0 ++ bytes) = ofBigEndian bytes := by
  induction count with
  | zero => rfl
  | succ count ih =>
    rw [List.replicate_succ, List.cons_append, ofBigEndian, ih]
    simp

theorem trim_cons {byte : UInt8} (nonzero : byte ≠ 0) (rest : Bytes) :
    trim (byte :: rest) = byte :: rest := by
  simp [trim, nonzero]

theorem ofBigEndian_trim (bytes : Bytes) : ofBigEndian (trim bytes) = ofBigEndian bytes := by
  induction bytes with
  | nil => rfl
  | cons byte rest ih =>
    by_cases zero : byte = 0
    · subst zero
      show ofBigEndian (trim rest) = _
      rw [ih, ofBigEndian]
      simp
    · rw [trim_cons zero]

theorem length_trim_le (bytes : Bytes) : (trim bytes).length ≤ bytes.length :=
  (List.dropWhile_suffix _).length_le

/-! ## The order of the bytes -/

theorem ofBigEndian_lt (bytes : Bytes) : ofBigEndian bytes < 256 ^ bytes.length := by
  induction bytes with
  | nil => exact Nat.one_pos
  | cons byte rest _ =>
    have digit := Nat.mul_le_mul_right (256 ^ rest.length) (Nat.succ_le_of_lt byte.toNat_lt)
    rw [Nat.succ_mul] at digit
    rw [ofBigEndian, List.length_cons, pow_succ, Nat.mul_comm _ 256]
    omega

theorem pow_le_ofBigEndian {bytes : Bytes} (nonempty : trim bytes ≠ []) :
    256 ^ ((trim bytes).length - 1) ≤ ofBigEndian bytes := by
  induction bytes with
  | nil => exact absurd rfl nonempty
  | cons byte _ ih =>
    by_cases zero : byte = 0
    · subst zero
      rw [ofBigEndian]
      exact (ih nonempty).trans (Nat.le_add_left _ _)
    · have positive : 0 < byte.toNat :=
        Nat.pos_of_ne_zero fun same => zero (UInt8.toNat_inj.mp same)
      rw [trim_cons zero, List.length_cons, Nat.add_sub_cancel, ofBigEndian]
      exact (Nat.le_mul_of_pos_left _ positive).trans (Nat.le_add_right _ _)

theorem append_lt_append {left right : Bytes} (sameLength : left.length = right.length)
    (smaller : ofBigEndian left < ofBigEndian right) (more other : Bytes) :
    left ++ more < right ++ other := by
  induction left generalizing right with
  | nil =>
    rw [List.length_nil, eq_comm, List.length_eq_zero_iff] at sameLength
    rw [sameLength] at smaller
    exact absurd smaller (Nat.lt_irrefl _)
  | cons byte left ih =>
    cases right with
    | nil => cases sameLength
    | cons first right =>
      rw [List.length_cons, List.length_cons, Nat.add_right_cancel_iff] at sameLength
      rw [ofBigEndian, ofBigEndian, sameLength] at smaller
      rw [List.cons_append, List.cons_append, List.cons_lt_cons_iff, UInt8.lt_iff_toNat_lt]
      have rest := ofBigEndian_lt right
      rcases Nat.lt_trichotomy byte.toNat first.toNat with less | same | more
      · exact Or.inl less
      · rw [same, Nat.add_lt_add_iff_left] at smaller
        exact Or.inr ⟨UInt8.toNat_inj.mp same, ih sameLength smaller⟩
      · have higher := Nat.mul_le_mul_right (256 ^ right.length) (Nat.succ_le_of_lt more)
        rw [Nat.succ_mul] at higher
        omega

end Fabric.Library.BigEndian
