import Fabric.Library.ByteString
import Mathlib.Algebra.Order.Ring.Nat

/-!
# Variable-length numbers

A number is written in base 128, least significant digit first, with the high
bit set in every byte but the last.  The encoding of a number is therefore
recognized as soon as its last byte is seen, and an encoding that is cut off is
never taken for another number.
-/

namespace Fabric.Library.Varint

open ByteString

/-! ## Encoding -/

def encodeLoop : Nat → Nat → Bytes
  | 0, number => [UInt8.ofNat number]
  | fuel + 1, number =>
    if number < 128 then [UInt8.ofNat number]
    else UInt8.ofNat (number % 128 + 128) :: encodeLoop fuel (number / 128)

/-- The encoding of a number; the number bounds how many bytes are needed. -/
def encodeVarint (number : Nat) : Bytes :=
  encodeLoop number number

theorem encodeLoop_eq {first second number : Nat} (left : number ≤ first)
    (right : number ≤ second) :
    encodeLoop first number = encodeLoop second number := by
  induction first generalizing second number with
  | zero =>
    rw [Nat.le_zero] at left
    subst left
    cases second <;> rfl
  | succ first ih =>
    cases second with
    | zero =>
      rw [Nat.le_zero] at right
      subst right
      rfl
    | succ second =>
      rw [encodeLoop, encodeLoop]
      split_ifs with small
      · rfl
      · have shorter : number / 128 ≤ first := by omega
        have enough : number / 128 ≤ second := by omega
        rw [ih shorter enough]

variable {number : Nat}

theorem encodeVarint_of_lt (small : number < 128) : encodeVarint number = [UInt8.ofNat number] := by
  rw [encodeVarint]
  cases number with
  | zero => rfl
  | succ number => rw [encodeLoop, if_pos small]

theorem encodeVarint_of_ge (large : ¬ number < 128) :
    encodeVarint number = UInt8.ofNat (number % 128 + 128) :: encodeVarint (number / 128) := by
  rw [encodeVarint]
  cases number with
  | zero => exact absurd (by decide) large
  | succ number =>
    rw [encodeLoop, if_neg large, encodeVarint, encodeLoop_eq (by omega) (Nat.le_refl _)]

/-- Numbers are taken apart from their least significant digit on. -/
theorem digits_induction {motive : Nat → Prop} (small : ∀ number, number < 128 → motive number)
    (large : ∀ number, ¬ number < 128 → motive (number / 128) → motive number)
    (number : Nat) : motive number := by
  induction number using Nat.strongRecOn with
  | ind number ih =>
    by_cases fits : number < 128
    · exact small number fits
    · exact large number fits (ih (number / 128) (by omega))

theorem length_encodeVarint_le {number bytes : Nat} (bounded : number < 128 ^ (bytes + 1)) :
    (encodeVarint number).length ≤ bytes + 1 := by
  induction bytes generalizing number with
  | zero =>
    rw [encodeVarint_of_lt (by omega)]
    exact Nat.le_refl 1
  | succ bytes ih =>
    by_cases small : number < 128
    · rw [encodeVarint_of_lt small]
      exact Nat.le_add_left 1 (bytes + 1)
    · rw [encodeVarint_of_ge small, List.length_cons]
      apply Nat.succ_le_succ
      apply ih
      rw [pow_succ] at bounded
      omega

/-! ## Decoding -/

/-- Read a number of at most the given number of bytes. -/
def decodeLoop : Nat → Bytes → Option (Nat × Bytes)
  | 0, _ => none
  | _ + 1, [] => none
  | fuel + 1, byte :: rest =>
    if byte.toNat < 128 then
      some (byte.toNat, rest)
    else do
      let (higher, left) ← decodeLoop fuel rest
      some (byte.toNat - 128 + 128 * higher, left)

/--
The number at the start of a byte sequence and what follows it.  At most ten
bytes are read, and the bits beyond the sixty-fourth are dropped.
-/
def decodeVarint (bytes : Bytes) : Option (Nat × Bytes) :=
  (decodeLoop 10 bytes).map fun read => (read.1 % 2 ^ 64, read.2)

theorem decodeLoop_encodeVarint {fuel number : Nat} {rest : Bytes}
    (enough : (encodeVarint number).length ≤ fuel) :
    decodeLoop fuel (encodeVarint number ++ rest) = some (number, rest) := by
  induction number using digits_induction generalizing fuel with
  | small number small =>
    rw [encodeVarint_of_lt small] at enough ⊢
    cases fuel with
    | zero => exact absurd enough (by simp)
    | succ fuel =>
      have byte : (UInt8.ofNat number).toNat = number := by
        rw [UInt8.toNat_ofNat']
        omega
      rw [List.singleton_append, decodeLoop, byte, if_pos small]
  | large number large ih =>
    rw [encodeVarint_of_ge large] at enough ⊢
    cases fuel with
    | zero => exact absurd enough (by simp)
    | succ fuel =>
      have byte : (UInt8.ofNat (number % 128 + 128)).toNat = number % 128 + 128 := by
        rw [UInt8.toNat_ofNat']
        omega
      rw [List.cons_append, decodeLoop, byte, if_neg (by omega), ih (Nat.le_of_succ_le_succ enough)]
      simp only [Option.bind_eq_bind, Option.bind_some, Option.some.injEq, Prod.mk.injEq, and_true]
      omega

theorem decodeVarint_encodeVarint (bounded : number < 2 ^ 64) (rest : Bytes) :
    decodeVarint (encodeVarint number ++ rest) = some (number, rest) := by
  have short : (encodeVarint number).length ≤ 10 := length_encodeVarint_le (by omega)
  rw [decodeVarint, decodeLoop_encodeVarint short, Option.map_some, Nat.mod_eq_of_lt bounded]

end Fabric.Library.Varint
