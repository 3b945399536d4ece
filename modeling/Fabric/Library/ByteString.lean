import Mathlib.Data.List.Lex
import Mathlib.Data.UInt
import Std.Data.ExtTreeMap

/-!
# Byte slices and byte strings

Go programs handle two kinds of byte sequences: slices, which may be nil, and
strings, which may not and which are compared bytewise.  This module fixes
one representation for each and equips strings with the lexicographic linear
order used by comparisons, sorted key lists and ordered stores.
-/

namespace Fabric.Library.ByteString

abbrev Bytes := List UInt8

/-- A byte slice; `none` is the nil slice, which is not the empty slice. -/
abbrev Slice := Option Bytes

/-- The bytes of a slice; a nil slice reads as the empty sequence. -/
def Slice.bytes (slice : Slice) : Bytes :=
  slice.getD []

@[simp]
theorem Slice.bytes_nil : Slice.bytes none = [] :=
  rfl

@[simp]
theorem Slice.bytes_some (content : Bytes) : Slice.bytes (some content) = content :=
  rfl

/-- The numerical order on bytes. -/
instance instLinearOrderUInt8 : LinearOrder UInt8 where
  le_refl := UInt8.le_refl
  le_trans _ _ _ := UInt8.le_trans
  le_antisymm _ _ := UInt8.le_antisymm
  lt_iff_le_not_ge left right := by
    simp only [UInt8.lt_iff_toNat_lt, UInt8.le_iff_toNat_le]
    omega
  le_total := UInt8.le_total
  toDecidableLE := inferInstance
  toDecidableLT := inferInstance
  toDecidableEq := inferInstance

instance instLawfulBEqBytes : LawfulBEq Bytes :=
  inferInstance

/-- An immutable byte string. -/
structure GoString where
  bytes : Bytes
deriving DecidableEq

namespace GoString

theorem bytes_injective : Function.Injective GoString.bytes := by
  intro left right equal
  cases left
  cases right
  cases equal
  rfl

/-- Strings are compared bytewise, from the left. -/
instance : LinearOrder GoString :=
  LinearOrder.lift' GoString.bytes bytes_injective

instance instTransOrd : Std.TransOrd GoString :=
  inferInstance

def empty : GoString := ⟨[]⟩

/-- A string of ASCII characters. -/
def ascii (text : String) : GoString := ⟨text.toList.map Char.toUInt8⟩

/-- A string of one ASCII character. -/
def letter (character : Char) : GoString := ⟨[character.toUInt8]⟩

instance : Inhabited GoString := ⟨empty⟩

theorem empty_le (text : GoString) : empty ≤ text := by
  refine not_lt.mp ?_
  intro smaller
  change List.Lex (· < ·) text.bytes [] at smaller
  exact List.not_lex_nil smaller

theorem not_lt_empty (text : GoString) : ¬ text < empty :=
  not_lt_of_ge (empty_le text)

end GoString

/-- Comparison in a linear order decides equality. -/
instance instLawfulEqOrd {Key : Type*} [LinearOrder Key] : Std.LawfulEqOrd Key :=
  ⟨fun equal => compare_eq_iff_eq.mp equal⟩

end Fabric.Library.ByteString
