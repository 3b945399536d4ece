import Fabric.Ledger.StateDB
import Fabric.Library.BigEndian
import Fabric.Library.Varint

/-!
# Stored numbers, heights and values

The ledger's databases store numbers by their bytes without leading zeros, with
the number of these bytes in front; a height as its two numbers, and a value of
the state database with the height of its transaction in front.  Each encoding
says where it ends, so that what follows it in a stored value is found again.
-/

namespace Fabric.Ledger.Encoding

open Library BigEndian ByteString StateDB

variable {Reason : Type}

/-! ## Numbers -/

/--
The bytes of a number.  The number of bytes is at most eight, so that its own
encoding has one byte and the source's check of this never fails.
-/
def encodeOrderPreservingVarUint64 (number : UInt64) : Bytes :=
  let bytes := trim (bigEndian 8 number.toNat)
  Varint.encodeVarint bytes.length ++ bytes

/--
The number at the start of a byte slice and how many bytes it takes.  Slicing
panics beyond eight bytes and beyond the end of the slice.
-/
def decodeOrderPreservingVarUint64 (bytes : Bytes) : Outcome Reason (UInt64 × Nat) :=
  let size := ((Varint.decodeVarint bytes).map Prod.fst).getD 0
  if 8 < size ∨ bytes.length < size + 1 then
    .panic
  else
    let decodedBytes := List.replicate (8 - size) 0 ++ (bytes.drop 1).take size
    .ok (UInt64.ofNat (ofBigEndian decodedBytes), size + 1)

theorem length_encoded_le (number : UInt64) : (trim (bigEndian 8 number.toNat)).length ≤ 8 := by
  calc
    (trim (bigEndian 8 number.toNat)).length ≤ (bigEndian 8 number.toNat).length := length_trim_le _
    _ = 8 := length_bigEndian _ _

theorem encodeOrderPreserving_eq (number : UInt64) :
    encodeOrderPreservingVarUint64 number = UInt8.ofNat (trim (bigEndian 8 number.toNat)).length ::
        trim (bigEndian 8 number.toNat) := by
  have bound := length_encoded_le number
  rw [encodeOrderPreservingVarUint64, Varint.encodeVarint_of_lt (by omega)]
  rfl

theorem ofBigEndian_encoded (number : UInt64) :
    ofBigEndian (trim (bigEndian 8 number.toNat)) = number.toNat := by
  rw [ofBigEndian_trim, ofBigEndian_bigEndian]
  exact Nat.mod_eq_of_lt number.toNat_lt

theorem decodeOrderPreserving_encoded (number : UInt64) (rest : Bytes) :
    (decodeOrderPreservingVarUint64 (encodeOrderPreservingVarUint64 number ++ rest) :
      Outcome Reason _) =
      .ok (number, (encodeOrderPreservingVarUint64 number).length) := by
  have bound := length_encoded_le number
  have size : Varint.decodeVarint (encodeOrderPreservingVarUint64 number ++ rest) =
        some ((trim (bigEndian 8 number.toNat)).length,
          trim (bigEndian 8 number.toNat) ++ rest) := by
    rw [encodeOrderPreservingVarUint64, List.append_assoc]
    exact Varint.decodeVarint_encodeVarint (by omega) _
  rw [decodeOrderPreservingVarUint64, size, encodeOrderPreserving_eq]
  simp only [Option.map_some, Option.getD_some, List.cons_append,
    List.length_cons, List.length_append, List.drop_succ_cons, List.drop_zero,
    List.take_left, ofBigEndian_replicate_append, ofBigEndian_encoded, UInt64.ofNat_toNat]
  rw [if_neg (by omega)]

theorem eq_of_encoded_append {number other : UInt64}
    (isPrefix : encodeOrderPreservingVarUint64 number <+: encodeOrderPreservingVarUint64 other) :
    number = other := by
  rcases isPrefix with ⟨rest, same⟩
  have decoded := @decodeOrderPreserving_encoded Unit number rest
  have whole := @decodeOrderPreserving_encoded Unit other []
  rw [List.append_nil, ← same, decoded, Outcome.ok.injEq, Prod.mk.injEq] at whole
  exact whole.1

/-- The encoding of a smaller number comes first, whatever follows. -/
theorem encoded_append_lt {left right : UInt64} (smaller : left < right) (more other : Bytes) :
    encodeOrderPreservingVarUint64 left ++ more <
      encodeOrderPreservingVarUint64 right ++ other := by
  have leftBound := length_encoded_le left
  have rightBound := length_encoded_le right
  have leftValue := ofBigEndian_encoded left
  have rightValue := ofBigEndian_encoded right
  rw [UInt64.lt_iff_toNat_lt, ← leftValue, ← rightValue] at smaller
  rw [encodeOrderPreserving_eq, encodeOrderPreserving_eq, List.cons_append,
    List.cons_append, List.cons_lt_cons_iff, UInt8.lt_iff_toNat_lt, UInt8.toNat_ofNat',
    UInt8.toNat_ofNat', Nat.mod_eq_of_lt (by omega), Nat.mod_eq_of_lt (by omega)]
  rcases Nat.lt_trichotomy (trim (bigEndian 8 left.toNat)).length
      (trim (bigEndian 8 right.toNat)).length with shorter | same | longer
  · exact Or.inl shorter
  · exact Or.inr ⟨congrArg _ same, append_lt_append same smaller more other⟩
  · have large := pow_le_ofBigEndian (List.ne_nil_of_length_pos (Nat.zero_lt_of_lt longer))
    have small := ofBigEndian_lt (trim (bigEndian 8 right.toNat))
    have grows := Nat.pow_le_pow_right (by decide : 0 < 256) (Nat.le_sub_one_of_lt longer)
    rw [← ofBigEndian_trim] at large
    omega

/-! ## Heights -/

/-- The encoding of a height. -/
def toBytes (height : Height) : Bytes :=
  encodeOrderPreservingVarUint64 height.blockNum ++ encodeOrderPreservingVarUint64 height.txNum

/-- Decodes a height and counts its bytes. -/
def newHeightFromBytes (bytes : Bytes) : Outcome Reason (Height × Nat) := do
  let (blockNum, n1) ← decodeOrderPreservingVarUint64 bytes
  let (txNum, n2) ← decodeOrderPreservingVarUint64 (bytes.drop n1)
  .ok (⟨blockNum, txNum⟩, n1 + n2)

theorem newHeightFromBytes_toBytes (height : Height) (rest : Bytes) :
    (newHeightFromBytes (toBytes height ++ rest) : Outcome Reason _) =
      .ok (height, (toBytes height).length) := by
  rw [newHeightFromBytes, toBytes, List.append_assoc, decodeOrderPreserving_encoded]
  simp only [Outcome.ok_bind, List.drop_left, decodeOrderPreserving_encoded, List.length_append]

/-- The lexicographic order of the two numbers. -/
def Precedes (left right : Height) : Prop :=
  left.blockNum < right.blockNum ∨ left.blockNum = right.blockNum ∧ left.txNum < right.txNum

theorem toBytes_lt {left right : Height} (earlier : Precedes left right) :
    toBytes left < toBytes right := by
  rcases left with ⟨_, _⟩
  rcases right with ⟨_, _⟩
  rcases earlier with block | ⟨rfl, tx⟩
  · exact encoded_append_lt block _ _
  · have later := encoded_append_lt tx [] []
    rw [List.append_nil, List.append_nil] at later
    exact List.append_left_lt later

/-- The two numbers that decide how two heights compare. -/
def deciding (left right : Height) : UInt64 × UInt64 :=
  if left.blockNum ≠ right.blockNum then (left.blockNum, right.blockNum)
  else (left.txNum, right.txNum)

section

variable (left right : Height)
include left right

theorem deciding_swap : deciding right left = (deciding left right).swap := by
  unfold deciding
  split_ifs <;> simp_all

theorem precedes_iff :
    Precedes left right ↔ (deciding left right).1 < (deciding left right).2 := by
  unfold Precedes deciding
  split_ifs with same <;> simp_all

theorem deciding_eq_iff :
    (deciding left right).1 = (deciding left right).2 ↔ left = right := by
  cases left
  cases right
  unfold deciding
  split_ifs <;> simp_all

theorem precedes_trichotomy :
    Precedes left right ∨ left = right ∨ Precedes right left := by
  rw [precedes_iff, precedes_iff, ← deciding_eq_iff, deciding_swap left right, ← UInt64.toNat_inj]
  exact Nat.lt_trichotomy _ _

theorem toBytes_lt_iff :
    toBytes left < toBytes right ↔ Precedes left right := by
  refine ⟨?_, toBytes_lt⟩
  intro less
  rcases precedes_trichotomy left right with earlier | rfl | later
  · exact earlier
  · exact absurd less (lt_irrefl _)
  · exact absurd less (lt_asymm (toBytes_lt later))

end

/-- The deciding numbers are less than `2 ^ 63` apart. -/
def Near (left right : Height) : Prop :=
  (deciding left right).1.toNat < (deciding left right).2.toNat + 2 ^ 63 ∧
    (deciding left right).2.toNat < (deciding left right).1.toNat + 2 ^ 63

/-- Comparison orders the heights as their numbers and their bytes do. -/
structure ComparedInOrder (heights : Set Height) : Prop where
  negative : ∀ left ∈ heights, ∀ right ∈ heights, left.compare right < 0 ↔ Precedes left right
  zero : ∀ left ∈ heights, ∀ right ∈ heights, left.compare right = 0 ↔ left = right
  positive : ∀ left ∈ heights, ∀ right ∈ heights, 0 < left.compare right ↔ Precedes right left
  antisymmetric : ∀ left ∈ heights, ∀ right ∈ heights, left.compare right = -right.compare left
  transitive : ∀ left ∈ heights, ∀ middle ∈ heights, ∀ right ∈ heights,
    left.compare middle ≤ 0 → middle.compare right ≤ 0 → left.compare right ≤ 0
  same : ∀ left ∈ heights, ∀ right ∈ heights,
    Height.areSame (some left) (some right) = true ↔ left.compare right = 0
  bytes : ∀ left ∈ heights, ∀ right ∈ heights, left.compare right < 0 ↔ toBytes left < toBytes right

/-- The wrapped difference has the right sign up to a distance of `2 ^ 63`. -/
theorem signOfDifference_pos_iff (left right : UInt64) :
    0 < Height.signOfDifference left right ↔
      right.toNat < left.toNat ∧ left.toNat < right.toNat + 2 ^ 63 ∨
        left.toNat + 2 ^ 63 < right.toNat := by
  have leftBound := left.toNat_lt
  have rightBound := right.toNat_lt
  have difference := UInt64.toNat_sub left right
  have wrapped : (left - right).toInt64.toInt =
      if 2 * (left - right).toNat < 2 ^ 64 then ((left - right).toNat : Int)
      else (left - right).toNat - 2 ^ 64 := BitVec.toInt_eq_toNat_cond _
  unfold Height.signOfDifference
  split_ifs at * <;> omega

theorem compare_pos_iff (left right : Height) :
    0 < left.compare right ↔ (deciding left right).2.toNat < (deciding left right).1.toNat ∧
          (deciding left right).1.toNat < (deciding left right).2.toNat + 2 ^ 63 ∨
        (deciding left right).1.toNat + 2 ^ 63 < (deciding left right).2.toNat := by
  unfold Height.compare deciding
  split_ifs with blocks txs
  · exact signOfDifference_pos_iff _ _
  · exact signOfDifference_pos_iff _ _
  · have same : left.txNum.toNat = right.txNum.toNat := congrArg _ (not_not.mp txs)
    dsimp only
    omega

theorem compare_cases (left right : Height) :
    left.compare right = 1 ∨ left.compare right = 0 ∨ left.compare right = -1 := by
  unfold Height.compare Height.signOfDifference
  split_ifs <;> simp

theorem compare_pos_iff_of_near {left right : Height} (near : Near left right) :
    0 < left.compare right ↔ Precedes right left := by
  rcases near with ⟨_, _⟩
  rw [compare_pos_iff, precedes_iff, deciding_swap left right, UInt64.lt_iff_toNat_lt]
  dsimp only [Prod.fst_swap, Prod.snd_swap]
  omega

theorem compare_neg_iff_of_near {left right : Height} (near : Near left right) :
    left.compare right < 0 ↔ Precedes left right := by
  have positive := compare_pos_iff_of_near near
  have zero := (left.compare_eq_zero_iff right).trans (deciding_eq_iff left right).symm
  rw [precedes_iff, deciding_swap left right, UInt64.lt_iff_toNat_lt] at positive
  rw [← UInt64.toNat_inj] at zero
  rw [precedes_iff, UInt64.lt_iff_toNat_lt]
  dsimp only [Prod.fst_swap, Prod.snd_swap] at positive
  omega

/-- Comparison is the order of the numbers on heights that are near each other. -/
theorem comparedInOrder_iff_near (heights : Set Height) :
    ComparedInOrder heights ↔ ∀ left ∈ heights, ∀ right ∈ heights, Near left right := by
  constructor
  · intro ordered left leftIn right rightIn
    have forward := ordered.positive left leftIn right rightIn
    have backward := ordered.positive right rightIn left leftIn
    rw [compare_pos_iff, precedes_iff, UInt64.lt_iff_toNat_lt] at forward backward
    rw [deciding_swap left right] at forward backward
    unfold Near
    dsimp only [Prod.fst_swap, Prod.snd_swap] at forward backward
    omega
  · intro near
    refine ⟨?_, ?_, ?_, ?_, ?_, ?_, ?_⟩
    · intro left leftIn right rightIn
      exact compare_neg_iff_of_near (near left leftIn right rightIn)
    · intro left _ right _
      exact left.compare_eq_zero_iff right
    · intro left leftIn right rightIn
      exact compare_pos_iff_of_near (near left leftIn right rightIn)
    · intro left leftIn right rightIn
      have leftNear := near left leftIn right rightIn
      have rightNear := near right rightIn left leftIn
      have down := (compare_pos_iff_of_near leftNear).trans (compare_neg_iff_of_near rightNear).symm
      have up := (compare_pos_iff_of_near rightNear).trans (compare_neg_iff_of_near leftNear).symm
      have forward := compare_cases left right
      have backward := compare_cases right left
      omega
    · intro left leftIn _ _ right rightIn first second
      rw [← not_lt, compare_pos_iff_of_near (near _ ‹_› _ ‹_›), ← toBytes_lt_iff, not_lt]
        at first second ⊢
      exact first.trans second
    · intro left _ right _
      rw [Height.areSame_iff, Option.some_inj, Height.compare_eq_zero_iff]
    · intro left leftIn right rightIn
      rw [compare_neg_iff_of_near (near left leftIn right rightIn), toBytes_lt_iff]

theorem compare_not_antisymmetric :
    Precedes ⟨0, 0⟩ ⟨9223372036854775808, 0⟩ ∧ Height.compare ⟨9223372036854775808, 0⟩ ⟨0, 0⟩ = -1 ∧
      Height.compare ⟨0, 0⟩ ⟨9223372036854775808, 0⟩ = -1 := by
  refine ⟨Or.inl ?_, ?_, ?_⟩ <;> decide

/-! ## Values of the state database -/

/-- A value with its height in front. -/
def encodeValue (value : Bytes) (version : Height) : Bytes :=
  toBytes version ++ value

/-- Parts a value from its height. -/
def decodeValue (encodedValue : Bytes) : Outcome Reason StoredValue := do
  let (version, n) ← newHeightFromBytes encodedValue
  .ok ⟨encodedValue.drop n, version⟩

theorem decodeValue_encodeValue (value : Bytes) (version : Height) :
    (decodeValue (encodeValue value version) : Outcome Reason _) = .ok ⟨value, version⟩ := by
  rw [decodeValue, encodeValue, newHeightFromBytes_toBytes]
  simp only [Outcome.ok_bind, List.drop_left]

/-- Encodings are read back whatever follows them, and their order is that of the numbers. -/
theorem encodings_preserve_order :
    (∀ (number : UInt64) (rest : Bytes),
      (decodeOrderPreservingVarUint64 (encodeOrderPreservingVarUint64 number ++ rest) :
        Outcome Reason _) = .ok (number, (encodeOrderPreservingVarUint64 number).length)) ∧
    (∀ number other : UInt64,
      encodeOrderPreservingVarUint64 number <+: encodeOrderPreservingVarUint64 other →
        encodeOrderPreservingVarUint64 number = encodeOrderPreservingVarUint64 other) ∧
    (∀ left right : Height, toBytes left < toBytes right ↔ Precedes left right) ∧
    ∀ (value : Slice) (version : Height),
      (decodeValue (encodeValue value.bytes version) : Outcome Reason _) =
        .ok ⟨value.bytes, version⟩ := by
  refine ⟨decodeOrderPreserving_encoded, ?_, toBytes_lt_iff, ?_⟩
  · intro number other isPrefix
    exact congrArg _ (eq_of_encoded_append isPrefix)
  · intro value version
    exact decodeValue_encodeValue value.bytes version

end Fabric.Ledger.Encoding
