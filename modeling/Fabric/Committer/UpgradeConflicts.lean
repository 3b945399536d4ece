import Fabric.Protos

/-!
# Conflicts with chaincode upgrades

Before a block is stored, the committer invalidates the transactions that its
chaincode upgrades overtake: all upgrades of a chaincode but the last one, and
the valid invocations of an upgraded chaincode.  It collects them by ranging
over maps, whose order is not fixed.
-/

namespace Fabric.Committer.UpgradeConflicts

open Library.ByteString Protos

/-- A version of a chaincode on a channel. -/
structure ChaincodeInstance where
  chainID : GoString
  chaincodeName : GoString
  chaincodeVersion : GoString

/-- A map from the transactions of a block to instances, of which some are nil. -/
abbrev TxMap (n : Nat) := Fin n → Option (Option ChaincodeInstance)

/-- The validation codes of a block. -/
abbrev Flags (n : Nat) := Fin n → UInt8

def chaincodeVersionConflict : UInt8 := 18

def IsValid {n : Nat} (flags : Flags n) (txIndex : Fin n) : Prop :=
  flags txIndex = TxValidationCode.valid.number

instance {n : Nat} (flags : Flags n) (txIndex : Fin n) : Decidable (IsValid flags txIndex) :=
  inferInstanceAs (Decidable (_ = _))

/-- Chaincode name and channel, parted by a slash. -/
def generateCCKey (ccName chainID : GoString) : GoString :=
  ⟨ccName.bytes ++ 47 :: chainID.bytes⟩

/-- An order in which a range loop may visit the entries of a map. -/
structure Order {n : Nat} (txs : TxMap n) where
  indices : List (Fin n)
  nodup : indices.Nodup
  mem_iff : ∀ tIdx, tIdx ∈ indices ↔ (txs tIdx).isSome

section

variable {n : Nat}

/-- The flags and the two maps that are filled from the upgrades. -/
structure Scan (n : Nat) where
  finalValidUpgradeTXs : GoString → Option (Fin n)
  upgradedChaincodes : GoString → Option ChaincodeInstance
  txsfltr : Flags n

/-- Records an upgrade. -/
def Scan.record (scan : Scan n) (key : GoString) (tIdx : Fin n) (cc : ChaincodeInstance) : Scan n :=
  { scan with
    finalValidUpgradeTXs := Function.update scan.finalValidUpgradeTXs key (some tIdx)
    upgradedChaincodes := Function.update scan.upgradedChaincodes key (some cc) }

/-- Marks a transaction. -/
def Scan.setConflict (scan : Scan n) (tIdx : Fin n) : Scan n :=
  { scan with txsfltr := Function.update scan.txsfltr tIdx chaincodeVersionConflict }

/-- Looks at one upgrade. -/
def scanUpgrade (txsUpgradedChaincodes : TxMap n) (scan : Scan n) (tIdx : Fin n) : Scan n :=
  match (txsUpgradedChaincodes tIdx).join with
  | none => scan
  | some cc =>
    let upgradedCCKey := generateCCKey cc.chaincodeName cc.chainID
    match scan.finalValidUpgradeTXs upgradedCCKey with
    | none => scan.record upgradedCCKey tIdx cc
    | some finalIdx =>
      if finalIdx < tIdx then (scan.setConflict finalIdx).record upgradedCCKey tIdx cc
      else scan.setConflict tIdx

/-- Looks at the upgrades of a block. -/
def scanUpgrades {txsUpgradedChaincodes : TxMap n} (upgrades : Order txsUpgradedChaincodes)
    (txsfltr : Flags n) : Scan n :=
  upgrades.indices.foldl (scanUpgrade txsUpgradedChaincodes) ⟨fun _ => none, fun _ => none, txsfltr⟩

/-- Marks an invocation of an upgraded chaincode. -/
def checkInvocation (txsChaincodeNames : TxMap n)
    (upgradedChaincodes : GoString → Option ChaincodeInstance) (txsfltr : Flags n)
    (tIdx : Fin n) : Flags n :=
  match (txsChaincodeNames tIdx).join with
  | none => txsfltr
  | some cc =>
    if (upgradedChaincodes (generateCCKey cc.chaincodeName cc.chainID)).isSome ∧
        IsValid txsfltr tIdx then
      Function.update txsfltr tIdx chaincodeVersionConflict
    else
      txsfltr

/-- Marks what an upgrade in the block invalidates. -/
def invalidTXsForUpgradeCC {txsChaincodeNames txsUpgradedChaincodes : TxMap n}
    (invocations : Order txsChaincodeNames) (upgrades : Order txsUpgradedChaincodes)
    (txsfltr : Flags n) : Flags n :=
  if upgrades.indices.isEmpty then
    txsfltr
  else
    let scan := scanUpgrades upgrades txsfltr
    invocations.indices.foldl (checkInvocation txsChaincodeNames scan.upgradedChaincodes)
      scan.txsfltr

/-! ## The scan of the upgrades -/

/-- The key of the chaincode that a map holds for a transaction. -/
def keyAt (txs : TxMap n) (tIdx : Fin n) : Option GoString :=
  (txs tIdx).join.map fun cc => generateCCKey cc.chaincodeName cc.chainID

/-- Among the visited transactions a later one holds the same key. -/
def OvertakenIn (txs : TxMap n) (visited : List (Fin n)) (tIdx : Fin n) : Prop :=
  tIdx ∈ visited ∧ ∃ later ∈ visited, tIdx < later ∧
    ∃ key, keyAt txs tIdx = some key ∧ keyAt txs later = some key

open Classical in
/-- What holds after the upgrades of some transactions have been visited. -/
structure Scanned (txs : TxMap n) (txsfltr : Flags n) (visited : List (Fin n))
    (scan : Scan n) : Prop where
  final : ∀ {key tIdx}, scan.finalValidUpgradeTXs key = some tIdx →
      tIdx ∈ visited ∧ keyAt txs tIdx = some key
  last : ∀ {key tIdx}, tIdx ∈ visited → keyAt txs tIdx = some key →
      ∃ final, scan.finalValidUpgradeTXs key = some final ∧ tIdx ≤ final
  upgraded : ∀ key, (scan.upgradedChaincodes key).isSome ↔
      ∃ tIdx ∈ visited, keyAt txs tIdx = some key
  flag : ∀ tIdx, scan.txsfltr tIdx =
      if OvertakenIn txs visited tIdx then chaincodeVersionConflict else txsfltr tIdx

variable {txs : TxMap n} {txsfltr : Flags n} {visited : List (Fin n)} {scan : Scan n} {tIdx : Fin n}

theorem Scanned.scanUpgrade (scanned : Scanned txs txsfltr visited scan) (fresh : tIdx ∉ visited) :
    Scanned txs txsfltr (visited ++ [tIdx]) (scanUpgrade txs scan tIdx) := by
  rcases scanned with ⟨final, last, upgraded, flag⟩
  rw [UpgradeConflicts.scanUpgrade]
  cases held : (txs tIdx).join with
  | none =>
    have noKey : keyAt txs tIdx = none := by rw [keyAt, held]; rfl
    constructor <;> grind [OvertakenIn]
  | some cc =>
    have hasKey : keyAt txs tIdx = some (generateCCKey cc.chaincodeName cc.chainID) := by
      rw [keyAt, held]; rfl
    dsimp only
    generalize generateCCKey cc.chaincodeName cc.chainID = key at hasKey ⊢
    cases found : scan.finalValidUpgradeTXs key with
    | none =>
      constructor <;> simp only [Scan.record, Function.update_apply] <;> grind [OvertakenIn]
    | some finalIdx =>
      have before := final found
      dsimp only
      split
      · constructor <;> simp only [Scan.record, Scan.setConflict, Function.update_apply] <;>
          grind [OvertakenIn]
      · constructor <;> simp only [Scan.setConflict, Function.update_apply] <;> grind [OvertakenIn]

theorem scanned_scanUpgrades (upgrades : Order txs) :
    Scanned txs txsfltr upgrades.indices (scanUpgrades upgrades txsfltr) := by
  rw [scanUpgrades]
  have nodup := upgrades.nodup
  generalize upgrades.indices = indices at nodup ⊢
  induction indices using List.reverseRecOn with
  | nil => constructor <;> simp [OvertakenIn]
  | append_singleton indices tIdx ih =>
    rcases List.nodup_append.mp nodup with ⟨distinct, _, apart⟩
    rw [List.foldl_concat]
    apply (ih distinct).scanUpgrade
    exact fun visited => apart tIdx visited tIdx (List.mem_singleton_self tIdx) rfl

/-! ## The scan of the invocations -/

theorem foldl_checkInvocation (upgraded : GoString → Option ChaincodeInstance)
    (indices : List (Fin n)) :
    indices.foldl (checkInvocation txs upgraded) txsfltr tIdx =
      if (tIdx ∈ indices ∧ ((keyAt txs tIdx).bind upgraded).isSome) ∧ IsValid txsfltr tIdx then
        chaincodeVersionConflict
      else
        txsfltr tIdx := by
  induction indices using List.reverseRecOn with
  | nil => simp
  | append_singleton indices last ih =>
    rw [List.foldl_concat, checkInvocation]
    cases held : (txs last).join with
    | none =>
      have noKey : keyAt txs last = none := by rw [keyAt, held]; rfl
      grind
    | some cc =>
      have hasKey : keyAt txs last = some (generateCCKey cc.chaincodeName cc.chainID) := by
        rw [keyAt, held]; rfl
      dsimp only
      rw [apply_ite (fun flags : Flags n => flags tIdx), Function.update_apply]
      grind [IsValid]

/-! ## The flags -/

/-- Transactions for which two maps hold the same chaincode of the same chain. -/
def SameChaincode (left right : TxMap n) (tIdx other : Fin n) : Prop :=
  ∃ cc otherCC, (left tIdx).join = some cc ∧ (right other).join = some otherCC ∧
    cc.chaincodeName = otherCC.chaincodeName ∧ cc.chainID = otherCC.chainID

/-- A later transaction upgrades the same chaincode. -/
def Overtaken (txs : TxMap n) (tIdx : Fin n) : Prop :=
  ∃ later, tIdx < later ∧ SameChaincode txs txs tIdx later

open Classical in
/--
The flags with a conflict for each overtaken upgrade and for each valid
invocation of an upgraded chaincode.
-/
noncomputable def withConflicts (names txs : TxMap n) (txsfltr : Flags n) : Flags n := fun tIdx =>
  if Overtaken txs tIdx ∨ (∃ other, SameChaincode names txs tIdx other) ∧ IsValid txsfltr tIdx then
    chaincodeVersionConflict
  else
    txsfltr tIdx

theorem not_overtaken {names : TxMap n} (valid : IsValid (withConflicts names txs txsfltr) tIdx) :
    ¬ Overtaken txs tIdx := by
  intro overtaken
  rw [IsValid, withConflicts, if_pos (Or.inl overtaken)] at valid
  exact absurd valid (by decide)

/-- No channel name holds a slash. -/
def SlashFree (txs : TxMap n) : Prop :=
  ∀ tIdx, ∀ cc ∈ (txs tIdx).join, 47 ∉ cc.chainID.bytes

theorem append_slash_inj {name other chain otherChain : Bytes} (free : 47 ∉ chain)
    (otherFree : 47 ∉ otherChain) (equal : name ++ 47 :: chain = other ++ 47 :: otherChain) :
    name = other ∧ chain = otherChain := by
  rcases List.append_eq_append_iff.mp equal with ⟨between, rfl, rest⟩ | ⟨between, rfl, rest⟩
  all_goals cases between <;> simp_all

theorem Order.mem_of_keyAt (order : Order txs) {key : GoString}
    (hasKey : keyAt txs tIdx = some key) : tIdx ∈ order.indices := by
  rw [order.mem_iff]
  cases entry : txs tIdx with
  | none => simp [keyAt, entry] at hasKey
  | some _ => rfl

section

variable {names : TxMap n} (invoked : SlashFree names) (upgraded : SlashFree txs)
  (invocations : Order names) (upgrades : Order txs)

include upgraded

theorem sameChaincode_iff (invoked : SlashFree names) {other : Fin n} :
    SameChaincode names txs tIdx other ↔
      ∃ key, keyAt names tIdx = some key ∧ keyAt txs other = some key := by
  simp only [keyAt, Option.map_eq_some_iff]
  constructor
  · rintro ⟨cc, otherCC, held, otherHeld, sameName, sameChain⟩
    exact ⟨_, ⟨cc, held, rfl⟩, otherCC, otherHeld, by rw [sameName, sameChain]⟩
  · rintro ⟨_, ⟨cc, held, rfl⟩, otherCC, otherHeld, equal⟩
    rcases append_slash_inj (invoked _ _ held) (upgraded _ _ otherHeld)
        (congrArg GoString.bytes equal.symm) with ⟨sameName, sameChain⟩
    exact ⟨cc, otherCC, held, otherHeld, GoString.bytes_injective sameName,
      GoString.bytes_injective sameChain⟩

theorem overtakenIn_iff : OvertakenIn txs upgrades.indices tIdx ↔ Overtaken txs tIdx := by
  simp only [OvertakenIn, Overtaken, sameChaincode_iff upgraded upgraded]
  constructor
  · rintro ⟨_, later, _, held⟩
    exact ⟨later, held⟩
  · rintro ⟨later, before, key, hasKey, laterKey⟩
    exact ⟨upgrades.mem_of_keyAt hasKey, later, upgrades.mem_of_keyAt laterKey, before, key,
      hasKey, laterKey⟩

include invoked

theorem isSome_upgradedChaincodes_iff :
    tIdx ∈ invocations.indices ∧
        ((keyAt names tIdx).bind (scanUpgrades upgrades txsfltr).upgradedChaincodes).isSome ↔
      ∃ other, SameChaincode names txs tIdx other := by
  simp only [sameChaincode_iff upgraded invoked, Option.isSome_bind, Option.any_eq_true,
    (scanned_scanUpgrades upgrades).upgraded]
  constructor
  · rintro ⟨_, key, hasKey, other, _, otherKey⟩
    exact ⟨other, key, hasKey, otherKey⟩
  · rintro ⟨other, key, hasKey, otherKey⟩
    exact ⟨invocations.mem_of_keyAt hasKey, key, hasKey, other, upgrades.mem_of_keyAt otherKey,
      otherKey⟩

theorem invalidTXsForUpgradeCC_eq :
    invalidTXsForUpgradeCC invocations upgrades txsfltr = withConflicts names txs txsfltr := by
  classical
  ext1 tIdx
  have scans : invalidTXsForUpgradeCC invocations upgrades txsfltr tIdx = invocations.indices.foldl
        (checkInvocation names (scanUpgrades upgrades txsfltr).upgradedChaincodes)
        (scanUpgrades upgrades txsfltr).txsfltr tIdx := by
    rw [invalidTXsForUpgradeCC]
    split
    · next empty =>
      rw [foldl_checkInvocation, scanUpgrades, List.isEmpty_iff.mp empty]
      simp
    · rfl
  rw [scans, foldl_checkInvocation, withConflicts]
  simp only [isSome_upgradedChaincodes_iff invoked upgraded, IsValid,
    (scanned_scanUpgrades upgrades).flag, overtakenIn_iff upgraded]
  by_cases overtaken : Overtaken txs tIdx
  · simp [overtaken]
  · simp [overtaken]

end

/--
In whatever order the maps are visited, conflicts are set on the upgrades that a
later one overtakes and on the valid invocations of upgraded chaincodes, and all
other flags are kept.  So at most one upgrade of a chaincode is left valid.
-/
theorem upgrade_conflicts (names txs : TxMap n) (invoked : SlashFree names)
    (upgraded : SlashFree txs) (txsfltr : Flags n) :
    (∀ (invocations : Order names) (upgrades : Order txs),
      invalidTXsForUpgradeCC invocations upgrades txsfltr = withConflicts names txs txsfltr) ∧
    ∀ tIdx other, SameChaincode txs txs tIdx other →
      IsValid (withConflicts names txs txsfltr) tIdx →
      IsValid (withConflicts names txs txsfltr) other → tIdx = other := by
  constructor
  · intro invocations upgrades
    exact invalidTXsForUpgradeCC_eq invoked upgraded invocations upgrades
  · rintro tIdx other ⟨cc, otherCC, held, otherHeld, sameName, sameChain⟩ valid otherValid
    by_contra different
    rcases lt_or_gt_of_ne different with before | after
    · exact not_overtaken valid ⟨other, before, cc, otherCC, held, otherHeld, sameName, sameChain⟩
    · exact not_overtaken otherValid
        ⟨tIdx, after, otherCC, cc, otherHeld, held, sameName.symm, sameChain.symm⟩

end

namespace Sample

def chaincode (version : Char) : ChaincodeInstance :=
  ⟨.ascii "ch", .ascii "cc", .letter version⟩

/-- The first two transactions upgrade the chaincode that the third invokes. -/
def upgraded : TxMap 3
  | 0 => some (some (chaincode '2'))
  | 1 => some (some (chaincode '3'))
  | 2 => none

def names : TxMap 3
  | 2 => some (some (chaincode '1'))
  | _ => some none

def invocations : Order names := ⟨[2, 0, 1], by decide, by decide⟩

def upgrades : Order upgraded := ⟨[1, 0], by decide, by decide⟩

end Sample

theorem upgrade_conflicts_sample :
    invalidTXsForUpgradeCC Sample.invocations Sample.upgrades 0 =
      withConflicts Sample.names Sample.upgraded 0 :=
  (upgrade_conflicts _ _ (by rw [SlashFree]; decide) (by rw [SlashFree]; decide) _).1 _ _

end Fabric.Committer.UpgradeConflicts
