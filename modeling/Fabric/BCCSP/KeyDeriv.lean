import Fabric.Library.BigEndian
import Fabric.Library.Outcome
import Mathlib.Data.ZMod.Basic
import Mathlib.GroupTheory.OrderOfElement

/-!
# Re-randomization of ECDSA keys

A key is re-randomized by an offset that is made from an expansion value.  The
deriver of private keys adds it to the scalar, both derivers add its multiple of
the base point to the public key.  The curve is a group with a base point of
prime order, and the point at infinity is the one that is not on the curve.
-/

namespace Fabric.BCCSP.KeyDeriv

open Library ByteString BigEndian Outcome

/-- A group with a base point of prime order. -/
structure Curve (Point : Type) [AddCommGroup Point] where
  n : ℕ
  base : Point
  prime : n.Prime
  order : addOrderOf base = n

/-- A scalar with the point that belongs to it. -/
structure PrivateKey (Point : Type) where
  d : ℕ
  publicKey : Point
deriving DecidableEq

/-- The options of a derivation; the other ones are those of other kinds of keys. -/
inductive KeyDerivOpts where
  | reRand (expansionValue : Bytes)
  | other

/-- Why a key cannot be derived. -/
inductive DerivError where
  | nilOpts
  | isOnCurve
  | unsupported
deriving DecidableEq

variable {Point : Type} [AddCommGroup Point] [DecidableEq Point]

namespace Curve

variable (curve : Curve Point)

abbrev IsOnCurve (_ : Curve Point) (point : Point) : Prop :=
  point ≠ 0

def scalarBaseMult (k : ℕ) : Point :=
  k • curve.base

def privateKey (d : ℕ) : PrivateKey Point :=
  ⟨d, curve.scalarBaseMult d⟩

/-- The offset, which is never zero. -/
def offset (expansionValue : Bytes) : ℕ :=
  ofBigEndian expansionValue % (curve.n - 1) + 1

/-- Derives a public key. -/
def publicKeyDeriv (pubKey : Point) : Option KeyDerivOpts → Outcome DerivError Point
  | none => .error .nilOpts
  | some (.reRand expansionValue) => do
    let k := curve.offset expansionValue
    let tempSK := pubKey + curve.scalarBaseMult k
    require (curve.IsOnCurve tempSK) .isOnCurve
    return tempSK
  | some .other => .error .unsupported

/-- Derives a private key. -/
def privateKeyDeriv (privKey : PrivateKey Point) :
    Option KeyDerivOpts → Outcome DerivError (PrivateKey Point)
  | none => .error .nilOpts
  | some (.reRand expansionValue) => do
    let k := curve.offset expansionValue
    let d := (privKey.d + k) % curve.n
    let tempSK := privKey.publicKey + curve.scalarBaseMult k
    require (curve.IsOnCurve tempSK) .isOnCurve
    return ⟨d, tempSK⟩
  | some .other => .error .unsupported

variable {curve}

omit [DecidableEq Point] in
theorem scalarBaseMult_add_mod (curve : Curve Point) (d k : ℕ) :
    curve.scalarBaseMult ((d + k) % curve.n) =
      curve.scalarBaseMult d + curve.scalarBaseMult k := by
  rw [scalarBaseMult, ← curve.order, mod_addOrderOf_nsmul, add_nsmul]
  rfl

omit [DecidableEq Point] in
theorem scalarBaseMult_offset_ne_zero (expansionValue : Bytes) :
    curve.scalarBaseMult (curve.offset expansionValue) ≠ 0 := by
  have atLeastTwo := curve.prime.two_le
  have small := Nat.mod_lt (ofBigEndian expansionValue) (show 0 < curve.n - 1 by omega)
  apply nsmul_ne_zero_of_lt_addOrderOf (Nat.succ_ne_zero _)
  rw [curve.order]
  omega

/-- What is derived from a key pair is another key pair, and its scalar is not zero. -/
theorem privateKeyDeriv_ok {d : ℕ} {opts : Option KeyDerivOpts} {dk : PrivateKey Point}
    (derived : curve.privateKeyDeriv (curve.privateKey d) opts = .ok dk) :
    dk = curve.privateKey dk.d ∧ dk.d ≠ 0 ∧ dk.d < curve.n ∧
      dk.publicKey ≠ curve.scalarBaseMult d := by
  rcases opts with _ | ⟨expansionValue⟩ | _
  · cases derived
  · simp only [privateKeyDeriv, bind_ok_iff, require_ok_iff, pure_ok, ok.injEq] at derived
    rcases derived with ⟨_, onCurve, rfl⟩
    have point := curve.scalarBaseMult_add_mod d (curve.offset expansionValue)
    refine ⟨congrArg _ point.symm, ?_, Nat.mod_lt _ curve.prime.pos, ?_⟩
    · intro zero
      apply onCurve
      have zero : (d + curve.offset expansionValue) % curve.n = 0 := zero
      rw [zero, scalarBaseMult, zero_nsmul] at point
      exact point.symm
    · intro same
      exact scalarBaseMult_offset_ne_zero expansionValue (add_eq_left.mp same)
  · cases derived

/-- The derivers of private and of public keys agree, and they derive another key pair. -/
theorem derivers_agree (curve : Curve Point) (d : ℕ) (opts : Option KeyDerivOpts) :
    PrivateKey.publicKey <$> curve.privateKeyDeriv (curve.privateKey d) opts =
        curve.publicKeyDeriv (curve.scalarBaseMult d) opts ∧
      ∀ dk, curve.privateKeyDeriv (curve.privateKey d) opts = .ok dk →
        dk.publicKey = curve.scalarBaseMult dk.d ∧ dk.d ≠ 0 ∧ dk.d < curve.n ∧ dk.d ≠ d ∧
          dk.publicKey ≠ curve.scalarBaseMult d := by
  constructor
  · rcases opts with _ | ⟨expansionValue⟩ | _
    · rfl
    · simp only [privateKeyDeriv, publicKeyDeriv, map_bind]
      rfl
    · rfl
  · intro dk derived
    rcases privateKeyDeriv_ok derived with ⟨pair, nonzero, reduced, other⟩
    refine ⟨congrArg PrivateKey.publicKey pair, nonzero, reduced, ?_, other⟩
    intro same
    rw [pair, same] at other
    exact other rfl

/-- The integers modulo five, with one as the base point. -/
def modFive : Curve (ZMod 5) where
  n := 5
  base := 1
  prime := by decide
  order := ZMod.addOrderOf_one 5

/-- An offset that cancels the scalar is refused by both derivers, another one is not. -/
theorem derivers_agree_modFive :
    modFive.privateKeyDeriv (modFive.privateKey 3) (some (.reRand [1])) = .error .isOnCurve ∧
      modFive.publicKeyDeriv (modFive.scalarBaseMult 3) (some (.reRand [1])) =
        .error .isOnCurve ∧
      modFive.privateKeyDeriv (modFive.privateKey 3) (some (.reRand [0])) = .ok ⟨4, 4⟩ ∧
      modFive.publicKeyDeriv (modFive.scalarBaseMult 3) (some (.reRand [0])) = .ok 4 ∧
      (4 : ZMod 5) = modFive.scalarBaseMult 4 := by
  have cancelled : modFive.privateKeyDeriv (modFive.privateKey 3) (some (.reRand [1])) =
        .error .isOnCurve := by
    decide
  have derived : modFive.privateKeyDeriv (modFive.privateKey 3) (some (.reRand [0])) =
        .ok ⟨4, 4⟩ := by
    decide
  rcases derivers_agree modFive 3 (some (.reRand [1])) with ⟨refused, _⟩
  rcases derivers_agree modFive 3 (some (.reRand [0])) with ⟨agreed, pair⟩
  rw [cancelled] at refused
  rw [derived] at agreed
  exact ⟨cancelled, refused.symm, derived, agreed.symm, (pair _ derived).1⟩

end Curve

end Fabric.BCCSP.KeyDeriv
