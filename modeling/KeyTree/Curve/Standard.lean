import KeyTree.Curve.Edwards
import KeyTree.Curve.Group
import KeyTree.Curve.Weierstrass.Encoding
import KeyTree.Curve.Weierstrass.Jacobian

/-!
# The groups of the three curves
-/

namespace KeyTree

namespace Weierstrass

/-- The prime modulus of secp256k1, which is `2 ^ 256 - 2 ^ 32 - 977`. -/
def secp256k1Modulus : Nat := 0xfffffffffffffffffffffffffffffffffffffffffffffffffffffffefffffc2f

instance : PrimeField.Modulus secp256k1Modulus := ⟨by decide⟩

/-- The prime modulus of P-256, which is `2 ^ 256 - 2 ^ 224 + 2 ^ 192 + 2 ^ 96 - 1`. -/
def p256Modulus : Nat := 0xffffffff00000001000000000000000000000000ffffffffffffffffffffffff

instance : PrimeField.Modulus p256Modulus := ⟨by decide⟩

/-- The constants of secp256k1. -/
def secp256k1 : Weierstrass where
  modulus := secp256k1Modulus
  modulus_ne := inferInstance
  a := 0
  b := 7
  baseX := 0x79be667ef9dcbbac55a06295ce870b07029bfcdb2dce28d959f2815b16f81798
  baseY := 0x483ada7726a3c4655da4fbfc0e1108a8fd17b448a68554199c47d08ffb10d4b8
  order := 0xfffffffffffffffffffffffffffffffebaaedce6af48a03bbfd25e8cd0364141
  compactRule := .even

/-- The constants of P-256. -/
def p256 : Weierstrass where
  modulus := p256Modulus
  modulus_ne := inferInstance
  a := -3
  b := 0x5ac635d8aa3a93e7b3ebbd55769886bc651d06b0cc53b0f63bce3c3e27d2604b
  baseX := 0x6b17d1f2e12c4247f8bce6e563a440f277037d812deb33a0f4a13945d898c296
  baseY := 0x4fe342e2fe1a7f9b8ee7eb4a7c0f9e162bce33576b315ececbb6406837bf51f5
  order := 0xffffffff00000000ffffffffffffffffbce6faada7179e84f3b9cac2fc632551
  compactRule := .smaller

end Weierstrass

namespace Curve

/-- The group of a Weierstrass curve with these constants. -/
def weierstrassGroup (curve : Curve) (domain : Weierstrass) (order_pos : 0 < domain.order)
    (order_le : domain.order ≤ ByteOrder.capacity 32) : CurveGroup where
  curve := curve
  order := domain.order
  order_pos := order_pos
  order_le := order_le
  Point := Weierstrass.Point domain
  add := Weierstrass.Point.add
  isIdentity := Weierstrass.Point.isInfinity
  baseMultiple := domain.baseMultiple
  decode? := Weierstrass.Point.decode?
  encode := Weierstrass.Point.encode

/-- The group of secp256k1. -/
def secp256k1Group : CurveGroup :=
  weierstrassGroup .secp256k1 Weierstrass.secp256k1 (by decide) (by decide)

/-- The group of P-256. -/
def p256Group : CurveGroup :=
  weierstrassGroup .p256 Weierstrass.p256 (by decide) (by decide)

/-- The prime-order group of Ed25519. -/
def ed25519Group : CurveGroup where
  curve := .ed25519
  order := Edwards.order
  order_pos := by decide
  order_le := by decide
  Point := Edwards.Point
  add := Edwards.Point.add
  isIdentity := Edwards.Point.isIdentity
  baseMultiple := Edwards.Point.baseMultiple
  decode? := Edwards.Point.decode?
  encode := Edwards.Point.encode

/-- The group of a curve. -/
def group : Curve → CurveGroup
  | secp256k1 => secp256k1Group
  | p256 => p256Group
  | ed25519 => ed25519Group

@[simp]
theorem curve_group (curve : Curve) : curve.group.curve = curve := by
  cases curve <;> rfl

end Curve

end KeyTree
