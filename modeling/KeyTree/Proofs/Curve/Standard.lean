import KeyTree.Proofs.Curve.Edwards.Denotation
import KeyTree.Proofs.Curve.Weierstrass.Denotation

/-!
# The groups of the three curves are lawful and canonical

Their readers take the bytes that denote a multiple of the base point, in every form.
-/

namespace KeyTree.Curve

/-- The laws on which keys rest hold on every curve. -/
theorem group_lawful (curve : Curve) : curve.group.Lawful := by
  cases curve with
  | secp256k1 => exact secp256k1Group_lawful
  | p256 => exact p256Group_lawful
  | ed25519 => exact ed25519Group_lawful

/-- On every curve, points are written as they were read, up to the lead byte of a compact form. -/
theorem group_canonical (curve : Curve) : curve.group.Canonical := by
  cases curve with
  | secp256k1 => exact secp256k1Group_canonical
  | p256 => exact p256Group_canonical
  | ed25519 => exact ed25519Group_canonical

/-- The bytes denote the point of the curve, in one of its forms. -/
def Denotes : (curve : Curve) → List UInt8 → curve.group.Point → Prop
  | secp256k1 => @Weierstrass.Point.Denotes Weierstrass.secp256k1
  | p256 => @Weierstrass.Point.Denotes Weierstrass.p256
  | ed25519 => Edwards.Point.Denotes

theorem group_reads (curve : Curve) : curve.group.Reads curve.Denotes := by
  cases curve with
  | secp256k1 => exact secp256k1Group_reads
  | p256 => exact p256Group_reads
  | ed25519 => exact ed25519Group_reads

/-- Zeros, which are written where there is no finite point, are never read. -/
theorem decode?_zero (curve : Curve) : curve.group.decode? (Bytes.zero 33).toList = none := by
  cases curve with
  | secp256k1 => rfl
  | p256 => rfl
  | ed25519 => exact Edwards.Point.decode?_zero

end KeyTree.Curve
