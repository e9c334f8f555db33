import KeyTree.Proofs.Curve.Moduli
import KeyTree.Proofs.Curve.Weierstrass.Encoding
import KeyTree.Proofs.Curve.Weierstrass.Jacobian
import KeyTree.Proofs.Group.Embedding

/-!
# The groups of the Weierstrass curves are lawful
-/

namespace KeyTree.Weierstrass

/-- What the constants of a curve have to satisfy besides the shape of the curve. -/
structure Sound (domain : Weierstrass) : Prop where
  /-- Square roots are powers. -/
  modulus_mod_four : domain.modulus % 4 = 3
  /-- Coordinates fit into 32 bytes. -/
  modulus_le : domain.modulus ≤ ByteOrder.capacity 32
  base_on : OnCurve (Point.base domain)
  prime_order : domain.order.Prime
  /-- The order has at most 256 binary digits. -/
  order_lt : domain.order < 2 ^ 256
  /-- The order is a period of the base point. -/
  order_base : (multipleWithin Jacobian.add (Jacobian.infinity domain)
    (Jacobian.ofPoint (Point.base domain)) 256 domain.order).z = 0

variable {domain : Weierstrass}

theorem Sound.baseMultiple_order (sound : domain.Sound) :
    domain.baseMultiple domain.order = .infinity := by
  rw [baseMultiple, multiple_eq_multipleWithin sound.order_lt]
  exact Jacobian.toPoint_of_zero sound.order_base

variable [Smooth domain]

theorem isInfinity_ofElement (element : Element domain) :
    (ofElement element).isInfinity = true ↔ element = 0 := by
  cases element with
  | zero => exact ⟨fun _ => rfl, fun _ => rfl⟩
  | some x y proper =>
      constructor
      · intro infinite
        contradiction
      · intro zero
        contradiction

/-- The points of the curve embed its group. -/
theorem Sound.embeds (sound : domain.Sound) (curve : Curve) {order_pos : 0 < domain.order}
    {order_le : domain.order ≤ ByteOrder.capacity 32} {base : Element domain}
    (base_eq : ofElement base = Point.base domain) :
    (Curve.weierstrassGroup curve domain order_pos order_le).Embeds ofElement base where
  add_embed := add_ofElement
  baseMultiple_eq := baseMultiple_eq base_eq
  isIdentity_embed := isInfinity_ofElement
  prime_order := sound.prime_order
  order_nsmul := by
    apply ofElement_injective
    exact (baseMultiple_eq base_eq domain.order).symm.trans sound.baseMultiple_order
  base_ne := by
    rintro rfl
    contradiction
  exists_of_decode? := by
    intro bytes point decoded
    obtain ⟨on, finite⟩ := Point.onCurve_of_decode? decoded
    obtain ⟨element, rfl⟩ := exists_ofElement on
    exact ⟨element, mt (isInfinity_ofElement element).mpr (Bool.eq_false_iff.mp finite), rfl⟩
  decode?_encode := by
    intro element nonzero
    have finite := Bool.eq_false_iff.mpr (mt (isInfinity_ofElement element).mp nonzero)
    exact Point.decode?_encode sound.modulus_mod_four sound.modulus_le
      (onCurve_ofElement element) finite

theorem Sound.lawful (sound : domain.Sound) (curve : Curve) {order_pos : 0 < domain.order}
    {order_le : domain.order ≤ ByteOrder.capacity 32} :
    (Curve.weierstrassGroup curve domain order_pos order_le).Lawful := by
  obtain ⟨base, base_eq⟩ := exists_ofElement sound.base_on
  exact (sound.embeds curve base_eq).lawful

/-! ## The two curves -/

instance smooth_secp256k1 : Smooth secp256k1 where
  prime := prime_secp256k1Modulus
  two_lt := by decide
  discriminant_ne := by decide

theorem sound_secp256k1 : secp256k1.Sound where
  modulus_mod_four := by decide
  modulus_le := by decide
  base_on := by decide
  prime_order := prime_secp256k1_order
  order_lt := by decide
  order_base := by decide +kernel

instance smooth_p256 : Smooth p256 where
  prime := prime_p256Modulus
  two_lt := by decide
  discriminant_ne := by decide

theorem sound_p256 : p256.Sound where
  modulus_mod_four := by decide
  modulus_le := by decide
  base_on := by decide
  prime_order := prime_p256_order
  order_lt := by decide
  order_base := by decide +kernel

end KeyTree.Weierstrass

namespace KeyTree.Curve

theorem secp256k1Group_lawful : secp256k1Group.Lawful :=
  Weierstrass.sound_secp256k1.lawful .secp256k1

theorem p256Group_lawful : p256Group.Lawful :=
  Weierstrass.sound_p256.lawful .p256

end KeyTree.Curve
