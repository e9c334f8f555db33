import KeyTree.Proofs.Curve.Weierstrass.Rootless
import KeyTree.Proofs.Group.Canonical

/-!
# Points of the Weierstrass curves are written as they were read

The root that is found at an abscissa is not zero, so its parity tells it from its opposite.
-/

namespace KeyTree.Weierstrass

open scoped PrimeField

namespace Point

variable {domain : Weierstrass} {point : Point domain}

/-- The lead byte of a finite point with this ordinate. -/
def parityLead (y : Fin domain.modulus) : UInt8 :=
  if PrimeField.isOdd y then 3 else 2

theorem parityLead_mem (y : Fin domain.modulus) :
    parityLead y ∈ Family.weierstrass.leads := by
  rw [parityLead]
  split <;> decide

/-- A coordinate in 32 big-endian bytes. -/
def coordinateBytes (value : Fin domain.modulus) : List UInt8 :=
  (ByteOrder.bigEndian.write 32 value.val).toList

/-- A coordinate that was read is spelt by the bytes that it was read from. -/
theorem eq_coordinateBytes {bytes : List UInt8} (length_eq : bytes.length = 32)
    {value : Fin domain.modulus} (read : PrimeField.ofNat? (coordinate bytes) = some value) :
    bytes = coordinateBytes value := by
  rw [PrimeField.ofNat?] at read
  split at read
  · cases read
    have restored := ByteOrder.write_read .bigEndian (⟨bytes, length_eq⟩ : Bytes 32)
    exact (congrArg Bytes.toList restored).symm
  · contradiction

/-- A point at an abscissa that was read has one of the roots as its ordinate. -/
theorem exists_of_atAbscissa? {choose : Fin domain.modulus → Fin domain.modulus}
    {bytes : List UInt8} (length_eq : bytes.length = 32) {point : Point domain}
    (made : atAbscissa? choose (coordinate bytes) = some point) :
    ∃ x root, bytes = coordinateBytes x ∧ root * root = domain.cubic x ∧
      point = .affine x (choose root) := by
  rw [atAbscissa?] at made
  obtain ⟨x, x_eq, made⟩ := Option.bind_eq_some_iff.mp made
  obtain ⟨root, found, made⟩ := Option.bind_eq_some_iff.mp made
  cases made
  exact ⟨x, root, eq_coordinateBytes length_eq x_eq, PrimeField.mul_self_of_squareRoot? found, rfl⟩

/-- A point that is found at an abscissa is written as this abscissa and the parity of a root. -/
theorem encode_of_atAbscissa? {choose : Fin domain.modulus → Fin domain.modulus} {body : Bytes 32}
    (made : atAbscissa? choose (coordinate body.toList) = some point) :
    ∃ x root, root * root = domain.cubic x ∧ KeySlot.lead (encode point) = parityLead (choose root) ∧
      KeySlot.body (encode point) = body := by
  obtain ⟨x, root, body_eq, square_eq, rfl⟩ := exists_of_atAbscissa? body.length_toList made
  have written : KeySlot.body (encode (.affine x (choose root))) =
      ByteOrder.bigEndian.write 32 x.val := Bytes.dropLeft_append _ _
  exact ⟨x, root, square_eq, rfl, written.trans (Bytes.ext body_eq.symm)⟩

/-- What is read from a slot is found at the abscissa that the slot holds. -/
theorem exists_atAbscissa?_of_decode? {slot : KeySlot}
    (decoded : decode? slot.toList = some point) :
    ∃ choose : Fin domain.modulus → Fin domain.modulus,
      atAbscissa? choose (coordinate slot.body.toList) = some point ∧
        ((∃ odd, choose = PrimeField.withParity odd ∧ slot.lead = if odd then 3 else 2) ∨
          choose = compactRoot domain ∧ slot.lead = compactLead) := by
  rw [slot.toList_eq, decode?, if_pos slot.body.length_toList] at decoded
  split at decoded
  · next even => exact ⟨_, decoded, .inl ⟨false, rfl, even⟩⟩
  · split at decoded
    · next odd => exact ⟨_, decoded, .inl ⟨true, rfl, odd⟩⟩
    · split at decoded
      · next compact => exact ⟨_, decoded, .inr ⟨rfl, compact⟩⟩
      · contradiction

end Point

variable {domain : Weierstrass} [Smooth domain]

theorem root_ne_zero (rootless : ∀ x, domain.cubic x ≠ 0) {x root : Fin domain.modulus}
    (square_eq : root * root = domain.cubic x) : root ≠ 0 := by
  rintro rfl
  exact rootless x (square_eq.symm.trans (mul_zero 0))

/-- If the cubic has no root, points are written as they were read. -/
theorem canonical_of_cubic_ne_zero (rootless : ∀ x, domain.cubic x ≠ 0) {curve : Curve}
    (family_eq : curve.family = .weierstrass) {order_pos : 0 < domain.order}
    {order_le : domain.order ≤ ByteOrder.capacity 32} :
    (Curve.weierstrassGroup curve domain order_pos order_le).Canonical where
  lead_mem := by
    intro slot point decoded
    obtain ⟨choose, found, -⟩ := Point.exists_atAbscissa?_of_decode? decoded
    obtain ⟨x, root, -, lead_eq, -⟩ := Point.encode_of_atAbscissa? found
    change KeySlot.lead (Point.encode point) ∈ curve.family.leads
    rw [lead_eq, family_eq]
    exact Point.parityLead_mem _
  body_eq := by
    intro slot point decoded
    obtain ⟨choose, found, -⟩ := Point.exists_atAbscissa?_of_decode? decoded
    obtain ⟨x, root, -, -, body_eq⟩ := Point.encode_of_atAbscissa? found
    exact body_eq
  lead_eq := by
    intro slot point decoded
    obtain ⟨choose, found, ⟨odd, rfl, slot_eq⟩ | ⟨-, compact⟩⟩ :=
      Point.exists_atAbscissa?_of_decode? decoded
    · obtain ⟨x, root, square_eq, lead_eq, -⟩ := Point.encode_of_atAbscissa? found
      have nonzero := root_ne_zero rootless square_eq
      rw [Point.parityLead, PrimeField.isOdd_withParity nonzero] at lead_eq
      exact .inl (slot_eq.trans lead_eq.symm)
    · exact .inr ⟨compact, family_eq⟩

end KeyTree.Weierstrass

namespace KeyTree.Curve

theorem secp256k1Group_canonical : secp256k1Group.Canonical :=
  Weierstrass.canonical_of_cubic_ne_zero Weierstrass.cubic_secp256k1_ne_zero rfl

theorem p256Group_canonical : p256Group.Canonical :=
  Weierstrass.canonical_of_cubic_ne_zero Weierstrass.cubic_p256_ne_zero rfl

end KeyTree.Curve
