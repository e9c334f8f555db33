import KeyTree.Proofs.Key.Extended
import KeyTree.Proofs.Key.Offset

/-!
# Moving a public key

Moving the public key of a private key adds to the scalar behind it; it is refused exactly if the
offset is no scalar or the sum would be zero.  Moving twice is moving once by the sum, although the
public key is written and read in between.
-/

namespace KeyTree.Key

variable {group : CurveGroup}

/-! ## Moving once -/

/-- Bytes that hold a number below the order are those of a scalar. -/
theorem exists_scalar_of_lt {bytes : Bytes 32}
    (small : group.byteOrder.read bytes.toList < group.order) :
    ∃ scalar : group.Scalar,
      bytes = group.scalarToBytes scalar ∧ group.byteOrder.read bytes.toList = scalar.val := by
  refine ⟨⟨group.byteOrder.read bytes.toList, small⟩, ?_, rfl⟩
  rw [CurveGroup.scalarToBytes, ByteOrder.write_read]

/-- Bytes that hold no scalar move no key. -/
theorem offset_of_outOfRange (lawful : group.Lawful) {key : Key group} {point : group.Point}
    (has : key.HasPoint point) {delta : Bytes 32}
    (large : group.order ≤ group.byteOrder.read delta.toList) :
    key.offset delta = .error .scalarOutOfRange := by
  obtain ⟨known, attainable, proper⟩ := has
  have decoded := lawful.decode?_encode attainable proper
  have undecoded : group.scalarOfBytes? delta = none := by
    simp only [CurveGroup.scalarOfBytes?, Nat.not_lt.mpr large, ↓reduceDIte]
  rw [offset, known]
  change group.offsetSlot _ _ = _
  rw [CurveGroup.offsetSlot, CurveGroup.publicPoint, decoded, undecoded]
  rfl

/-- The public key of a private key moves as its scalar does. -/
theorem offset_of_holdsScalar (lawful : group.Lawful) {key : Key group} {scalar : group.Scalar}
    (holds : key.HoldsScalar scalar) (delta : group.Scalar) :
    key.offset (group.scalarToBytes delta) =
      if (scalar + delta).val = 0 then .error .offsetToIdentity
      else .ok (group.encode (group.timesBase (scalar + delta))) := by
  rw [offset_of_hasPoint lawful (holds.hasPoint lawful), ← lawful.timesBase_add]
  simp only [lawful.isIdentity_timesBase]

/-- The private key of a scalar that is not zero can be made in every position. -/
theorem ofPrivate_scalarToBytes {scalar : group.Scalar} (nonzero : scalar.val ≠ 0)
    (position : Position) :
    @ofPrivate group position (group.scalarToBytes scalar).toList =
      .ok { position with material := .privateKey ⟨group.scalarToBytes scalar⟩ } := by
  have inRange : group.InRange (group.scalarToBytes scalar).toList := by
    rw [CurveGroup.InRange, CurveGroup.read_scalarToBytes]
    exact ⟨Nat.pos_of_ne_zero nonzero, scalar.isLt⟩
  have accepted := @CurveGroup.privateKey_of_inRange group ⟨group.scalarToBytes scalar⟩ inRange
  rw [ofPrivate, accepted]
  rfl

/-! ## Moving twice -/

/-- The key of a written point can be made in every position. -/
theorem ofPublic_encode (lawful : group.Lawful) {point : group.Point}
    (attainable : group.Attainable point) (proper : group.isIdentity point = false)
    (position : Position) :
    @ofPublic group position (group.encode point).toList =
      .ok { position with material := .publicKey (group.encode point) } := by
  rw [ofPublic, CurveGroup.publicSlot, CurveGroup.publicPoint,
    lawful.decode?_encode attainable proper]
  rfl

/-- Moving a key that was moved before is moving it by the sum, failures included. -/
theorem offset_offset (lawful : group.Lawful) {key : Key group} {point : group.Point}
    (has : key.HasPoint point) {first : group.Scalar} {slot : KeySlot}
    (moved_eq : key.offset (group.scalarToBytes first) = .ok slot) (second : group.Scalar)
    (position : Position) :
    ∃ moved : Key group, ofPublic position slot.toList = .ok moved ∧
      moved.offset (group.scalarToBytes second) =
        key.offset (group.scalarToBytes (first + second)) := by
  rw [offset_of_hasPoint lawful has] at moved_eq
  split at moved_eq
  · contradiction
  · next proper =>
      obtain rfl := Except.ok.inj moved_eq
      have attainable := has.2.1.add (.timesBase first)
      have moved_proper := Bool.eq_false_iff.mpr proper
      have point_eq : group.add (group.add point (group.timesBase first)) (group.timesBase second) =
          group.add point (group.timesBase (first + second)) := by
        rw [lawful.add_assoc has.2.1 (.timesBase first) (.timesBase second), lawful.timesBase_add]
      refine ⟨_, ofPublic_encode lawful attainable moved_proper position, ?_⟩
      rw [offset_of_hasPoint lawful ⟨rfl, attainable, moved_proper⟩, offset_of_hasPoint lawful has,
        point_eq]

/--
A private key is moved to the public key of the sum of its scalar and the offset modulo the order;
an offset that is no scalar is refused, and so is one that leads to the identity.  Moving any key
twice is moving it once by the sum of the offsets.
-/
theorem offset_adds {curve : Curve} :
    (∀ (key : Key curve.group) (secret : Secret 32), key.private? = some secret →
      0 < curve.group.byteOrder.read secret.bytes.toList →
      curve.group.byteOrder.read secret.bytes.toList < curve.group.order →
        ∀ delta : Bytes 32,
          let value := curve.group.byteOrder.read delta.toList
          let sum := (curve.group.byteOrder.read secret.bytes.toList + value) % curve.group.order
          (curve.group.order ≤ value → key.offset delta = .error .scalarOutOfRange) ∧
          (value < curve.group.order → sum = 0 →
            key.offset delta = .error .offsetToIdentity) ∧
          (value < curve.group.order → sum ≠ 0 → ∀ position, ∃ moved : Key curve.group,
            ∃ slot, ofPrivate position (curve.group.byteOrder.write 32 sum).toList = .ok moved ∧
              moved.publicKey = .ok slot ∧ key.offset delta = .ok slot)) ∧
      (∀ key : Key curve.group, key.Reachable → ∀ first second : Bytes 32,
        curve.group.byteOrder.read first.toList < curve.group.order →
        curve.group.byteOrder.read second.toList < curve.group.order →
          ∀ slot, key.offset first = .ok slot → ∀ position, ∃ moved : Key curve.group, ∃ total,
            ofPublic position slot.toList = .ok moved ∧
              curve.group.addOffsets first second = .ok total ∧
              moved.offset second = key.offset total) ∧
      Error.offsetToIdentity.message = "invalid public key: offset reaches the identity" := by
  have lawful := curve.group_lawful
  refine ⟨?_, ?_, rfl⟩
  · intro key secret holds positive small delta
    have valid : key.Valid := by
      rw [Valid, material_of_private? holds]
      exact ⟨positive, small⟩
    obtain ⟨scalar, holdsScalar⟩ := valid.holdsScalar holds
    obtain rfl : secret = ⟨curve.group.scalarToBytes scalar⟩ :=
      Option.some.inj (holds.symm.trans holdsScalar.private?_eq)
    simp only [CurveGroup.read_scalarToBytes]
    refine ⟨offset_of_outOfRange lawful (holdsScalar.hasPoint lawful), ?_, ?_⟩
    · intro delta_small zero
      obtain ⟨step, rfl, value_eq⟩ := exists_scalar_of_lt delta_small
      rw [value_eq] at zero
      have sum_eq : (scalar + step).val = 0 := zero
      rw [offset_of_holdsScalar lawful holdsScalar, if_pos sum_eq]
    · intro delta_small nonzero position
      obtain ⟨step, rfl, value_eq⟩ := exists_scalar_of_lt delta_small
      rw [value_eq] at nonzero ⊢
      have sum_ne : (scalar + step).val ≠ 0 := nonzero
      refine ⟨_, curve.group.encode (curve.group.timesBase (scalar + step)),
        ofPrivate_scalarToBytes sum_ne position, HoldsScalar.publicKey_eq ⟨rfl, sum_ne⟩, ?_⟩
      rw [offset_of_holdsScalar lawful holdsScalar, if_neg sum_ne]
  · intro key reachable first second first_small second_small slot moved_eq position
    obtain ⟨point, has⟩ := (reachable.valid lawful).hasPoint lawful
    obtain ⟨firstScalar, rfl, -⟩ := exists_scalar_of_lt first_small
    obtain ⟨secondScalar, rfl, -⟩ := exists_scalar_of_lt second_small
    obtain ⟨moved, made, same⟩ := offset_offset lawful has moved_eq secondScalar position
    exact ⟨moved, _, made, addOffsets_scalarToBytes firstScalar secondScalar, same⟩

/--
The base point is moved to its double, and from there by one less than the order: back to where it
was, since the sum of the offsets is zero.  Moving the base point itself so far reaches the
identity.
-/
theorem offset_adds_generatorKey :
    let group := Curve.secp256k1.group
    let one := group.byteOrder.write 32 1
    let last := group.byteOrder.write 32 (group.order - 1)
    generatorKey.offset last = .error .offsetToIdentity ∧
      ∃ (slot : KeySlot) (moved : Key group) (total : Bytes 32),
        generatorKey.offset one = .ok slot ∧
        ofPublic (Position.master (Bytes.zero 32)) slot.toList = .ok moved ∧
        group.addOffsets one last = .ok total ∧ total = Bytes.zero 32 ∧
        moved.offset last = generatorKey.offset total := by
  intro group one last
  have read_one : group.byteOrder.read one.toList = 1 := ByteOrder.read_write _ (by decide)
  have read_last : group.byteOrder.read last.toList = group.order - 1 :=
    ByteOrder.read_write _ (by decide)
  have small_one : group.byteOrder.read one.toList < group.order := by
    rw [read_one]
    decide
  have small_last : group.byteOrder.read last.toList < group.order := by
    rw [read_last]
    decide
  have positive : 0 < group.byteOrder.read one.toList := by
    rw [read_one]
    exact Nat.one_pos
  obtain ⟨once, twice, -⟩ := @offset_adds .secp256k1
  obtain ⟨-, toIdentity, -⟩ := once generatorKey ⟨one⟩ rfl positive small_one last
  obtain ⟨-, -, toSum⟩ := once generatorKey ⟨one⟩ rfl positive small_one one
  have sum_zero : (group.byteOrder.read one.toList + group.byteOrder.read last.toList) %
      group.order = 0 := by
    rw [read_one, read_last]
    decide
  have double_ne : (group.byteOrder.read one.toList + group.byteOrder.read one.toList) %
      group.order ≠ 0 := by
    rw [read_one]
    decide
  obtain ⟨-, slot, -, -, moved_eq⟩ := toSum small_one double_ne (Position.master (Bytes.zero 32))
  obtain ⟨moved, total, made, added, same⟩ := twice generatorKey reachable_generatorKey one last
    small_one small_last slot moved_eq (Position.master (Bytes.zero 32))
  have total_read := read_of_addOffsets added
  have total_eq : total = Bytes.zero 32 := by
    rw [← ByteOrder.write_zero group.byteOrder, ← sum_zero, ← total_read, ByteOrder.write_read]
  exact ⟨toIdentity small_last sum_zero, slot, moved, total, moved_eq, made, added, total_eq, same⟩

end KeyTree.Key
