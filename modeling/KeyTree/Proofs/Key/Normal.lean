import KeyTree.Proofs.Key.Canonical

/-!
# Public keys are normalised

All bytes that denote one point are read as a public key with one slot, which is among these bytes
itself.  The slot is therefore a name for the point.
-/

namespace KeyTree.Key

variable {group : CurveGroup} {position : Position} {bytes : List UInt8} {key : Key group}

theorem ofPublic_eq_ok_iff :
    ofPublic position bytes = .ok key ↔ ∃ point, group.decode? bytes = some point ∧
      key = { position with material := .publicKey (group.encode point) } := by
  rw [ofPublic, CurveGroup.publicSlot, CurveGroup.publicPoint]
  constructor
  · intro made
    split at made
    · next point decoded => exact ⟨point, decoded, (Except.ok.inj made).symm⟩
    · cases made
  · rintro ⟨point, decoded, rfl⟩
    rw [decoded]
    rfl

/-- Two points that were read have different slots. -/
theorem encode_inj (lawful : group.Lawful) {other : List UInt8} {first second : group.Point}
    (first_decoded : group.decode? bytes = some first)
    (second_decoded : group.decode? other = some second)
    (slot_eq : group.encode first = group.encode second) : first = second := by
  have first_restored := lawful.decode?_encode (.read first_decoded)
    (lawful.isIdentity_of_decode? first_decoded)
  have second_restored := lawful.decode?_encode (.read second_decoded)
    (lawful.isIdentity_of_decode? second_decoded)
  rw [slot_eq, second_restored] at first_restored
  exact (Option.some.inj first_restored).symm

/-- Bytes are read with the slot of a point that was read exactly if they denote the point. -/
theorem ofPublic_encode_iff (lawful : group.Lawful)
    {denotes : List UInt8 → group.Point → Prop} (reads : group.Reads denotes)
    {point : group.Point} (decoded : group.decode? bytes = some point) (other : List UInt8) :
    @ofPublic group position other =
        .ok { position with material := .publicKey (group.encode point) } ↔
      denotes other point := by
  rw [ofPublic_eq_ok_iff]
  constructor
  · rintro ⟨read, read_eq, same⟩
    obtain ⟨-, material_eq⟩ := Key.mk.inj same
    obtain rfl := encode_inj lawful decoded read_eq (KeyMaterial.publicKey.inj material_eq)
    exact (reads.decode?_iff.mp read_eq).1
  · intro denoted
    exact ⟨point, reads.decode?_iff.mpr ⟨denoted, (reads.decode?_iff.mp decoded).2⟩, rfl⟩

/--
Bytes that are read as a public key denote one point, which is a multiple of the base point other
than the identity.  The slot of the key has a lead byte of the family, is not made of zeros, and is
read as the same key.  In every position, the bytes that are read with this slot are the ones that
denote the point.
-/
theorem ofPublic_normalises {curve : Curve} {key : Key curve.group}
    (made : ofPublic position bytes = .ok key) :
    ∃ (slot : KeySlot) (point : curve.group.Point),
      key = { position with material := .publicKey slot } ∧
      slot.lead ∈ curve.family.leads ∧ slot ≠ Bytes.zero 33 ∧
      ofPublic position slot.toList = .ok key ∧
      (∀ other : curve.group.Point, curve.Denotes bytes other ↔ other = point) ∧
      CurveGroup.Generated point ∧ curve.group.isIdentity point = false ∧
      ∀ (otherPosition : Position) (other : List UInt8),
        @ofPublic curve.group otherPosition other =
            .ok { otherPosition with material := .publicKey slot } ↔
          curve.Denotes other point := by
  have lawful := curve.group_lawful
  have reads := curve.group_reads
  obtain ⟨point, decoded, rfl⟩ := ofPublic_eq_ok_iff.mp made
  obtain ⟨denoted, generated⟩ := reads.decode?_iff.mp decoded
  have proper := lawful.isIdentity_of_decode? decoded
  have restored := lawful.decode?_encode (.read decoded) proper
  have lead_mem := curve.group_canonical.lead_mem restored
  rw [Curve.curve_group] at lead_mem
  refine ⟨curve.group.encode point, point, rfl, lead_mem, ?_,
    ofPublic_eq_ok_iff.mpr ⟨point, restored, rfl⟩, ?_, generated, proper, ?_⟩
  · intro zeros
    rw [zeros, curve.decode?_zero] at restored
    contradiction
  · intro other
    constructor
    · exact fun other_denoted => reads.unique other_denoted denoted
    · rintro rfl
      exact denoted
  · exact fun otherPosition => ofPublic_encode_iff lawful reads decoded

/-- The abscissa of the base point alone is normalised to another slot. -/
theorem ofPublic_normalises_compactRecord :
    ofPublic compactRecord.toPosition compactRecord.key.toList = .ok compactKey ∧
      ∃ slot : KeySlot, slot ≠ compactRecord.key ∧
        compactKey = { compactRecord.toPosition with material := .publicKey slot } ∧
        ofPublic compactRecord.toPosition slot.toList = .ok compactKey := by
  have made : ofPublic compactRecord.toPosition compactRecord.key.toList = .ok compactKey :=
    ofPublicRecord_of_some decode?_compactRecord
  obtain ⟨slot, point, key_eq, lead_mem, -, fixed, -⟩ := ofPublic_normalises made
  refine ⟨made, slot, ?_, key_eq, fixed⟩
  rintro rfl
  exact Curve.secp256k1.family.compactLead_not_mem lead_mem

end KeyTree.Key
