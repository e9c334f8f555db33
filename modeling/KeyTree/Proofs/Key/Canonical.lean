import KeyTree.Proofs.Key.Extended

/-!
# The text that is read and the text that is written

A key that was read as an extended public key is written as the text that it was read from, unless
the abscissa stood alone in the key field.  In that case the text that is written differs, but only
in the lead byte of the key field.
-/

namespace KeyTree

namespace Record

theorem withKey_eq_iff {record : Record} {slot : KeySlot} :
    { record with key := slot } = record ↔ slot = record.key := by
  simp [Record.ext_iff]

end Record

namespace Key

variable {group : CurveGroup} {record : Record} {slot : KeySlot} {point : group.Point}

/-- The public key with the position of a record and with this slot. -/
def ofSlot (group : CurveGroup) (record : Record) (slot : KeySlot) : Key group :=
  { record.toPosition with material := .publicKey slot }

theorem extendedPublic_ofSlot
    (version_eq : record.version = (keyClass group .publicKey).version) :
    (ofSlot group record slot).extendedPublic = .ok (Record.text { record with key := slot }) := by
  have known : (ofSlot group record slot).publicKey = .ok slot := rfl
  rw [extendedPublic_of_publicKey known, extendedPublicOf, Key.record, ofSlot, ← version_eq]

/-- The text of a record is written again exactly if the abscissa did not stand alone. -/
theorem extendedPublic_ofSlot_eq_iff (canonical : group.Canonical)
    (version_eq : record.version = (keyClass group .publicKey).version)
    (decoded : group.decode? record.key.toList = some point) :
    (ofSlot group record (group.encode point)).extendedPublic = .ok record.text ↔
      record.lead ≠ compactLead := by
  rw [extendedPublic_ofSlot version_eq, Except.ok.injEq, Record.text_inj, Record.withKey_eq_iff]
  exact canonical.encode_eq_iff decoded

/-- Two records that hold one point and whose key fields have one form are equal. -/
theorem record_eq_of_ofSlot_eq (canonical : group.Canonical) {other : Record}
    {otherPoint : group.Point} (version_eq : other.version = record.version)
    (decoded : group.decode? record.key.toList = some point)
    (other_decoded : group.decode? other.key.toList = some otherPoint)
    (same : ofSlot group other (group.encode otherPoint) =
      ofSlot group record (group.encode point))
    (form : other.lead = compactLead ↔ record.lead = compactLead) : other = record := by
  obtain ⟨position_eq, material_eq⟩ := Key.mk.inj same
  have encode_eq := KeyMaterial.publicKey.inj material_eq
  have body_eq : KeySlot.body other.key = KeySlot.body record.key := by
    rw [← canonical.body_eq other_decoded, encode_eq, canonical.body_eq decoded]
  have lead_eq : other.lead = record.lead := by
    by_cases compact : record.lead = compactLead
    · rw [compact, form.mpr compact]
    · have other_eq := (canonical.encode_eq_iff other_decoded).mpr (mt form.mp compact)
      have record_eq := (canonical.encode_eq_iff decoded).mpr compact
      rw [Record.lead, Record.lead, ← other_eq, ← record_eq, encode_eq]
  cases other
  cases record
  simp only [Record.mk.injEq]
  exact ⟨position_eq, version_eq, KeySlot.eq_of_lead_of_body lead_eq body_eq⟩

/-! ## A record in which the abscissa stands alone -/

/-- The record of the base point of secp256k1 in which the abscissa stands alone. -/
def compactRecord : Record :=
  let field : Bytes (1 + 32) :=
    Bytes.singleton compactLead ++ ByteOrder.bigEndian.write 32 Weierstrass.secp256k1.baseX.val
  { Position.master (Bytes.zero 32) with
    version := (keyClass Curve.secp256k1.group .publicKey).version
    key := field }

/-- The base point is the even one of the two points with its abscissa. -/
theorem decode?_compactRecord :
    Curve.secp256k1.group.decode? compactRecord.key.toList =
      some (Weierstrass.Point.base Weierstrass.secp256k1) := by
  have found := Weierstrass.Point.atAbscissa?_of_onCurve
    Weierstrass.sound_secp256k1.modulus_mod_four Weierstrass.sound_secp256k1.base_on
  have even : PrimeField.isOdd Weierstrass.secp256k1.baseY = false := by decide
  have coordinate_eq : Weierstrass.Point.coordinate
      (ByteOrder.bigEndian.write 32 Weierstrass.secp256k1.baseX.val).toList =
        Weierstrass.secp256k1.baseX.val :=
    ByteOrder.read_write _ (by decide)
  have toList_eq : compactRecord.key.toList = compactLead ::
      (ByteOrder.bigEndian.write 32 Weierstrass.secp256k1.baseX.val).toList := rfl
  rw [even] at found
  change Weierstrass.Point.decode? compactRecord.key.toList = _
  rw [toList_eq, Weierstrass.Point.decode?, if_pos (Bytes.length_toList _), coordinate_eq]
  exact found

/-- The public key that this record holds. -/
def compactKey : Key Curve.secp256k1.group :=
  ofSlot _ compactRecord (Weierstrass.Point.encode (Weierstrass.Point.base Weierstrass.secp256k1))

theorem ofExtendedPublic_compactRecord :
    ofExtendedPublic Curve.secp256k1.group compactRecord.text = .ok compactKey :=
  ofExtendedPublic_eq_ok_iff.mpr ⟨compactRecord, _, rfl, rfl, decode?_compactRecord, rfl⟩

/-! ## Keys that were read -/

/--
A key that was read as an extended public key writes a record with the same fields.  The text is the
one that was read unless the abscissa stood alone in the key field, which happens on Weierstrass
curves only.  Among the texts of one form no two are read as the same key.
-/
theorem extendedPublic_of_read {curve : Curve} {text : String} {key : Key curve.group}
    (read : ofExtendedPublic curve.group text = .ok key) :
    ∃ (record : Record) (slot : KeySlot), text = record.text ∧ key.publicKey = .ok slot ∧
      key.extendedPublic = .ok (Record.text { record with key := slot }) ∧
      slot.lead ∈ curve.family.leads ∧ slot.body = KeySlot.body record.key ∧
      (key.extendedPublic = .ok text ↔ record.lead ≠ compactLead) ∧
      (record.lead = compactLead → curve.family = .weierstrass) ∧
      ∀ other : Record, ofExtendedPublic curve.group other.text = .ok key →
        (other.lead = compactLead ↔ record.lead = compactLead) → other = record := by
  have canonical := curve.group_canonical
  obtain ⟨record, point, rfl, version_eq, decoded, rfl⟩ := ofExtendedPublic_eq_ok_iff.mp read
  have family_eq : curve.group.curve.family = curve.family := by rw [Curve.curve_group]
  have lead_mem := canonical.lead_mem decoded
  have lead_eq := canonical.lead_eq decoded
  rw [family_eq] at lead_mem lead_eq
  refine ⟨record, curve.group.encode point, rfl, rfl, extendedPublic_ofSlot version_eq, lead_mem,
    canonical.body_eq decoded, extendedPublic_ofSlot_eq_iff canonical version_eq decoded, ?_, ?_⟩
  · intro compact
    rcases lead_eq with written | ⟨-, weierstrass⟩
    · have written_compact := written.symm.trans compact
      rw [written_compact] at lead_mem
      exact absurd lead_mem curve.family.compactLead_not_mem
    · exact weierstrass
  · intro other other_read form
    obtain ⟨found, otherPoint, text_eq, other_version_eq, other_decoded, same⟩ :=
      ofExtendedPublic_eq_ok_iff.mp other_read
    obtain rfl := Record.text_inj.mp text_eq
    exact record_eq_of_ofSlot_eq canonical (other_version_eq.trans version_eq.symm) decoded
      other_decoded same.symm form

/-- The key of the compact record is one that was read. -/
theorem extendedPublic_of_read_compactRecord :
    ofExtendedPublic Curve.secp256k1.group compactRecord.text = .ok compactKey ∧
      ∃ (record : Record) (slot : KeySlot), compactRecord.text = record.text ∧
        compactKey.extendedPublic = .ok (Record.text { record with key := slot }) ∧
        slot.lead ∈ Curve.secp256k1.family.leads := by
  obtain ⟨record, slot, text_eq, -, written, lead_mem, -⟩ :=
    extendedPublic_of_read ofExtendedPublic_compactRecord
  exact ⟨ofExtendedPublic_compactRecord, record, slot, text_eq, written, lead_mem⟩

/-- The compact record is read as a key that is written with another text. -/
theorem compactRecord_not_rewritten :
    ∃ key, ofExtendedPublic Curve.secp256k1.group compactRecord.text = .ok key ∧
      key.extendedPublic ≠ .ok compactRecord.text := by
  refine ⟨compactKey, ofExtendedPublic_compactRecord, ?_⟩
  intro written
  exact (extendedPublic_ofSlot_eq_iff Curve.secp256k1.group_canonical rfl
    decode?_compactRecord).mp written rfl

end Key

end KeyTree
