import KeyTree.Proofs.Group.Canonical
import KeyTree.Proofs.Key.Reachable
import KeyTree.Proofs.Record.Codec

/-!
# Valid keys are read back from their texts

Reading an extended key is reading a record of the wanted class and then its key field.  A valid key
writes a record of its class, so reading its texts gives the key, or the key without its private key.
-/

namespace KeyTree

/-! ## Private keys as bytes -/

namespace CurveGroup

variable {group : CurveGroup}

/-- The number that bytes hold is neither zero nor too large for a private key. -/
def InRange (group : CurveGroup) (bytes : List UInt8) : Prop :=
  0 < group.byteOrder.read bytes ∧ group.byteOrder.read bytes < group.order

theorem privateKey_of_inRange {secret : Secret 32} (inRange : group.InRange secret.bytes.toList) :
    group.privateKey secret.bytes.toList = .ok secret := by
  have scalar_eq : group.privateScalar secret = .ok ⟨_, inRange.2⟩ :=
    privateScalar_eq_ok_iff.mpr ⟨rfl, inRange.1⟩
  rw [privateKey, Secret.ofList?, Bytes.ofList?_toList]
  simp only [Option.map_some, scalar_eq]
  rfl

theorem privateKey_of_outside {secret : Secret 32}
    (outside : ¬group.InRange secret.bytes.toList) :
    group.privateKey secret.bytes.toList = .error .scalarOutOfRange := by
  have refused : group.privateScalar secret = .error .scalarOutOfRange := by
    rw [privateScalar, scalarOfBytes?]
    by_cases small : group.byteOrder.read secret.bytes.toList < group.order
    · have zero : group.byteOrder.read secret.bytes.toList = 0 :=
        Nat.eq_zero_of_not_pos fun positive => outside ⟨positive, small⟩
      simp only [small, ↓reduceDIte]
      rw [if_pos zero]
    · simp only [small, ↓reduceDIte]
  rw [privateKey, Secret.ofList?, Bytes.ofList?_toList]
  simp only [Option.map_some, refused]
  rfl

end CurveGroup

/-! ## Records of a class -/

namespace Record

open KeyTree.Derivation

/-- The record with this text, provided that it has the version of a class. -/
def ofClass (keyClass : KeyClass) (text : String) : Except Error Record := do
  let record ← ofText text
  record.expectVersion keyClass.version
  return record

/-- The first byte of the key field. -/
def lead (record : Record) : UInt8 :=
  KeySlot.lead record.key

/-- The other bytes of the key field. -/
def secret (record : Record) : Secret 32 :=
  ⟨KeySlot.body record.key⟩

variable {keyClass : KeyClass} {text : String} {record : Record}

theorem ofClass_text (record : Record) (keyClass : KeyClass) :
    ofClass keyClass record.text = if record.version = keyClass.version then .ok record
      else .error (.versionMismatch record.version keyClass.version) := by
  rw [ofClass, ofText_eq_ok_iff.mpr rfl]
  simp only [bind, Except.bind, expectVersion]
  by_cases version_eq : record.version = keyClass.version
  · simp only [version_eq, ↓reduceIte]
    rfl
  · simp only [version_eq, ↓reduceIte]

theorem ofClass_eq_ok_iff :
    ofClass keyClass text = .ok record ↔
      text = record.text ∧ record.version = keyClass.version := by
  constructor
  · intro read
    obtain ⟨found, found_eq, -⟩ := ok_of_bind read
    obtain rfl := ofText_eq_ok_iff.mp found_eq
    rw [ofClass_text] at read
    split at read
    · next version_eq =>
        cases read
        exact ⟨rfl, version_eq⟩
    · cases read
  · rintro ⟨rfl, version_eq⟩
    rw [ofClass_text, if_pos version_eq]

/-- What is made of a text of a class is made of the record with this text. -/
theorem bind_ofClass_eq_ok_iff {result : Type} {continuation : Record → Except Error result}
    {value : result} :
    ofClass keyClass text >>= continuation = .ok value ↔
      ∃ record, text = record.text ∧ record.version = keyClass.version ∧
        continuation record = .ok value := by
  constructor
  · intro made
    obtain ⟨record, classed, made⟩ := ok_of_bind made
    obtain ⟨text_eq, version_eq⟩ := ofClass_eq_ok_iff.mp classed
    exact ⟨record, text_eq, version_eq, made⟩
  · rintro ⟨record, text_eq, version_eq, made⟩
    rw [ofClass_eq_ok_iff.mpr ⟨text_eq, version_eq⟩]
    exact made

theorem key_eq_privateField (lead_eq : record.lead = Key.privateLead) :
    record.key = Key.privateField record.secret := by
  rw [Key.privateField, ← lead_eq]
  exact (@Bytes.singleton_head_append_dropLeft 32 record.key).symm

end Record

namespace Key

variable {group : CurveGroup}

@[simp]
theorem secret_record (key : Key group) (kind : KeyKind) (secret : Secret 32) :
    (key.record kind (privateField secret)).secret = secret := by
  rw [Record.secret, KeySlot.body, Key.record, privateField]
  simp only [Bytes.dropLeft_append]

/-! ## Reading a key is reading a record of its class -/

/-- The key that a record of an extended private key holds. -/
def ofPrivateRecord (group : CurveGroup) (record : Record) : Except Error (Key group) :=
  if record.lead = privateLead then ofPrivate record.toPosition record.secret.bytes.toList
  else .error (.privateLead record.lead)

/-- The key that a record of an extended public key holds. -/
def ofPublicRecord (group : CurveGroup) (record : Record) : Except Error (Key group) :=
  ofPublic record.toPosition record.key.toList

theorem ofExtendedPrivate_eq (group : CurveGroup) (text : String) :
    ofExtendedPrivate group text =
      Record.ofClass (keyClass group .privateKey) text >>= ofPrivateRecord group := by
  simp only [ofExtendedPrivate, Record.ofClass, bind_assoc, pure_bind]
  rfl

theorem ofExtendedPublic_eq (group : CurveGroup) (text : String) :
    ofExtendedPublic group text =
      Record.ofClass (keyClass group .publicKey) text >>= ofPublicRecord group := by
  simp only [ofExtendedPublic, Record.ofClass, bind_assoc, pure_bind]
  rfl

theorem ofPrivateRecord_of_inRange {record : Record} (lead_eq : record.lead = privateLead)
    (inRange : group.InRange record.secret.bytes.toList) :
    ofPrivateRecord group record =
      .ok { record.toPosition with material := .privateKey record.secret } := by
  rw [ofPrivateRecord, if_pos lead_eq, ofPrivate, CurveGroup.privateKey_of_inRange inRange]
  rfl

theorem ofPrivateRecord_of_outside {record : Record} (lead_eq : record.lead = privateLead)
    (outside : ¬group.InRange record.secret.bytes.toList) :
    ofPrivateRecord group record = .error .scalarOutOfRange := by
  rw [ofPrivateRecord, if_pos lead_eq, ofPrivate, CurveGroup.privateKey_of_outside outside]
  rfl

theorem ofPrivateRecord_of_lead_ne {record : Record} (lead_ne : record.lead ≠ privateLead) :
    ofPrivateRecord group record = .error (.privateLead record.lead) := by
  rw [ofPrivateRecord, if_neg lead_ne]

theorem ofPrivateRecord_eq_ok_iff {record : Record} {key : Key group} :
    ofPrivateRecord group record = .ok key ↔
      record.lead = privateLead ∧ group.InRange record.secret.bytes.toList ∧
        key = { record.toPosition with material := .privateKey record.secret } := by
  by_cases lead_eq : record.lead = privateLead
  · by_cases inRange : group.InRange record.secret.bytes.toList
    · rw [ofPrivateRecord_of_inRange lead_eq inRange]
      simp [lead_eq, inRange, eq_comm]
    · rw [ofPrivateRecord_of_outside lead_eq inRange]
      simp [inRange]
  · rw [ofPrivateRecord_of_lead_ne lead_eq]
    simp [lead_eq]

theorem ofPublicRecord_of_some {record : Record} {point : group.Point}
    (decoded : group.decode? record.key.toList = some point) :
    ofPublicRecord group record =
      .ok { record.toPosition with material := .publicKey (group.encode point) } := by
  rw [ofPublicRecord, ofPublic, CurveGroup.publicSlot, CurveGroup.publicPoint, decoded]
  rfl

theorem ofPublicRecord_of_none {record : Record}
    (undecoded : group.decode? record.key.toList = none) :
    ofPublicRecord group record = .error .invalidPoint := by
  rw [ofPublicRecord, ofPublic, CurveGroup.publicSlot, CurveGroup.publicPoint, undecoded]
  rfl

/-! ## Private keys and their texts -/

theorem extendedPrivate_of_public {key : Key group} (watched : key.private? = none) :
    key.extendedPrivate = .error .missingPrivateKey := by
  rw [extendedPrivate, requirePrivate, watched]
  rfl

theorem extendedPrivate_of_private {key : Key group} {secret : Secret 32}
    (holds : key.private? = some secret) :
    key.extendedPrivate = .ok (key.record .privateKey (privateField secret)).text := by
  rw [extendedPrivate, requirePrivate, holds]
  rfl

/-- A text is read as a private key exactly if the key is valid and writes it. -/
theorem ofExtendedPrivate_eq_ok_iff {text : String} {key : Key group} :
    ofExtendedPrivate group text = .ok key ↔ key.Valid ∧ key.extendedPrivate = .ok text := by
  rw [ofExtendedPrivate_eq, Record.bind_ofClass_eq_ok_iff]
  constructor
  · rintro ⟨record, rfl, version_eq, made⟩
    obtain ⟨lead_eq, inRange, rfl⟩ := ofPrivateRecord_eq_ok_iff.mp made
    refine ⟨inRange, ?_⟩
    rw [extendedPrivate_of_private rfl, Key.record, ← Record.key_eq_privateField lead_eq,
      ← version_eq]
  · rintro ⟨valid, written⟩
    rcases stored : key.material with secret | slot
    · have holds : key.private? = some secret := by rw [private?, stored]
      rw [extendedPrivate_of_private holds] at written
      cases written
      rw [Valid, stored] at valid
      refine ⟨_, rfl, rfl, ofPrivateRecord_eq_ok_iff.mpr ⟨rfl, ?_, ?_⟩⟩
      · rw [secret_record]
        exact valid
      · rw [secret_record, ← stored]
        rfl
    · have watched : key.private? = none := by rw [private?, stored]
      rw [extendedPrivate_of_public watched] at written
      cases written

/-! ## Public keys and their texts -/

/-- A text is read as a public key exactly if its key field is read as the point of the key. -/
theorem ofExtendedPublic_eq_ok_iff {text : String} {key : Key group} :
    ofExtendedPublic group text = .ok key ↔ ∃ record point, text = Record.text record ∧
      record.version = (keyClass group .publicKey).version ∧
      group.decode? record.key.toList = some point ∧
      key = { record.toPosition with material := .publicKey (group.encode point) } := by
  rw [ofExtendedPublic_eq, Record.bind_ofClass_eq_ok_iff]
  constructor
  · rintro ⟨record, text_eq, version_eq, made⟩
    rcases decoded : group.decode? record.key.toList with - | point
    · rw [ofPublicRecord_of_none decoded] at made
      cases made
    · rw [ofPublicRecord_of_some decoded] at made
      cases made
      exact ⟨record, point, text_eq, version_eq, decoded, rfl⟩
  · rintro ⟨record, point, text_eq, version_eq, decoded, rfl⟩
    exact ⟨record, text_eq, version_eq, ofPublicRecord_of_some decoded⟩

/-- The text of the public key of a key is read as the key without its private key. -/
theorem ofExtendedPublic_extendedPublicOf (lawful : group.Lawful) {key : Key group}
    {point : group.Point} (has : key.HasPoint point) :
    ofExtendedPublic group (key.extendedPublicOf (group.encode point)) =
      .ok (key.withSlot (group.encode point)) := by
  have decoded := lawful.decode?_encode has.2.1 has.2.2
  exact ofExtendedPublic_eq_ok_iff.mpr
    ⟨key.record .publicKey (group.encode point), point, rfl, rfl, decoded, rfl⟩

/--
A reachable key is restored from its extended private key, and the key without its private key from
its extended public key.
-/
theorem extended_restores {curve : Curve} {key : Key curve.group} (reachable : key.Reachable) :
    (∃ text watched, key.extendedPublic = .ok text ∧ key.neuter = .ok watched ∧
      watched.toPosition = key.toPosition ∧ watched.publicKey = key.publicKey ∧
        ofExtendedPublic curve.group text = .ok watched) ∧
      (∀ secret, key.private? = some secret → ∃ text,
        key.extendedPrivate = .ok text ∧ ofExtendedPrivate curve.group text = .ok key) ∧
      (key.private? = none → key.extendedPrivate = .error .missingPrivateKey) := by
  have lawful := curve.group_lawful
  have valid := reachable.valid lawful
  obtain ⟨point, has⟩ := valid.hasPoint lawful
  refine ⟨?_, ?_, extendedPrivate_of_public⟩
  · exact ⟨_, _, extendedPublic_of_publicKey has.1, neuter_of_publicKey has.1, rfl, has.1.symm,
      ofExtendedPublic_extendedPublicOf lawful has⟩
  · intro secret holds
    have written := extendedPrivate_of_private holds
    exact ⟨_, written, ofExtendedPrivate_eq_ok_iff.mpr ⟨valid, written⟩⟩

/-- The texts of that key restore it. -/
theorem extended_restores_generatorKey :
    generatorKey.Reachable ∧
      (∃ text watched, generatorKey.extendedPublic = .ok text ∧
        generatorKey.neuter = .ok watched ∧
          ofExtendedPublic Curve.secp256k1.group text = .ok watched) ∧
      ∃ text, generatorKey.extendedPrivate = .ok text ∧
        ofExtendedPrivate Curve.secp256k1.group text = .ok generatorKey := by
  obtain ⟨⟨text, watched, written, dropped, -, -, read⟩, restored, -⟩ :=
    extended_restores reachable_generatorKey
  exact ⟨reachable_generatorKey, ⟨text, watched, written, dropped, read⟩, restored _ rfl⟩

end Key

end KeyTree
