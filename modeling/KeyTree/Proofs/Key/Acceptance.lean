import KeyTree.Proofs.Key.Extended

/-!
# Which texts are extended keys

A text is accepted or refused for what its bytes are at the places of the layout.  Every refusal
names the first defect: the text, the length, the version, and last the key field.
-/

namespace KeyTree

/-- The bytes are as many as a record has, and they begin with the version of the class. -/
structure KeyClass.Marks (keyClass : KeyClass) (bytes : List UInt8) : Prop where
  length_eq : bytes.length = 78
  version_eq : ByteOrder.bigEndian.read (bytes.take 4) = keyClass.version.toNat

namespace Record

variable {keyClass : KeyClass} {text : String} {error : Error}

/-- The first defect for which a text is no record of a class. -/
inductive Defect (keyClass : KeyClass) (text : String) : Error → Prop where
  | encoding {defect : Base58.Defect} (foreign : ∀ bytes, text ≠ Base58.encodeCheck bytes)
      (undecoded : Base58.decodeCheck text = .error defect) :
      Defect keyClass text (.encoding defect)
  | length {bytes : List UInt8} (text_eq : text = Base58.encodeCheck bytes)
      (length_ne : bytes.length ≠ 78) : Defect keyClass text (.recordLength bytes.length)
  | version {bytes : List UInt8} {found : UInt32} (text_eq : text = Base58.encodeCheck bytes)
      (length_eq : bytes.length = 78)
      (found_eq : ByteOrder.bigEndian.read (bytes.take 4) = found.toNat)
      (found_ne : found ≠ keyClass.version) :
      Defect keyClass text (.versionMismatch found keyClass.version)

theorem marks_toBytes_iff {record : Record} :
    keyClass.Marks record.toBytes.toList ↔ record.version = keyClass.version := by
  have holds := holds_toBytes record
  constructor
  · intro marks
    exact UInt32.toNat_inj.mp (holds.version_eq.symm.trans marks.version_eq)
  · intro version_eq
    exact ⟨holds.length_eq, by rw [holds.version_eq, version_eq]⟩

theorem exists_of_marks {bytes : List UInt8} (marks : keyClass.Marks bytes) :
    ∃ record : Record, record.version = keyClass.version ∧ bytes = record.toBytes.toList := by
  obtain ⟨record, rfl⟩ := exists_record_of_length_eq marks.length_eq
  exact ⟨record, marks_toBytes_iff.mp marks, rfl⟩

theorem getElem?_lead (record : Record) : record.toBytes.toList[45]? = some record.lead := by
  rw [← List.head?_drop, (holds_toBytes record).key_eq]
  exact List.head?_eq_some_head _

theorem drop_lead (record : Record) :
    record.toBytes.toList.drop 46 = record.secret.bytes.toList := by
  have key_eq := (holds_toBytes record).key_eq
  calc
    record.toBytes.toList.drop 46 = (record.toBytes.toList.drop 45).drop 1 := by
      rw [List.drop_drop]
    _ = record.secret.bytes.toList := by
      rw [key_eq]
      rfl

/-- Reading a record of a class fails with the first defect and not otherwise. -/
theorem ofClass_eq_error_iff :
    ofClass keyClass text = .error error ↔ Defect keyClass text error := by
  constructor
  · intro failed
    rcases decoded : Base58.decodeCheck text with defect | bytes
    · rw [ofClass, ofText_of_undecoded decoded] at failed
      cases failed
      exact .encoding (Base58.ne_encodeCheck_of_undecoded decoded) decoded
    · obtain rfl := Base58.decodeCheck_eq_ok_iff.mp decoded
      by_cases length_eq : bytes.length = width
      · obtain ⟨record, rfl⟩ := exists_record_of_length_eq length_eq
        change ofClass keyClass record.text = .error error at failed
        rw [ofClass_text] at failed
        split at failed
        · cases failed
        · next version_ne =>
            cases failed
            exact .version rfl length_eq (holds_toBytes record).version_eq version_ne
      · rw [ofClass, ofText_of_length_ne length_eq] at failed
        cases failed
        exact .length rfl length_eq
  · rintro (⟨-, undecoded⟩ | ⟨rfl, length_ne⟩ | @⟨bytes, found, rfl, length_eq, found_eq, found_ne⟩)
    · rw [ofClass, ofText_of_undecoded undecoded]
      rfl
    · rw [ofClass, ofText_of_length_ne length_ne]
      rfl
    · obtain ⟨record, rfl⟩ := exists_record_of_length_eq length_eq
      obtain rfl : record.version = found :=
        UInt32.toNat_inj.mp ((holds_toBytes record).version_eq.symm.trans found_eq)
      exact (ofClass_text record keyClass).trans (if_neg found_ne)

/-- What is made of a text of a class fails in the record, or in what is made of the record. -/
theorem bind_ofClass_eq_error_iff {result : Type}
    {continuation : Record → Except Error result} :
    ofClass keyClass text >>= continuation = .error error ↔
      Defect keyClass text error ∨ ∃ record, text = Record.text record ∧
        record.version = keyClass.version ∧ continuation record = .error error := by
  rw [← ofClass_eq_error_iff]
  rcases classed : ofClass keyClass text with failure | record
  · have unread : ∀ record, ¬(text = Record.text record ∧ record.version = keyClass.version) := by
      intro record read
      rw [ofClass_eq_ok_iff.mpr read] at classed
      cases classed
    constructor
    · intro failed
      cases failed
      exact .inl rfl
    · rintro (failed | ⟨record, text_eq, version_eq, -⟩)
      · cases failed
        rfl
      · exact absurd ⟨text_eq, version_eq⟩ (unread record)
  · obtain ⟨rfl, version_eq⟩ := ofClass_eq_ok_iff.mp classed
    constructor
    · exact fun failed => .inr ⟨record, rfl, version_eq, failed⟩
    · rintro (failed | ⟨other, text_eq, -, failed⟩)
      · cases failed
      · obtain rfl := text_inj.mp text_eq
        exact failed

end Record

namespace Key

variable {group : CurveGroup}

/-! ## The payloads of extended keys -/

/-- The bytes hold a private key of the group. -/
structure PrivatePayload (group : CurveGroup) (bytes : List UInt8) : Prop where
  marks : (keyClass group .privateKey).Marks bytes
  lead_eq : bytes[45]? = some 0
  inRange : group.InRange (bytes.drop 46)

/-- The bytes hold a public key of the group, which denotes the point. -/
structure PublicPayload (group : CurveGroup) (bytes : List UInt8) (point : group.Point) : Prop where
  marks : (keyClass group .publicKey).Marks bytes
  decoded : group.decode? (bytes.drop 45) = some point

/-- The first defect for which a text is no extended private key of the group. -/
inductive PrivateDefect (group : CurveGroup) (text : String) : Error → Prop where
  | record {error : Error} (defect : Record.Defect (keyClass group .privateKey) text error) :
      PrivateDefect group text error
  | lead {bytes : List UInt8} {lead : UInt8} (text_eq : text = Base58.encodeCheck bytes)
      (marks : (keyClass group .privateKey).Marks bytes) (lead_eq : bytes[45]? = some lead)
      (lead_ne : lead ≠ 0) : PrivateDefect group text (.privateLead lead)
  | scalar {bytes : List UInt8} (text_eq : text = Base58.encodeCheck bytes)
      (marks : (keyClass group .privateKey).Marks bytes) (lead_eq : bytes[45]? = some 0)
      (outside : ¬group.InRange (bytes.drop 46)) : PrivateDefect group text .scalarOutOfRange

/-- The first defect for which a text is no extended public key of the group. -/
inductive PublicDefect (group : CurveGroup) (text : String) : Error → Prop where
  | record {error : Error} (defect : Record.Defect (keyClass group .publicKey) text error) :
      PublicDefect group text error
  | point {bytes : List UInt8} (text_eq : text = Base58.encodeCheck bytes)
      (marks : (keyClass group .publicKey).Marks bytes)
      (undecoded : group.decode? (bytes.drop 45) = none) : PublicDefect group text .invalidPoint

variable {text : String} {error : Error} {record : Record}

/-! ## Private keys -/

theorem privatePayload_toBytes_iff :
    PrivatePayload group record.toBytes.toList ↔
      record.version = (keyClass group .privateKey).version ∧ record.lead = privateLead ∧
        group.InRange record.secret.bytes.toList := by
  rw [← Record.marks_toBytes_iff, ← Record.drop_lead]
  constructor
  · rintro ⟨marks, lead_eq, inRange⟩
    rw [Record.getElem?_lead] at lead_eq
    exact ⟨marks, Option.some.inj lead_eq, inRange⟩
  · rintro ⟨marks, lead_eq, inRange⟩
    exact ⟨marks, by rw [Record.getElem?_lead, lead_eq]; rfl, inRange⟩

/-- Some key is read exactly if the text is that of a payload that holds a private key. -/
theorem exists_ofExtendedPrivate_iff :
    (∃ key, ofExtendedPrivate group text = .ok key) ↔
      ∃ bytes, text = Base58.encodeCheck bytes ∧ PrivatePayload group bytes := by
  constructor
  · rintro ⟨key, read⟩
    rw [ofExtendedPrivate_eq, Record.bind_ofClass_eq_ok_iff] at read
    obtain ⟨record, text_eq, version_eq, made⟩ := read
    obtain ⟨lead_eq, inRange, -⟩ := ofPrivateRecord_eq_ok_iff.mp made
    exact ⟨_, text_eq, privatePayload_toBytes_iff.mpr ⟨version_eq, lead_eq, inRange⟩⟩
  · rintro ⟨bytes, rfl, payload⟩
    obtain ⟨record, rfl⟩ := Record.exists_record_of_length_eq payload.marks.length_eq
    obtain ⟨version_eq, lead_eq, inRange⟩ := privatePayload_toBytes_iff.mp payload
    refine ⟨{ record.toPosition with material := .privateKey record.secret }, ?_⟩
    rw [ofExtendedPrivate_eq, Record.bind_ofClass_eq_ok_iff]
    exact ⟨record, rfl, version_eq, ofPrivateRecord_of_inRange lead_eq inRange⟩

/-- A private key carries the fields that the payload of its text holds. -/
theorem holds_of_extendedPrivate {key : Key group} {bytes : List UInt8}
    (read : ofExtendedPrivate group (Base58.encodeCheck bytes) = .ok key) :
    Record.HoldsPosition bytes key.toPosition ∧
      ∃ secret, key.material = .privateKey secret ∧ secret.bytes.toList = bytes.drop 46 := by
  rw [ofExtendedPrivate_eq, Record.bind_ofClass_eq_ok_iff] at read
  obtain ⟨record, text_eq, -, made⟩ := read
  obtain rfl := Base58.encodeCheck_inj.mp text_eq
  obtain ⟨-, -, rfl⟩ := ofPrivateRecord_eq_ok_iff.mp made
  exact ⟨(Record.holds_toBytes record).position, _, rfl, (Record.drop_lead record).symm⟩

theorem ofPrivateRecord_eq_error_iff :
    ofPrivateRecord group record = .error error ↔
      (record.lead ≠ privateLead ∧ error = .privateLead record.lead) ∨
        (record.lead = privateLead ∧ ¬group.InRange record.secret.bytes.toList ∧
          error = .scalarOutOfRange) := by
  by_cases lead_eq : record.lead = privateLead
  · by_cases inRange : group.InRange record.secret.bytes.toList
    · rw [ofPrivateRecord_of_inRange lead_eq inRange]
      simp [lead_eq, inRange]
    · rw [ofPrivateRecord_of_outside lead_eq inRange]
      simp [lead_eq, inRange, eq_comm]
  · rw [ofPrivateRecord_of_lead_ne lead_eq]
    simp [lead_eq, eq_comm]

/-- Reading a private key fails with the first defect and not otherwise. -/
theorem ofExtendedPrivate_eq_error_iff :
    ofExtendedPrivate group text = .error error ↔ PrivateDefect group text error := by
  rw [ofExtendedPrivate_eq, Record.bind_ofClass_eq_error_iff]
  constructor
  · rintro (defect | ⟨record, text_eq, version_eq, failed⟩)
    · exact .record defect
    · have marks := Record.marks_toBytes_iff.mpr version_eq
      have lead_at := Record.getElem?_lead record
      rcases ofPrivateRecord_eq_error_iff.mp failed with ⟨lead_ne, rfl⟩ | ⟨lead_eq, outside, rfl⟩
      · exact .lead text_eq marks lead_at lead_ne
      · rw [lead_eq] at lead_at
        rw [← Record.drop_lead] at outside
        exact .scalar text_eq marks lead_at outside
  · rintro (defect | @⟨bytes, lead, text_eq, marks, lead_eq, lead_ne⟩ |
      @⟨bytes, text_eq, marks, lead_eq, outside⟩)
    · exact .inl defect
    · obtain ⟨record, version_eq, rfl⟩ := Record.exists_of_marks marks
      rw [Record.getElem?_lead] at lead_eq
      obtain rfl := Option.some.inj lead_eq
      exact .inr ⟨record, text_eq, version_eq, ofPrivateRecord_of_lead_ne lead_ne⟩
    · obtain ⟨record, version_eq, rfl⟩ := Record.exists_of_marks marks
      rw [Record.getElem?_lead] at lead_eq
      rw [Record.drop_lead] at outside
      exact .inr ⟨record, text_eq, version_eq,
        ofPrivateRecord_of_outside (Option.some.inj lead_eq) outside⟩

/-! ## Public keys -/

theorem publicPayload_toBytes_iff {point : group.Point} :
    PublicPayload group record.toBytes.toList point ↔
      record.version = (keyClass group .publicKey).version ∧
        group.decode? record.key.toList = some point := by
  rw [← Record.marks_toBytes_iff, ← (Record.holds_toBytes record).key_eq]
  exact ⟨fun payload => ⟨payload.marks, payload.decoded⟩,
    fun ⟨marks, decoded⟩ => ⟨marks, decoded⟩⟩

/-- Some key is read exactly if the text is that of a payload that holds a public key. -/
theorem exists_ofExtendedPublic_iff :
    (∃ key, ofExtendedPublic group text = .ok key) ↔
      ∃ bytes point, text = Base58.encodeCheck bytes ∧ PublicPayload group bytes point := by
  constructor
  · rintro ⟨key, read⟩
    obtain ⟨record, point, text_eq, version_eq, decoded, -⟩ := ofExtendedPublic_eq_ok_iff.mp read
    exact ⟨_, point, text_eq, publicPayload_toBytes_iff.mpr ⟨version_eq, decoded⟩⟩
  · rintro ⟨bytes, point, rfl, payload⟩
    obtain ⟨record, rfl⟩ := Record.exists_record_of_length_eq payload.marks.length_eq
    obtain ⟨version_eq, decoded⟩ := publicPayload_toBytes_iff.mp payload
    exact ⟨_, ofExtendedPublic_eq_ok_iff.mpr ⟨record, point, rfl, version_eq, decoded, rfl⟩⟩

/-- A public key carries the fields that the payload of its text holds. -/
theorem holds_of_extendedPublic {key : Key group} {bytes : List UInt8}
    (read : ofExtendedPublic group (Base58.encodeCheck bytes) = .ok key) :
    Record.HoldsPosition bytes key.toPosition ∧
      ∃ point, group.decode? (bytes.drop 45) = some point ∧
        key.material = .publicKey (group.encode point) := by
  obtain ⟨record, point, text_eq, -, decoded, rfl⟩ := ofExtendedPublic_eq_ok_iff.mp read
  obtain rfl := Base58.encodeCheck_inj.mp text_eq
  have holds := Record.holds_toBytes record
  exact ⟨holds.position, point, by rw [holds.key_eq, decoded], rfl⟩

theorem ofPublicRecord_eq_error_iff :
    ofPublicRecord group record = .error error ↔
      group.decode? record.key.toList = none ∧ error = .invalidPoint := by
  rcases decoded : group.decode? record.key.toList with - | point
  · rw [ofPublicRecord_of_none decoded]
    simp [eq_comm]
  · rw [ofPublicRecord_of_some decoded]
    simp

/-- Reading a public key fails with the first defect and not otherwise. -/
theorem ofExtendedPublic_eq_error_iff :
    ofExtendedPublic group text = .error error ↔ PublicDefect group text error := by
  rw [ofExtendedPublic_eq, Record.bind_ofClass_eq_error_iff]
  constructor
  · rintro (defect | ⟨record, text_eq, version_eq, failed⟩)
    · exact .record defect
    · obtain ⟨undecoded, rfl⟩ := ofPublicRecord_eq_error_iff.mp failed
      rw [← (Record.holds_toBytes record).key_eq] at undecoded
      exact .point text_eq (Record.marks_toBytes_iff.mpr version_eq) undecoded
  · rintro (defect | @⟨bytes, text_eq, marks, undecoded⟩)
    · exact .inl defect
    · obtain ⟨record, version_eq, rfl⟩ := Record.exists_of_marks marks
      rw [(Record.holds_toBytes record).key_eq] at undecoded
      exact .inr ⟨record, text_eq, version_eq, ofPublicRecord_of_none undecoded⟩

/-! ## Which texts are extended keys -/

/-- The class of an extended key can be told from its text. -/
theorem keyClass_eq_of_text {first second : KeyClass} {one other : List UInt8}
    (one_eq : text = Base58.encodeCheck one) (other_eq : text = Base58.encodeCheck other)
    (one_marks : first.Marks one) (other_marks : second.Marks other) : first = second := by
  obtain rfl : one = other := Base58.encodeCheck_inj.mp (one_eq.symm.trans other_eq)
  have version_eq : first.version = second.version :=
    UInt32.toNat_inj.mp (one_marks.version_eq.symm.trans other_marks.version_eq)
  have same := KeyClass.ofVersion?_version first
  rw [version_eq, KeyClass.ofVersion?_version] at same
  exact (Option.some.inj same).symm

/-- The text is read as a key of this kind over the group. -/
def Accepts (group : CurveGroup) (text : String) : KeyKind → Prop
  | .privateKey => ∃ key, ofExtendedPrivate group text = .ok key
  | .publicKey => ∃ key, ofExtendedPublic group text = .ok key

theorem Accepts.exists_marks {kind : KeyKind} (accepts : Accepts group text kind) :
    ∃ bytes, text = Base58.encodeCheck bytes ∧ (keyClass group kind).Marks bytes := by
  cases kind with
  | privateKey =>
      obtain ⟨bytes, text_eq, payload⟩ := exists_ofExtendedPrivate_iff.mp accepts
      exact ⟨bytes, text_eq, payload.marks⟩
  | publicKey =>
      obtain ⟨bytes, _, text_eq, payload⟩ := exists_ofExtendedPublic_iff.mp accepts
      exact ⟨bytes, text_eq, payload.marks⟩

/--
A text is an extended key exactly if its bytes hold a key at the places of the layout, and the key
carries what they hold.  Every other text is refused for its first defect.  A text that is an
extended key is one of a single kind and of a single family.
-/
theorem extended_accepts_exactly (curve : Curve) (text : String) :
    (Accepts curve.group text .privateKey ↔
        ∃ bytes, text = Base58.encodeCheck bytes ∧ PrivatePayload curve.group bytes) ∧
      (∀ key, ofExtendedPrivate curve.group text = .ok key →
        key.extendedPrivate = .ok text ∧ ∀ bytes, text = Base58.encodeCheck bytes →
          Record.HoldsPosition bytes key.toPosition ∧ ∃ secret,
            key.material = .privateKey secret ∧ secret.bytes.toList = bytes.drop 46) ∧
      (∀ error, ofExtendedPrivate curve.group text = .error error ↔
        PrivateDefect curve.group text error) ∧
      (Accepts curve.group text .publicKey ↔
        ∃ bytes point, text = Base58.encodeCheck bytes ∧
          PublicPayload curve.group bytes point) ∧
      (∀ key, ofExtendedPublic curve.group text = .ok key →
        ∀ bytes, text = Base58.encodeCheck bytes →
          Record.HoldsPosition bytes key.toPosition ∧ ∃ point,
            curve.group.decode? (bytes.drop 45) = some point ∧
              key.material = .publicKey (curve.group.encode point)) ∧
      (∀ error, ofExtendedPublic curve.group text = .error error ↔
        PublicDefect curve.group text error) ∧
      ∀ kind other otherKind, Accepts curve.group text kind →
        Accepts (Curve.group other) text otherKind →
          kind = otherKind ∧ curve.family = other.family := by
  refine ⟨exists_ofExtendedPrivate_iff, ?_, fun _ => ofExtendedPrivate_eq_error_iff,
    exists_ofExtendedPublic_iff, ?_, fun _ => ofExtendedPublic_eq_error_iff, ?_⟩
  · intro key read
    refine ⟨(ofExtendedPrivate_eq_ok_iff.mp read).2, ?_⟩
    rintro bytes rfl
    exact holds_of_extendedPrivate read
  · rintro key read bytes rfl
    exact holds_of_extendedPublic read
  · intro kind other otherKind accepts also
    obtain ⟨one, one_eq, one_marks⟩ := accepts.exists_marks
    obtain ⟨second, second_eq, second_marks⟩ := also.exists_marks
    have same := keyClass_eq_of_text one_eq second_eq one_marks second_marks
    simp only [keyClass, Curve.curve_group, KeyClass.mk.injEq] at same
    exact ⟨same.2, same.1⟩

end Key

end KeyTree
