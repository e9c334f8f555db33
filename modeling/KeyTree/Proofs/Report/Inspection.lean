import KeyTree.Proofs.Key.Extended
import KeyTree.Proofs.Report.Agreement

/-!
# Inspection agrees with reading

A report on an extended key works out the class of the key from the version, while the readers of
keys are told the class and compare the version with it.  Both take the same texts.
-/

namespace KeyTree

open KeyTree.Derivation

namespace Key

variable {group : CurveGroup} {text : String} {kind : KeyKind} {key : Key group}

/-- The key of a kind with this text. -/
def ofExtended (group : CurveGroup) : KeyKind → String → Except Error (Key group)
  | .privateKey => ofExtendedPrivate group
  | .publicKey => ofExtendedPublic group

/-- A key is read from the text of a record of its class, and stands where the record says. -/
theorem exists_record_of_ofExtended (read : ofExtended group kind text = .ok key) :
    ∃ record : Record, text = record.text ∧ record.version = (keyClass group kind).version ∧
      record.toPosition = key.toPosition ∧
      (kind = .publicKey → ofPublicRecord group record = .ok key) := by
  cases kind with
  | privateKey =>
      rw [ofExtended, ofExtendedPrivate_eq, Record.bind_ofClass_eq_ok_iff] at read
      obtain ⟨record, text_eq, version_eq, made⟩ := read
      obtain ⟨-, -, rfl⟩ := ofPrivateRecord_eq_ok_iff.mp made
      exact ⟨record, text_eq, version_eq, rfl, fun watched => nomatch watched⟩
  | publicKey =>
      obtain ⟨record, point, text_eq, version_eq, decoded, rfl⟩ :=
        ofExtendedPublic_eq_ok_iff.mp read
      exact ⟨record, text_eq, version_eq, rfl, fun _ => ofPublicRecord_of_some decoded⟩

/-- No text is read as keys of both kinds. -/
theorem kind_unique {otherKind : KeyKind} {other : Key group}
    (read : ofExtended group kind text = .ok key)
    (other_read : ofExtended group otherKind text = .ok other) : kind = otherKind := by
  obtain ⟨record, rfl, version_eq, -⟩ := exists_record_of_ofExtended read
  obtain ⟨otherRecord, text_eq, other_version_eq, -⟩ := exists_record_of_ofExtended other_read
  obtain rfl := Record.text_inj.mp text_eq
  have found := KeyClass.ofVersion?_version (keyClass group kind)
  rw [← version_eq, other_version_eq, KeyClass.ofVersion?_version] at found
  exact (KeyClass.mk.inj (Option.some.inj found)).2.symm

end Key

namespace Record

variable {record : Record}

theorem keyClass?_eq_some_iff {keyClass : KeyClass} :
    record.keyClass? = some keyClass ↔ record.version = keyClass.version := by
  constructor
  · exact fun found => (KeyClass.version_eq_of_ofVersion? found).symm
  · intro version_eq
    rw [keyClass?, version_eq, KeyClass.ofVersion?_version]

/-- The class is known exactly if the version is one of the four. -/
theorem isSome_keyClass?_iff :
    record.keyClass?.isSome = true ↔ record.version ∈ KeyClass.all.map KeyClass.version := by
  rw [Option.isSome_iff_exists, List.mem_map]
  constructor
  · rintro ⟨keyClass, found⟩
    have version_eq := keyClass?_eq_some_iff.mp found
    rw [keyClass?, KeyClass.ofVersion?] at found
    exact ⟨keyClass, List.mem_of_find?_eq_some found, version_eq.symm⟩
  · rintro ⟨keyClass, -, version_eq⟩
    exact ⟨keyClass, keyClass?_eq_some_iff.mpr version_eq.symm⟩

end Record

namespace InspectedReport

variable {group : CurveGroup} {text : String} {record : Record} {report : InspectedReport}

/-- The key field is told exactly if the class is one of public keys. -/
theorem isSome_publicField?_iff {keyClass : KeyClass} (found : record.keyClass? = some keyClass) :
    (publicField? record).isSome = true ↔ keyClass.kind = .publicKey := by
  obtain ⟨family, kind⟩ := keyClass
  rw [publicField?, found]
  cases kind with
  | privateKey => simp
  | publicKey => simp

theorem eq_key_of_publicField? {field : Bytes 33} (told : publicField? record = some field) :
    field = record.key := by
  rw [publicField?] at told
  split at told
  · exact (Option.some.inj told).symm
  · contradiction

/-! ## Which texts are reported on -/

/-- A record of a class of the group is valid if its text is read as a key of this class. -/
theorem validate_of_version_eq (version_eq : record.version = (Key.keyClass group kind).version) :
    validate group text record =
      ((Key.ofExtended group kind text).mapError (.invalidKey group.curve kind)).map
        fun _ => () := by
  have class_eq : record.keyClass? = some ⟨group.curve.family, kind⟩ :=
    Record.keyClass?_eq_some_iff.mpr version_eq
  rw [validate, class_eq]
  simp only [ne_eq, not_true_eq_false, ↓reduceIte]
  cases kind with
  | privateKey => rfl
  | publicKey => rfl

theorem exists_kind_of_validate (valid : validate group text record = .ok ()) :
    ∃ kind, record.version = (Key.keyClass group kind).version := by
  rw [validate] at valid
  split at valid
  · cases valid
  · next family kind class_eq =>
      split at valid
      · cases valid
      · next same =>
          obtain rfl := not_not.mp same
          exact ⟨kind, Record.keyClass?_eq_some_iff.mp class_eq⟩

/-- A record is valid in a group exactly if its text is read as a key of its class. -/
theorem validate_eq_ok_iff :
    validate group text record = .ok () ↔
      ∃ kind key, record.version = (Key.keyClass group kind).version ∧
        Key.ofExtended group kind text = .ok key := by
  constructor
  · intro valid
    obtain ⟨kind, version_eq⟩ := exists_kind_of_validate valid
    rw [validate_of_version_eq version_eq] at valid
    rcases read : Key.ofExtended group kind text with error | key
    · rw [read] at valid
      cases valid
    · exact ⟨kind, key, version_eq, read⟩
  · rintro ⟨kind, key, version_eq, read⟩
    rw [validate_of_version_eq version_eq, read]
    rfl

/-- Without a curve, the texts of records are reported on. -/
theorem ofText_none_eq_ok_iff :
    ofText text none = .ok report ↔
      ∃ record, Blank.trim text = Record.text record ∧ report = ofRecord record none := by
  constructor
  · intro reported
    obtain ⟨record, read, made⟩ := ok_of_bind reported
    exact ⟨record, Record.ofText_eq_ok_iff.mp (ok_of_mapError read), (Except.ok.inj made).symm⟩
  · rintro ⟨record, text_eq, rfl⟩
    rw [ofText, text_eq, Record.ofText_eq_ok_iff.mpr rfl]
    rfl

/-- With a curve, the texts of its keys are reported on. -/
theorem ofText_some_eq_ok_iff :
    ofText text (some group) = .ok report ↔
      ∃ record kind key, Blank.trim text = Record.text record ∧
        record.version = (Key.keyClass group kind).version ∧
        Key.ofExtended group kind (Blank.trim text) = .ok key ∧
        report = ofRecord record (some group.curve) := by
  constructor
  · intro reported
    obtain ⟨record, read, made⟩ := ok_of_bind reported
    obtain ⟨_, valid, made⟩ := ok_of_bind made
    obtain ⟨kind, key, version_eq, key_read⟩ := validate_eq_ok_iff.mp valid
    exact ⟨record, kind, key, Record.ofText_eq_ok_iff.mp (ok_of_mapError read), version_eq,
      key_read, (Except.ok.inj made).symm⟩
  · rintro ⟨record, kind, key, text_eq, version_eq, key_read, rfl⟩
    have valid := validate_eq_ok_iff.mpr ⟨kind, key, version_eq, key_read⟩
    have read := Record.ofText_eq_ok_iff.mpr text_eq
    simp only [ofText, read, Except.mapError, bind, Except.bind, valid]
    rfl

/-- A text is reported on with a curve exactly if it is read as a key of one kind. -/
theorem exists_ofText_some_iff :
    (∃ report, ofText text (some group) = .ok report) ↔
      ∃! kind, ∃ key, Key.ofExtended group kind (Blank.trim text) = .ok key := by
  constructor
  · rintro ⟨report, reported⟩
    obtain ⟨record, kind, key, -, -, read, -⟩ := ofText_some_eq_ok_iff.mp reported
    refine ⟨kind, ⟨key, read⟩, ?_⟩
    rintro otherKind ⟨other, other_read⟩
    exact Key.kind_unique other_read read
  · rintro ⟨kind, ⟨key, read⟩, -⟩
    obtain ⟨record, text_eq, version_eq, -⟩ := Key.exists_record_of_ofExtended read
    exact ⟨_, ofText_some_eq_ok_iff.mpr ⟨record, kind, key, text_eq, version_eq, read, rfl⟩⟩

/-! ## What is reported -/

/-- A report on an extended key tells of which kind the key is and where it stands. -/
structure Tells (report : InspectedReport) (kind : KeyKind) (key : Key group) : Prop where
  validFor_eq : report.validFor? = some group.curve
  keyClass_eq : report.keyClass? = some ⟨group.curve.family, kind⟩
  version_eq : report.version = (Key.keyClass group kind).version
  position_eq : report.toPosition = key.toPosition
  hardened_mem : ("hardened", .boolean (ChildIndex.isHardened key.childIndex)) ∈ report.members
  /-- The key field is told for public keys alone. -/
  slot_iff : report.slot?.isSome = true ↔ kind = .publicKey
  /-- The key field that is told is read as the key. -/
  reads_slot : ∀ {field : Bytes 33}, report.slot? = some field →
    Key.ofPublic key.toPosition field.toList = .ok key

/-- The report on a text tells of every key that is read from the text. -/
theorem tells_of_ofText (reported : ofText text (some group) = .ok report) {kind : KeyKind}
    {key : Key group} (read : Key.ofExtended group kind (Blank.trim text) = .ok key) :
    report.Tells kind key := by
  obtain ⟨record, text_eq, version_eq, position_eq, public_read⟩ :=
    Key.exists_record_of_ofExtended read
  obtain ⟨found, _, _, found_eq, -, -, rfl⟩ := ofText_some_eq_ok_iff.mp reported
  obtain rfl := Record.text_inj.mp (found_eq.symm.trans text_eq)
  have class_eq : found.keyClass? = some ⟨group.curve.family, kind⟩ :=
    Record.keyClass?_eq_some_iff.mpr version_eq
  have slot_iff := isSome_publicField?_iff class_eq
  refine ⟨rfl, class_eq, version_eq, position_eq, ?_, slot_iff, ?_⟩
  · rw [← position_eq]
    exact hardened_mem_members _
  · intro field told
    have watched := slot_iff.mp (Option.isSome_iff_exists.mpr ⟨field, told⟩)
    rw [← position_eq, eq_key_of_publicField? told]
    exact public_read watched

/--
With a curve, the texts that are reported on are those that are read as a private key or as a public
key of the curve, which no text is both, and the report tells of the key.  Without a curve, they are
the texts of records, and the class is told exactly if the version is one of the four.
-/
theorem ofText_agrees (curve : Curve) (text : String) :
    ((∃ report, ofText text (some curve.group) = .ok report) ↔
        ∃! kind, ∃ key, Key.ofExtended curve.group kind (Blank.trim text) = .ok key) ∧
      ¬((∃ key, Key.ofExtendedPrivate curve.group (Blank.trim text) = .ok key) ∧
        ∃ key, Key.ofExtendedPublic curve.group (Blank.trim text) = .ok key) ∧
      (∀ report kind key, ofText text (some curve.group) = .ok report →
        Key.ofExtended curve.group kind (Blank.trim text) = .ok key → report.Tells kind key) ∧
      ((∃ report, ofText text none = .ok report) ↔
        ∃ record, Record.ofText (Blank.trim text) = .ok record) ∧
      ∀ report, ofText text none = .ok report →
        (report.keyClass?.isSome = true ↔ report.version ∈ KeyClass.all.map KeyClass.version) ∧
          ∃ record, Record.ofText (Blank.trim text) = .ok record ∧
            report = ofRecord record none := by
  refine ⟨exists_ofText_some_iff, ?_, ?_, ?_, ?_⟩
  · rintro ⟨⟨owned, owned_read⟩, watched, watched_read⟩
    have same := @Key.kind_unique curve.group (Blank.trim text) .privateKey owned .publicKey watched
      owned_read watched_read
    cases same
  · exact fun report kind key reported read => tells_of_ofText reported read
  · simp only [ofText_none_eq_ok_iff, Record.ofText_eq_ok_iff]
    constructor
    · rintro ⟨_, record, text_eq, -⟩
      exact ⟨record, text_eq⟩
    · rintro ⟨record, text_eq⟩
      exact ⟨_, record, text_eq, rfl⟩
  · intro report reported
    obtain ⟨record, text_eq, rfl⟩ := ofText_none_eq_ok_iff.mp reported
    exact ⟨Record.isSome_keyClass?_iff, record, Record.ofText_eq_ok_iff.mpr text_eq, rfl⟩

end InspectedReport

end KeyTree
