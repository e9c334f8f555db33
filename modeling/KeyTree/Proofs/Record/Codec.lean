import KeyTree.Proofs.Base58.Refusal
import KeyTree.Proofs.Derivation.Run
import KeyTree.Record.Basic

/-!
# Records, their bytes and their texts correspond

The bytes of a record are the only ones that are read as it, and so is its text.  `Holds` says where
the fields stand among the bytes, without regard to how a record is put together or taken apart.
-/

namespace KeyTree

theorem Bytes.read_ofUInt32 (value : UInt32) :
    ByteOrder.bigEndian.read (Bytes.ofUInt32 value).toList = value.toNat :=
  ByteOrder.read_write _ value.toNat_lt

theorem Bytes.toNat_toUInt32 (bytes : Bytes 4) :
    bytes.toUInt32.toNat = ByteOrder.bigEndian.read bytes.toList := by
  rw [← read_ofUInt32, ofUInt32_toUInt32]

namespace Record

open KeyTree.Derivation

/-! ## The layout -/

/-- The bytes hold the fields of a position at the places of the layout. -/
structure HoldsPosition (bytes : List UInt8) (position : Position) : Prop where
  depth_eq : bytes[4]? = some position.depth
  parentFingerprint_eq :
    ByteOrder.bigEndian.read ((bytes.drop 5).take 4) = position.parentFingerprint.toNat
  childIndex_eq : ByteOrder.bigEndian.read ((bytes.drop 9).take 4) = position.childIndex.toNat
  chainCode_eq : (bytes.drop 13).take 32 = position.chainCode.toList

/-- The bytes hold the fields of a record at the places of the layout. -/
structure Holds (bytes : List UInt8) (record : Record) : Prop where
  length_eq : bytes.length = width
  version_eq : ByteOrder.bigEndian.read (bytes.take 4) = record.version.toNat
  position : HoldsPosition bytes record.toPosition
  key_eq : bytes.drop 45 = record.key.toList

theorem toList_toBytes (record : Record) :
    record.toBytes.toList = (Bytes.ofUInt32 record.version).toList ++
      ((Bytes.singleton record.depth).toList ++
        ((Bytes.ofUInt32 record.parentFingerprint).toList ++
          ((Bytes.ofUInt32 record.childIndex).toList ++
            (record.chainCode.toList ++ record.key.toList)))) := rfl

/-- What follows a field begins where the field ends. -/
theorem drop_of_field {bytes rest : List UInt8} {start count : Nat} (field : Bytes count)
    (field_eq : bytes.drop start = field.toList ++ rest) : bytes.drop (start + count) = rest := by
  rw [← List.drop_drop, field_eq, List.drop_left' field.length_toList]

theorem holds_toBytes (record : Record) : Holds record.toBytes.toList record := by
  have all : record.toBytes.toList.drop 0 = _ := toList_toBytes record
  have afterVersion := drop_of_field (Bytes.ofUInt32 record.version) all
  have afterDepth := drop_of_field (Bytes.singleton record.depth) afterVersion
  have afterParent := drop_of_field (Bytes.ofUInt32 record.parentFingerprint) afterDepth
  have afterIndex := drop_of_field (Bytes.ofUInt32 record.childIndex) afterParent
  have afterChainCode := drop_of_field record.chainCode afterIndex
  refine ⟨record.toBytes.length_toList, ?_, ⟨?_, ?_, ?_, ?_⟩, afterChainCode⟩
  · rw [toList_toBytes, List.take_left' (Bytes.length_toList _), Bytes.read_ofUInt32]
  · rw [← List.head?_drop, afterVersion]
    rfl
  · rw [afterDepth, List.take_left' (Bytes.length_toList _), Bytes.read_ofUInt32]
  · rw [afterParent, List.take_left' (Bytes.length_toList _), Bytes.read_ofUInt32]
  · rw [afterIndex, List.take_left' (Bytes.length_toList _)]

theorem HoldsPosition.unique {bytes : List UInt8} {first second : Position}
    (holds : HoldsPosition bytes first) (also : HoldsPosition bytes second) : first = second := by
  ext1
  · exact Option.some.inj (holds.depth_eq.symm.trans also.depth_eq)
  · exact UInt32.toNat_inj.mp (holds.parentFingerprint_eq.symm.trans also.parentFingerprint_eq)
  · exact UInt32.toNat_inj.mp (holds.childIndex_eq.symm.trans also.childIndex_eq)
  · exact Bytes.ext (holds.chainCode_eq.symm.trans also.chainCode_eq)

theorem Holds.unique {bytes : List UInt8} {first second : Record} (holds : Holds bytes first)
    (also : Holds bytes second) : first = second := by
  have same_position := holds.position.unique also.position
  have same_version := UInt32.toNat_inj.mp (holds.version_eq.symm.trans also.version_eq)
  have same_key := Bytes.ext (holds.key_eq.symm.trans also.key_eq)
  cases first
  cases second
  simp_all

/-- A record is held by its bytes and by no others. -/
theorem holds_iff {bytes : List UInt8} {record : Record} :
    Holds bytes record ↔ bytes = record.toBytes.toList := by
  constructor
  · intro holds
    have exact_eq := toBytes_ofBytes ⟨bytes, holds.length_eq⟩
    have also := holds_toBytes (ofBytes ⟨bytes, holds.length_eq⟩)
    rw [exact_eq] at also
    rw [holds.unique also, exact_eq]
  · rintro rfl
    exact holds_toBytes record

/-! ## Bytes -/

theorem ofList_eq_ok_iff {bytes : List UInt8} {record : Record} :
    ofList bytes = .ok record ↔ bytes = record.toBytes.toList := by
  rw [ofList]
  constructor
  · intro read
    split at read
    · next exact exact_eq =>
        cases read
        rw [toBytes_ofBytes, Bytes.ofList?_eq_some_iff.mp exact_eq]
    · cases read
  · rintro rfl
    rw [Bytes.ofList?_toList]
    exact congrArg Except.ok (ofBytes_toBytes record)

theorem ofList_of_length_ne {bytes : List UInt8} (length_ne : bytes.length ≠ width) :
    ofList bytes = .error (.recordLength bytes.length) := by
  rw [ofList, Bytes.ofList?_eq_none_iff.mpr length_ne]

theorem exists_record_of_length_eq {bytes : List UInt8} (length_eq : bytes.length = width) :
    ∃ record : Record, bytes = record.toBytes.toList :=
  ⟨ofBytes ⟨bytes, length_eq⟩, by rw [toBytes_ofBytes]⟩

/-! ## Texts -/

theorem payload_eq_ok_iff {text : String} {bytes : List UInt8} :
    payload text = .ok bytes ↔ text = Base58.encodeCheck bytes := by
  rw [← Base58.decodeCheck_eq_ok_iff, payload]
  cases Base58.decodeCheck text <;> simp [Except.mapError]

/-- A text is read as a record exactly if it is the text of that record. -/
theorem ofText_eq_ok_iff {text : String} {record : Record} :
    ofText text = .ok record ↔ text = record.text := by
  constructor
  · intro read
    obtain ⟨bytes, payload_eq, listed⟩ := ok_of_bind read
    rw [payload_eq_ok_iff.mp payload_eq, ofList_eq_ok_iff.mp listed, Record.text]
  · rintro rfl
    rw [ofText, text, payload_eq_ok_iff.mpr rfl]
    exact ofList_eq_ok_iff.mpr rfl

theorem ofText_of_undecoded {text : String} {defect : Base58.Defect}
    (undecoded : Base58.decodeCheck text = .error defect) :
    ofText text = .error (.encoding defect) := by
  rw [ofText, payload, undecoded]
  rfl

theorem ofText_of_length_ne {bytes : List UInt8} (length_ne : bytes.length ≠ width) :
    ofText (Base58.encodeCheck bytes) = .error (.recordLength bytes.length) := by
  rw [ofText, payload_eq_ok_iff.mpr rfl]
  exact ofList_of_length_ne length_ne

theorem text_inj {first second : Record} : first.text = second.text ↔ first = second := by
  rw [← ofText_eq_ok_iff, ofText_eq_ok_iff.mpr rfl, Except.ok.injEq]

/-- The version is read of every payload that has four bytes for it. -/
theorem peekVersion_eq_ok_iff {text : String} {version : UInt32} :
    peekVersion text = .ok version ↔ ∃ bytes, text = Base58.encodeCheck bytes ∧
      4 ≤ bytes.length ∧ ByteOrder.bigEndian.read (bytes.take 4) = version.toNat := by
  constructor
  · intro read
    obtain ⟨bytes, payload_eq, read⟩ := ok_of_bind read
    split at read
    · next first first_eq =>
        cases read
        have bytes_eq := Bytes.ofList?_eq_some_iff.mp first_eq
        have length_eq := congrArg List.length bytes_eq
        rw [List.length_take, first.length_toList] at length_eq
        refine ⟨bytes, payload_eq_ok_iff.mp payload_eq, by omega, ?_⟩
        rw [Bytes.toNat_toUInt32, bytes_eq]
    · cases read
  · rintro ⟨bytes, rfl, long, value_eq⟩
    have length_eq : (bytes.take 4).length = 4 := by
      rw [List.length_take]
      omega
    have first_eq : Bytes.ofList? 4 (bytes.take 4) = some ⟨bytes.take 4, length_eq⟩ :=
      Bytes.ofList?_eq_some_iff.mpr rfl
    have version_eq : (⟨bytes.take 4, length_eq⟩ : Bytes 4).toUInt32 = version := by
      apply UInt32.toNat_inj.mp
      rw [Bytes.toNat_toUInt32, value_eq]
    rw [peekVersion, payload_eq_ok_iff.mpr rfl]
    simp only [bind, Except.bind, first_eq, version_eq]
    rfl

theorem peekVersion_text (record : Record) : peekVersion record.text = .ok record.version := by
  have holds := holds_toBytes record
  refine peekVersion_eq_ok_iff.mpr ⟨record.toBytes.toList, rfl, ?_, holds.version_eq⟩
  rw [holds.length_eq]
  decide

/--
Reading undoes writing and accepts nothing else, for texts as for bytes, and it takes the fields from
the places of the layout.  The version that is looked up without reading the rest is the one that
reading gives.
-/
theorem codec_exact (text : String) (bytes : List UInt8) (record : Record) (version : UInt32) :
    (ofText text = .ok record ↔ text = record.text) ∧
      (ofList bytes = .ok record ↔ bytes = record.toBytes.toList) ∧
      (ofList bytes = .ok record ↔ Holds bytes record) ∧
      (bytes.length ≠ 78 → ofList bytes = .error (.recordLength bytes.length)) ∧
      (ofText text = .ok record → peekVersion text = .ok record.version) ∧
      (peekVersion text = .ok version ↔ ∃ payload, text = Base58.encodeCheck payload ∧
        4 ≤ payload.length ∧
          ByteOrder.bigEndian.read (payload.take 4) = version.toNat) := by
  refine ⟨ofText_eq_ok_iff, ofList_eq_ok_iff, ofList_eq_ok_iff.trans holds_iff.symm,
    ofList_of_length_ne, ?_, peekVersion_eq_ok_iff⟩
  intro read
  rw [ofText_eq_ok_iff.mp read]
  exact peekVersion_text record

/-! ## Texts that hold no payload -/

open Base58

theorem payload_eq_error_iff {text : String} {error : Error} :
    payload text = .error error ↔ ∃ defect, error = .encoding defect ∧ FirstDefect text defect := by
  simp only [← decodeCheck_eq_error_iff, payload]
  cases decodeCheck text with
  | ok bytes => simp [Except.mapError]
  | error defect => simp [Except.mapError, eq_comm]

/-- Four bytes in the place of the checksum are refused if they are others. -/
theorem payload_of_stored_eq_error_iff {bytes stored : List UInt8} :
    payload (String.ofList (encodeBytes (bytes ++ stored))) =
        .error (.encoding (.checksumMismatch (checksum bytes) stored)) ↔
      stored.length = 4 ∧ stored ≠ checksum bytes := by
  have spells : Spells (String.ofList (encodeBytes (bytes ++ stored))).toList (bytes ++ stored) := by
    rw [String.toList_ofList]
    exact spells_encodeBytes (bytes ++ stored)
  rw [payload_eq_error_iff]
  constructor
  · rintro ⟨defect, same, first⟩
    obtain rfl := Error.encoding.inj same
    generalize checksum bytes = computed at *
    cases first with
    | checksumMismatch payload _ _ four differs => exact ⟨four, differs⟩
  · rintro ⟨four, differs⟩
    exact ⟨_, rfl, .checksumMismatch bytes stored spells four differs⟩

/--
A text holds a payload exactly if it is the text of that payload, which is the one that spells the
payload with its checksum behind it.  Every other text is refused with its first defect, and so is
every text in which other bytes stand in the place of the checksum.
-/
theorem payloads_correspond (text : String) :
    (∀ bytes, payload text = .ok bytes ↔ text = encodeCheck bytes) ∧
      (∀ bytes, text = encodeCheck bytes ↔ Spells text.toList (bytes ++ checksum bytes)) ∧
      (∀ error, payload text = .error error ↔
        ∃ defect, error = .encoding defect ∧ FirstDefect text defect) ∧
      ∀ bytes stored, payload (String.ofList (encodeBytes (bytes ++ stored))) =
          .error (.encoding (.checksumMismatch (checksum bytes) stored)) ↔
        stored.length = 4 ∧ stored ≠ checksum bytes := by
  refine ⟨fun bytes => payload_eq_ok_iff, ?_, fun error => payload_eq_error_iff,
    fun bytes stored => payload_of_stored_eq_error_iff⟩
  intro bytes
  rw [spells_iff, encodeCheck, ← String.toList_inj, String.toList_ofList]

end Record

end KeyTree
