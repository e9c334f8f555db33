import KeyTree.Proofs.Base58.Spelling

/-!
# Why a text is no Base58Check

A text that is not the text of a payload is refused, and `FirstDefect` says for which reason: the
first character that is no symbol, else too few bytes, else a checksum that does not belong to the
bytes before it.
-/

namespace KeyTree.Base58

/-- The reason for which a text is refused. -/
inductive FirstDefect (text : String) : Defect → Prop where
  /-- An ASCII character that is no symbol comes after symbols only. -/
  | invalidCharacter (front rest : String) (character : Char)
      (text_eq : text = front ++ String.singleton character ++ rest)
      (symbols : ∀ earlier ∈ front.toList, earlier ∈ alphabet) (foreign : character ∉ alphabet)
      (ascii : character.toNat < 128) :
      FirstDefect text (.invalidCharacter character front.utf8ByteSize)
  /-- A character outside ASCII comes after symbols only. -/
  | nonAscii (front rest : String) (character : Char)
      (text_eq : text = front ++ String.singleton character ++ rest)
      (symbols : ∀ earlier ∈ front.toList, earlier ∈ alphabet) (wide : 128 ≤ character.toNat) :
      FirstDefect text (.nonAscii front.utf8ByteSize)
  /-- The symbols spell fewer bytes than a checksum has. -/
  | tooShort (bytes : List UInt8) (spells : Spells text.toList bytes)
      (few : bytes.length < 4) : FirstDefect text .tooShort
  /-- The last four bytes are not the checksum of those before them. -/
  | checksumMismatch (payload stored : List UInt8)
      (spells : Spells text.toList (payload ++ stored)) (four : stored.length = 4)
      (differs : stored ≠ checksum payload) :
      FirstDefect text (.checksumMismatch (checksum payload) stored)

/-! ## Characters that are no symbols -/

/-- The defect of a character that is no symbol, at its position. -/
def foreignDefect (character : Char) (position : Nat) : Defect :=
  if character.toNat < 128 then .invalidCharacter character position else .nonAscii position

theorem digit?_of_foreign {character : Char} (foreign : character ∉ alphabet) :
    digit? character = none :=
  List.idxOf?_eq_none_iff.mpr foreign

theorem digit?_of_symbol {character : Char} (member : character ∈ alphabet) :
    digit? character = some (digit character) := by
  have read := digit?_symbol (digit character) (digit_lt member)
  rwa [symbol_digit member] at read

/-- Reading stops at the first character that is no symbol. -/
theorem digitsFrom_of_foreign {front : List Char} (symbols : ∀ earlier ∈ front, earlier ∈ alphabet)
    {character : Char} (foreign : character ∉ alphabet) (rest : List Char) (position : Nat) :
    digitsFrom position (front ++ character :: rest) =
      .error (foreignDefect character (position + front.length)) := by
  induction front generalizing position with
  | nil =>
      rw [List.nil_append, digitsFrom, digit?_of_foreign foreign, foreignDefect,
        apply_ite Except.error]
      rfl
  | cons first front ih =>
      have first_eq := digit?_of_symbol (symbols first List.mem_cons_self)
      have later := ih (fun earlier member => symbols earlier (List.mem_cons_of_mem first member))
        (position + 1)
      rw [List.cons_append, digitsFrom, first_eq, later, List.length_cons,
        Nat.add_comm front.length 1, Nat.add_assoc]
      rfl

theorem toNat_symbol_lt : ∀ value < 58, (symbol value).toNat < 128 := by
  decide

theorem toNat_lt_of_symbol {character : Char} (member : character ∈ alphabet) :
    character.toNat < 128 := by
  rw [← symbol_digit member]
  exact toNat_symbol_lt (digit character) (digit_lt member)

theorem utf8Size_of_symbol {character : Char} (member : character ∈ alphabet) :
    character.utf8Size = 1 :=
  Char.utf8Size_eq_one_iff.mpr (Nat.le_of_lt_succ (toNat_lt_of_symbol member))

/-- Symbols are one byte each, so that positions count bytes as well as characters. -/
theorem utf8ByteSize_of_symbols {front : String}
    (symbols : ∀ earlier ∈ front.toList, earlier ∈ alphabet) :
    front.utf8ByteSize = front.toList.length := by
  suffices counted : ∀ characters : List Char, (∀ earlier ∈ characters, earlier ∈ alphabet) →
      (String.ofList characters).utf8ByteSize = characters.length by
    have front_eq := counted front.toList symbols
    rwa [String.ofList_toList] at front_eq
  intro characters
  induction characters with
  | nil => exact fun _ => rfl
  | cons first rest ih =>
      intro all
      obtain ⟨first_mem, rest_mem⟩ := List.forall_mem_cons.mp all
      rw [String.ofList_cons, String.utf8ByteSize_append, String.utf8ByteSize_singleton,
        utf8Size_of_symbol first_mem, ih rest_mem, List.length_cons, Nat.add_comm]

theorem decodeCheck_of_foreign {text front rest : String} {character : Char}
    (text_eq : text = front ++ String.singleton character ++ rest)
    (symbols : ∀ earlier ∈ front.toList, earlier ∈ alphabet) (foreign : character ∉ alphabet) :
    decodeCheck text = .error (foreignDefect character front.utf8ByteSize) := by
  have characters_eq : text.toList = front.toList ++ character :: rest.toList := by
    simp [text_eq]
  have stopped := digitsFrom_of_foreign symbols foreign rest.toList 0
  rw [Nat.zero_add, ← utf8ByteSize_of_symbols symbols, ← characters_eq] at stopped
  rw [decodeCheck, decodeBytes, stopped]
  rfl

/-! ## Bytes that are no payload with its checksum -/

theorem decodeCheck_of_spells {text : String} {bytes : List UInt8}
    (spells : Spells text.toList bytes) : decodeCheck text = verify bytes := by
  rw [decodeCheck, spells.decodeBytes_eq]
  rfl

theorem verify_of_short {bytes : List UInt8} (few : bytes.length < checksumLength) :
    verify bytes = .error .tooShort :=
  if_pos few

theorem verify_append {payload stored : List UInt8} (four : stored.length = checksumLength) :
    verify (payload ++ stored) =
      if checksum payload = stored then .ok payload
      else .error (.checksumMismatch (checksum payload) stored) := by
  have payload_length : (payload ++ stored).length - checksumLength = payload.length := by
    rw [List.length_append, four, Nat.add_sub_cancel]
  rw [verify, if_neg (by rw [List.length_append]; omega)]
  simp only [payload_length, List.take_left', List.drop_left']

/-! ## The reason is always one of these -/

theorem decodeCheck_of_firstDefect {text : String} {defect : Defect}
    (first : FirstDefect text defect) : decodeCheck text = .error defect := by
  cases first with
  | invalidCharacter front rest character text_eq symbols foreign ascii =>
      rw [decodeCheck_of_foreign text_eq symbols foreign, foreignDefect, if_pos ascii]
  | nonAscii front rest character text_eq symbols wide =>
      have foreign : character ∉ alphabet := fun member =>
        absurd (toNat_lt_of_symbol member) (Nat.not_lt.mpr wide)
      rw [decodeCheck_of_foreign text_eq symbols foreign, foreignDefect,
        if_neg (Nat.not_lt.mpr wide)]
  | tooShort bytes spells few => rw [decodeCheck_of_spells spells, verify_of_short few]
  | checksumMismatch payload stored spells four differs =>
      rw [decodeCheck_of_spells spells, verify_append four, if_neg (Ne.symm differs)]

theorem exists_firstDefect_of_foreign {text front rest : String} {character : Char}
    (text_eq : text = front ++ String.singleton character ++ rest)
    (symbols : ∀ earlier ∈ front.toList, earlier ∈ alphabet) (foreign : character ∉ alphabet) :
    ∃ defect, FirstDefect text defect := by
  by_cases ascii : character.toNat < 128
  · exact ⟨_, .invalidCharacter front rest character text_eq symbols foreign ascii⟩
  · exact ⟨_, .nonAscii front rest character text_eq symbols (Nat.not_lt.mp ascii)⟩

theorem written_or_firstDefect_of_spells {text : String} {bytes : List UInt8}
    (spells : Spells text.toList bytes) :
    (∃ payload, text = encodeCheck payload) ∨ ∃ defect, FirstDefect text defect := by
  by_cases few : bytes.length < checksumLength
  · exact .inr ⟨_, .tooShort bytes spells few⟩
  · have bytes_eq := List.take_append_drop (bytes.length - checksumLength) bytes
    have four : (bytes.drop (bytes.length - checksumLength)).length = checksumLength := by
      rw [List.length_drop]
      omega
    generalize bytes.take (bytes.length - checksumLength) = payload at bytes_eq
    generalize bytes.drop (bytes.length - checksumLength) = stored at bytes_eq four
    subst bytes_eq
    by_cases same : stored = checksum payload
    · rw [same] at spells
      refine .inl ⟨payload, ?_⟩
      rw [encodeCheck, ← spells_iff.mp spells, String.ofList_toList]
    · exact .inr ⟨_, .checksumMismatch payload stored spells four same⟩

/-- Every text is the text of a payload or has a first defect. -/
theorem written_or_firstDefect (text : String) :
    (∃ payload, text = encodeCheck payload) ∨ ∃ defect, FirstDefect text defect := by
  rcases found : text.toList.find? (· ∉ alphabet) with - | character
  · have symbols : ∀ character ∈ text.toList, character ∈ alphabet := by
      simpa using List.find?_eq_none.mp found
    obtain ⟨bytes, spells⟩ := exists_spells symbols
    exact written_or_firstDefect_of_spells spells
  · obtain ⟨foreign, front, rest, characters_eq, earlier⟩ :=
      List.find?_eq_some_iff_append.mp found
    have text_eq : text = String.ofList front ++ String.singleton character ++ String.ofList rest :=
      String.toList_inj.mp (by simp [characters_eq])
    exact .inr (exists_firstDefect_of_foreign text_eq (by simpa using earlier)
      (by simpa using foreign))

/-- Reading fails exactly with the first defect of the text. -/
theorem decodeCheck_eq_error_iff {text : String} {defect : Defect} :
    decodeCheck text = .error defect ↔ FirstDefect text defect := by
  refine ⟨fun failed => ?_, decodeCheck_of_firstDefect⟩
  rcases written_or_firstDefect text with ⟨payload, rfl⟩ | ⟨found, first⟩
  · rw [decodeCheck_encodeCheck] at failed
    cases failed
  · have same := decodeCheck_of_firstDefect first
    rw [failed, Except.error.injEq] at same
    rwa [same]

/-- The position counts the bytes in front, and the first of two wrong characters decides. -/
example : decodeCheck "z1é0" = .error (.nonAscii 2) := by decide

end KeyTree.Base58
