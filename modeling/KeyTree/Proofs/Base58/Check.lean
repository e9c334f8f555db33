import KeyTree.Base58.Check
import KeyTree.Proofs.Text.Radix

/-!
# Base58Check texts and payloads correspond

A text is read as a payload exactly if it is the text of that payload.  Symbols and digits
correspond, the change of radix can be undone in both directions, and the checksum that is cut off is
the one that was put there.
-/

namespace KeyTree.Base58

/-! ## Symbols and digits -/

theorem digit?_symbol : ∀ digit < 58, digit? (symbol digit) = some digit := by
  decide

theorem symbol_of_digit? {character : Char} {digit : Nat} (found : digit? character = some digit) :
    digit < 58 ∧ symbol digit = character := by
  obtain ⟨small, symbol_eq, -⟩ := List.idxOf?_eq_some_iff.mp found
  refine ⟨small, ?_⟩
  rw [symbol, List.getD_eq_getElem?_getD, List.getElem?_eq_getElem small, symbol_eq]
  rfl

theorem digitsFrom_map_symbol {digits : List Nat} (small : ∀ digit ∈ digits, digit < 58)
    (position : Nat) : digitsFrom position (digits.map symbol) = .ok digits := by
  induction digits generalizing position with
  | nil => rfl
  | cons digit rest ih =>
      have rest_read := ih (fun later member => small later (List.mem_cons_of_mem _ member))
        (position + 1)
      have digit_read := digit?_symbol digit (small digit List.mem_cons_self)
      simp only [List.map_cons, digitsFrom, digit_read, rest_read]
      rfl

theorem eq_map_symbol_of_digitsFrom {characters : List Char} {digits : List Nat} {position : Nat}
    (read : digitsFrom position characters = .ok digits) :
    characters = digits.map symbol ∧ ∀ digit ∈ digits, digit < 58 := by
  induction characters generalizing digits position with
  | nil =>
      cases read
      simp
  | cons character rest ih =>
      rw [digitsFrom] at read
      split at read
      · next digit found =>
          obtain ⟨small, symbol_eq⟩ := symbol_of_digit? found
          rcases rest_read : digitsFrom (position + 1) rest with defect | later
          · rw [rest_read] at read
            cases read
          · rw [rest_read] at read
            cases read
            obtain ⟨rest_eq, rest_small⟩ := ih rest_read
            exact ⟨by rw [List.map_cons, symbol_eq, rest_eq], by simpa [small] using rest_small⟩
      · split at read <;> cases read

/-! ## Bytes -/

theorem map_ofNat_map_toNat (bytes : List UInt8) :
    (bytes.map UInt8.toNat).map UInt8.ofNat = bytes := by
  rw [List.map_map]
  exact List.map_id'' (fun _ => UInt8.ofNat_toNat) bytes

theorem map_toNat_map_ofNat {digits : List Nat} (small : ∀ digit ∈ digits, digit < 256) :
    (digits.map UInt8.ofNat).map UInt8.toNat = digits :=
  Radix.map_map_cancel fun digit member => UInt8.toNat_ofNat_of_lt (small digit member)

theorem toNat_lt_of_mem {bytes : List UInt8} {digit : Nat}
    (member : digit ∈ bytes.map UInt8.toNat) : digit < 256 := by
  obtain ⟨byte, -, rfl⟩ := List.mem_map.mp member
  exact byte.toNat_lt

/-- Characters are read as bytes exactly if they are the ones that write them. -/
theorem decodeBytes_eq_ok_iff {characters : List Char} {bytes : List UInt8} :
    decodeBytes characters = .ok bytes ↔ characters = encodeBytes bytes := by
  rw [decodeBytes, encodeBytes]
  constructor
  · intro read
    rcases digits_eq : digitsFrom 0 characters with defect | digits
    · rw [digits_eq] at read
      cases read
    · rw [digits_eq] at read
      cases read
      obtain ⟨characters_eq, small⟩ := eq_map_symbol_of_digitsFrom digits_eq
      have bytes_small : ∀ digit ∈ Radix.convert 58 256 digits, digit < 256 :=
        fun _ member => Radix.lt_of_mem_convert (by decide) member
      rw [map_toNat_map_ofNat bytes_small, Radix.convert_convert (by decide) (by decide) small]
      exact characters_eq
  · rintro rfl
    have digits_small : ∀ digit ∈ Radix.convert 256 58 (bytes.map UInt8.toNat), digit < 58 :=
      fun _ member => Radix.lt_of_mem_convert (by decide) member
    have restored : Radix.convert 58 256 (Radix.convert 256 58 (bytes.map UInt8.toNat)) =
        bytes.map UInt8.toNat :=
      Radix.convert_convert (by decide) (by decide) fun _ member => toNat_lt_of_mem member
    rw [digitsFrom_map_symbol digits_small, Except.map, restored, map_ofNat_map_toNat]

theorem symbol_mem_alphabet : ∀ digit < 58, symbol digit ∈ alphabet := by
  decide

theorem mem_alphabet_of_mem_encodeBytes {bytes : List UInt8} {character : Char}
    (member : character ∈ encodeBytes bytes) : character ∈ alphabet := by
  obtain ⟨digit, digit_mem, rfl⟩ := List.mem_map.mp member
  exact symbol_mem_alphabet digit (Radix.lt_of_mem_convert (by decide) digit_mem)

/-- A text consists of symbols only. -/
theorem mem_alphabet_of_mem_encodeCheck {payload : List UInt8} {character : Char}
    (member : character ∈ (encodeCheck payload).toList) : character ∈ alphabet := by
  rw [encodeCheck, String.toList_ofList] at member
  exact mem_alphabet_of_mem_encodeBytes member

/-! ## Checksums -/

theorem length_checksum (payload : List UInt8) : (checksum payload).length = checksumLength := by
  rw [checksum, List.length_take, Bytes.length_toList]
  decide

/-- Bytes pass exactly if they are a payload with its checksum behind it. -/
theorem verify_eq_ok_iff {bytes payload : List UInt8} :
    verify bytes = .ok payload ↔ bytes = payload ++ checksum payload := by
  constructor
  · intro passed
    rw [verify] at passed
    split at passed
    · cases passed
    · simp only at passed
      split at passed
      · next stored_eq =>
          cases passed
          rw [stored_eq, List.take_append_drop]
      · cases passed
  · rintro rfl
    have length_eq := length_checksum payload
    have payload_eq : (payload ++ checksum payload).length - checksumLength = payload.length := by
      rw [List.length_append, length_eq, Nat.add_sub_cancel]
    rw [verify, if_neg (by rw [List.length_append]; omega)]
    simp only [payload_eq, List.take_left', List.drop_left', ↓reduceIte]

/-- A text is read as a payload exactly if it is the text of that payload. -/
theorem decodeCheck_eq_ok_iff {text : String} {payload : List UInt8} :
    decodeCheck text = .ok payload ↔ text = encodeCheck payload := by
  rw [decodeCheck, encodeCheck]
  constructor
  · intro read
    rcases bytes_eq : decodeBytes text.toList with defect | bytes
    · rw [bytes_eq] at read
      cases read
    · rw [bytes_eq] at read
      obtain rfl := verify_eq_ok_iff.mp read
      rw [← decodeBytes_eq_ok_iff.mp bytes_eq, String.ofList_toList]
  · rintro rfl
    rw [String.toList_ofList, decodeBytes_eq_ok_iff.mpr rfl]
    exact verify_eq_ok_iff.mpr rfl

@[simp]
theorem decodeCheck_encodeCheck (payload : List UInt8) :
    decodeCheck (encodeCheck payload) = .ok payload :=
  decodeCheck_eq_ok_iff.mpr rfl

/-- A text that is not read as a payload is the text of none. -/
theorem ne_encodeCheck_of_undecoded {text : String} {defect : Defect}
    (undecoded : decodeCheck text = .error defect) (payload : List UInt8) :
    text ≠ encodeCheck payload := by
  rintro rfl
  rw [decodeCheck_encodeCheck] at undecoded
  cases undecoded

/-- Different payloads have different texts. -/
theorem encodeCheck_inj {first second : List UInt8} :
    encodeCheck first = encodeCheck second ↔ first = second := by
  constructor
  · intro same
    have read := decodeCheck_encodeCheck first
    rw [same, decodeCheck_encodeCheck] at read
    exact (Except.ok.inj read).symm
  · rintro rfl
    rfl

end KeyTree.Base58
