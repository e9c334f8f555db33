import KeyTree.Proofs.Base58.Check
import Mathlib.Data.List.Basic

/-!
# What a row of symbols spells

`Spells` states the format without regard to how a radix is changed: the symbols and the bytes stand
for one number, and a one in front of the symbols stands for a zero byte in front.  By this rule every
byte string is spelt by one row of symbols, and every row of symbols spells one byte string.
-/

namespace KeyTree.Base58

/-- The digit that a symbol stands for, which is its place in the alphabet. -/
def digit (character : Char) : Nat :=
  alphabet.idxOf character

/--
The characters are symbols, they stand in radix 58 for the number that the bytes stand for in radix
256, and they begin with as many ones as the bytes do with zeros.
-/
structure Spells (characters : List Char) (bytes : List UInt8) : Prop where
  symbols : ∀ character ∈ characters, character ∈ alphabet
  number_eq : Nat.ofDigits 58 (characters.map digit).reverse =
    Nat.ofDigits 256 (bytes.map UInt8.toNat).reverse
  zeros_eq : (characters.takeWhile (· == '1')).length = (bytes.takeWhile (· == 0)).length

/-! ## Digits of symbols -/

theorem digit_symbol : ∀ value < 58, digit (symbol value) = value := by
  decide

theorem digit_lt {character : Char} (member : character ∈ alphabet) : digit character < 58 :=
  List.idxOf_lt_length_iff.mpr member

theorem symbol_digit {character : Char} (member : character ∈ alphabet) :
    symbol (digit character) = character := by
  have small : digit character < alphabet.length := List.idxOf_lt_length_iff.mpr member
  rw [symbol, List.getD_eq_getElem?_getD, List.getElem?_eq_getElem small]
  exact List.getElem_idxOf small

/-- The one is the symbol of zero, and no other character is. -/
theorem digit_eq_zero_iff {character : Char} : digit character = 0 ↔ character = '1' := by
  have alphabet_eq : alphabet = '1' :: alphabet.tail := rfl
  rw [digit, alphabet_eq]
  constructor
  · intro zero
    by_contra other
    rw [List.idxOf_cons_ne _ (Ne.symm other)] at zero
    contradiction
  · rintro rfl
    exact List.idxOf_cons_self

theorem isOne_eq (character : Char) : (character == '1') = (digit character == 0) := by
  rw [Bool.eq_iff_iff, beq_iff_eq, beq_iff_eq, digit_eq_zero_iff]

theorem isZero_eq (byte : UInt8) : (byte == 0) = (byte.toNat == 0) := by
  rw [Bool.eq_iff_iff, beq_iff_eq, beq_iff_eq, ← UInt8.toNat_inj]
  rfl

theorem map_symbol_map_digit {characters : List Char}
    (symbols : ∀ character ∈ characters, character ∈ alphabet) :
    (characters.map digit).map symbol = characters :=
  Radix.map_map_cancel fun character member => symbol_digit (symbols character member)

theorem map_digit_map_symbol {values : List Nat} (small : ∀ value ∈ values, value < 58) :
    (values.map symbol).map digit = values :=
  Radix.map_map_cancel fun value member => digit_symbol value (small value member)

theorem lt_of_mem_map_digit {characters : List Char}
    (symbols : ∀ character ∈ characters, character ∈ alphabet) :
    ∀ value ∈ characters.map digit, value < 58 := by
  intro value member
  obtain ⟨character, character_mem, rfl⟩ := List.mem_map.mp member
  exact digit_lt (symbols character character_mem)

/-! ## Spelling and writing -/

/-- Symbols are those that the change of radix writes exactly if their digits are its digits. -/
theorem eq_encodeBytes_iff {characters : List Char}
    (symbols : ∀ character ∈ characters, character ∈ alphabet) {bytes : List UInt8} :
    characters = encodeBytes bytes ↔
      characters.map digit = Radix.convert 256 58 (bytes.map UInt8.toNat) := by
  have small : ∀ value ∈ Radix.convert 256 58 (bytes.map UInt8.toNat), value < 58 :=
    fun _ member => Radix.lt_of_mem_convert (by decide) member
  rw [encodeBytes]
  constructor
  · rintro rfl
    exact map_digit_map_symbol small
  · intro digits_eq
    rw [← digits_eq, map_symbol_map_digit symbols]

/-- The two conditions of spelling are those that single out the digits in radix 58. -/
theorem spells_iff_digits {characters : List Char} {bytes : List UInt8} :
    Spells characters bytes ↔ (∀ character ∈ characters, character ∈ alphabet) ∧
      Radix.value 58 (characters.map digit) = Radix.value 256 (bytes.map UInt8.toNat) ∧
      Radix.leadingZeros (characters.map digit) = Radix.leadingZeros (bytes.map UInt8.toNat) := by
  rw [Radix.value_eq_ofDigits, Radix.value_eq_ofDigits,
    Radix.leadingZeros_map fun character _ => isOne_eq character,
    Radix.leadingZeros_map fun byte _ => isZero_eq byte]
  exact ⟨fun spells => ⟨spells.symbols, spells.number_eq, spells.zeros_eq⟩,
    fun ⟨symbols, number_eq, zeros_eq⟩ => ⟨symbols, number_eq, zeros_eq⟩⟩

/-- Characters spell bytes exactly if they are the ones that are written for them. -/
theorem spells_iff {characters : List Char} {bytes : List UInt8} :
    Spells characters bytes ↔ characters = encodeBytes bytes := by
  rw [spells_iff_digits]
  constructor
  · rintro ⟨symbols, digits_eq⟩
    rw [eq_encodeBytes_iff symbols]
    exact (Radix.eq_convert_iff (by decide) (lt_of_mem_map_digit symbols)).mpr digits_eq
  · intro written
    have symbols : ∀ character ∈ characters, character ∈ alphabet := by
      rw [written]
      exact fun _ member => mem_alphabet_of_mem_encodeBytes member
    rw [eq_encodeBytes_iff symbols] at written
    exact ⟨symbols,
      (Radix.eq_convert_iff (by decide) (lt_of_mem_map_digit symbols)).mp written⟩

/-- Every row of symbols spells some bytes. -/
theorem exists_spells {characters : List Char}
    (symbols : ∀ character ∈ characters, character ∈ alphabet) :
    ∃ bytes, Spells characters bytes := by
  have read := digitsFrom_map_symbol (lt_of_mem_map_digit symbols) 0
  rw [map_symbol_map_digit symbols] at read
  have decoded : decodeBytes characters =
      .ok ((Radix.convert 58 256 (characters.map digit)).map UInt8.ofNat) := by
    rw [decodeBytes, read]
    rfl
  exact ⟨_, spells_iff.mpr (decodeBytes_eq_ok_iff.mp decoded)⟩

theorem spells_encodeBytes (bytes : List UInt8) : Spells (encodeBytes bytes) bytes :=
  spells_iff.mpr rfl

theorem Spells.decodeBytes_eq {characters : List Char} {bytes : List UInt8}
    (spells : Spells characters bytes) : decodeBytes characters = .ok bytes :=
  decodeBytes_eq_ok_iff.mpr (spells_iff.mp spells)

end KeyTree.Base58
