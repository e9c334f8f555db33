import KeyTree.Proofs.Text.Radix
import KeyTree.Text.Decimal

/-!
# Words in decimal

The word that a row of digits stands for is taken in digit by digit, with a check at each of them.
It is refused exactly if the number that the row stands for is too large, however long the row is.
The digits that are written for a number are the one row without superfluous zeros that stands for
it.
-/

namespace KeyTree.Decimal

/-- The word that holds a number, unless it is too large. -/
def word? (number : Nat) : Option UInt32 :=
  if number < UInt32.size then some (UInt32.ofNat number) else none

/-- The number that a row of digits stands for, the last of them counting once. -/
theorem toNat_eq_ofDigits (digits : List Char) :
    toNat digits = Nat.ofDigits 10 (digits.reverse.map digit) := by
  rw [toNat, Radix.value_eq_ofDigits, List.map_reverse]

theorem digit_lt {character : Char} (decimal : character.isDigit = true) :
    digit character < 10 := by
  simp only [Char.isDigit, Bool.and_eq_true, decide_eq_true_eq] at decimal
  have upper : character.toNat ≤ 57 := decimal.2
  rw [digit, show '0'.toNat = 48 from rfl]
  omega

theorem push?_eq (number : UInt32) {character : Char} (decimal : character.isDigit = true) :
    push? number character = word? (number.toNat * 10 + digit character) := by
  have small := digit_lt decimal
  have digit_eq : (UInt32.ofNat (digit character)).toNat = digit character := by
    rw [UInt32.toNat_ofNat']
    omega
  by_cases tenfold : number.toNat * 10 < UInt32.size
  · have product_eq : (number * 10).toNat = number.toNat * 10 := by
      rw [UInt32.toNat_mul]
      exact Nat.mod_eq_of_lt tenfold
    simp only [push?, product?, UInt32.reduceToNat, tenfold, ↓reduceIte, Option.bind_eq_bind,
      Option.bind_some, sum?, product_eq, digit_eq, word?]
    congr 2
    apply UInt32.toNat_inj.mp
    rw [UInt32.toNat_add, product_eq, digit_eq, UInt32.toNat_ofNat']
  · have large : ¬number.toNat * 10 + digit character < UInt32.size := by omega
    simp [push?, product?, tenfold, word?, large]

/-- Further digits never make a number smaller. -/
theorem le_foldl (digits : List Nat) (number : Nat) :
    number ≤ digits.foldl (fun total next => total * 10 + next) number := by
  induction digits generalizing number with
  | nil => exact Nat.le_refl number
  | cons next digits ih =>
      have step : number ≤ number * 10 + next := by omega
      exact step.trans (ih _)

/-- Checking at each digit and checking once at the end come to the same. -/
theorem foldlM_push?_eq {digits : List Char} (decimal : ∀ character ∈ digits, character.isDigit)
    (number : UInt32) :
    digits.foldlM push? number =
      word? ((digits.map digit).foldl (fun total next => total * 10 + next) number.toNat) := by
  induction digits generalizing number with
  | nil => simp [word?, number.toNat_lt]
  | cons character digits ih =>
      have here := push?_eq number (decimal character List.mem_cons_self)
      have later : ∀ other ∈ digits, other.isDigit :=
        fun other member => decimal other (List.mem_cons_of_mem character member)
      rw [List.foldlM_cons, List.map_cons, List.foldl_cons, here]
      by_cases fits : number.toNat * 10 + digit character < UInt32.size
      · have exact_eq : (UInt32.ofNat (number.toNat * 10 + digit character)).toNat =
            number.toNat * 10 + digit character := by
          rw [UInt32.toNat_ofNat']
          exact Nat.mod_eq_of_lt fits
        rw [word?, if_pos fits, Option.bind_eq_bind, Option.bind_some, ih later, exact_eq]
      · have grown := le_foldl (digits.map digit) (number.toNat * 10 + digit character)
        rw [word?, if_neg fits, word?, if_neg (by omega)]
        rfl

/-- A row of digits stands for a word exactly if the number it stands for is small enough. -/
theorem toWord?_eq {digits : List Char} (decimal : ∀ character ∈ digits, character.isDigit) :
    toWord? digits = word? (toNat digits) :=
  foldlM_push?_eq decimal 0

/-! ## The digits of a number -/

/-- No digit in front could be left out: a row starts with a zero only if that is all of it. -/
def Trimmed (digits : List Char) : Prop :=
  digits.head? = some '0' → digits = ['0']

theorem toNat_symbol {value : Nat} (small : value < 10) : (symbol value).toNat = 48 + value := by
  have valid : (48 + value).isValidChar := .inl (by omega)
  rw [symbol, show '0'.toNat = 48 from rfl, Char.ofNat, dif_pos valid]
  rfl

theorem digit_symbol {value : Nat} (small : value < 10) : digit (symbol value) = value := by
  rw [digit, toNat_symbol small, show '0'.toNat = 48 from rfl]
  omega

theorem isDigit_symbol {value : Nat} (small : value < 10) : (symbol value).isDigit = true := by
  have bounds : 48 ≤ (symbol value).toNat ∧ (symbol value).toNat ≤ 57 := by
    rw [toNat_symbol small]
    omega
  simpa [Char.isDigit, UInt32.le_iff_toNat_le] using bounds

theorem symbol_digit {character : Char} (decimal : character.isDigit = true) :
    symbol (digit character) = character := by
  have lower : 48 ≤ character.toNat := by
    simp only [Char.isDigit, Bool.and_eq_true, decide_eq_true_eq] at decimal
    exact decimal.1
  rw [symbol, digit, show '0'.toNat = 48 from rfl, Nat.add_sub_cancel' lower, Char.ofNat_toNat]

theorem map_digit_map_symbol {values : List Nat} (small : ∀ value ∈ values, value < 10) :
    (values.map symbol).map digit = values :=
  Radix.map_map_cancel fun value member => digit_symbol (small value member)

theorem map_symbol_map_digit {digits : List Char}
    (decimal : ∀ character ∈ digits, character.isDigit) :
    (digits.map digit).map symbol = digits :=
  Radix.map_map_cancel fun character member => symbol_digit (decimal character member)

theorem ofNat_of_ne_zero {number : Nat} (nonzero : number ≠ 0) :
    ofNat number = (Radix.lowFirst 10 number).reverse.map symbol :=
  if_neg nonzero

theorem lt_of_mem_reverse_lowFirst {number : Nat} :
    ∀ value ∈ (Radix.lowFirst 10 number).reverse, value < 10 :=
  fun _ member => Radix.lt_of_mem_lowFirst (by decide) (List.mem_reverse.mp member)

theorem isDigit_of_mem_ofNat {number : Nat} {character : Char} (member : character ∈ ofNat number) :
    character.isDigit = true := by
  by_cases zero : number = 0
  · rw [ofNat, if_pos zero, List.mem_singleton] at member
    rw [member]
    rfl
  · rw [ofNat_of_ne_zero zero] at member
    obtain ⟨value, value_mem, rfl⟩ := List.mem_map.mp member
    exact isDigit_symbol (lt_of_mem_reverse_lowFirst value value_mem)

/-- The digits of a number stand for it. -/
theorem toNat_ofNat (number : Nat) : toNat (ofNat number) = number := by
  by_cases zero : number = 0
  · rw [zero]
    rfl
  · rw [ofNat_of_ne_zero zero, toNat, map_digit_map_symbol lt_of_mem_reverse_lowFirst]
    exact Radix.value_reverse_lowFirst (by decide) number

theorem ofNat_ne_nil (number : Nat) : ofNat number ≠ [] := by
  intro empty
  have number_eq := toNat_ofNat number
  rw [empty] at number_eq
  obtain rfl : 0 = number := number_eq
  contradiction

theorem trimmed_ofNat (number : Nat) : Trimmed (ofNat number) := by
  intro leading
  by_cases zero : number = 0
  · exact if_pos zero
  · rw [ofNat_of_ne_zero zero, List.head?_map] at leading
    obtain ⟨value, first, symbol_eq⟩ := Option.map_eq_some_iff.mp leading
    have small := lt_of_mem_reverse_lowFirst value (List.mem_of_head? first)
    obtain rfl : value = 0 := by
      rw [← digit_symbol small, symbol_eq]
      rfl
    exact absurd first (Radix.head?_reverse_lowFirst_ne 10 number)

/-- A row of digits that stands for a number and is trimmed is the one that is written for it. -/
theorem ofNat_toNat {digits : List Char} (decimal : ∀ character ∈ digits, character.isDigit)
    (digits_ne : digits ≠ []) (trimmed : Trimmed digits) : ofNat (toNat digits) = digits := by
  by_cases leading : digits.head? = some '0'
  · rw [trimmed leading]
    rfl
  · have values_lt : ∀ value ∈ digits.map digit, value < 10 := by
      intro value member
      obtain ⟨character, character_mem, rfl⟩ := List.mem_map.mp member
      exact digit_lt (decimal character character_mem)
    have values_head : (digits.map digit).head? ≠ some 0 := by
      rw [List.head?_map]
      intro zero
      obtain ⟨character, first, digit_eq⟩ := Option.map_eq_some_iff.mp zero
      have character_eq := symbol_digit (decimal character (List.mem_of_head? first))
      rw [digit_eq] at character_eq
      rw [first, ← character_eq] at leading
      exact leading rfl
    have reversed := Radix.lowFirst_value (by decide : 2 ≤ 10) values_lt values_head
    have nonzero : toNat digits ≠ 0 := by
      intro zero
      rw [← toNat, zero, Radix.lowFirst, if_pos (.inl rfl)] at reversed
      have values_eq : digits.map digit = [] := List.reverse_eq_nil_iff.mp reversed.symm
      exact digits_ne (List.map_eq_nil_iff.mp values_eq)
    rw [ofNat_of_ne_zero nonzero, toNat, reversed, List.reverse_reverse,
      map_symbol_map_digit decimal]

end KeyTree.Decimal
