import KeyTree.Bytes.Basic

/-!
# Integers as byte strings

A byte string of some width holds the integers below its capacity, each in exactly one way, in
either byte order.
-/

namespace KeyTree

/-- The order in which the bytes of an integer are written. -/
inductive ByteOrder where
  | bigEndian
  | littleEndian
  deriving DecidableEq

namespace ByteOrder

/-- The number of integers that a byte string of this width holds: 256 to the power of the width. -/
def capacity : Nat → Nat
  | 0 => 1
  | width + 1 => 256 * capacity width

/-- The integer with these base 256 digits, the least significant first. -/
def ofDigits : List UInt8 → Nat
  | [] => 0
  | digit :: rest => digit.toNat + 256 * ofDigits rest

/-- The last `width` base 256 digits of an integer, the least significant first. -/
def digits : Nat → Nat → List UInt8
  | 0, _ => []
  | width + 1, value => UInt8.ofNat (value % 256) :: digits width (value / 256)

theorem length_digits (width value : Nat) : (digits width value).length = width := by
  induction width generalizing value with
  | zero => rfl
  | succ width ih => simp [digits, ih]

theorem ofDigits_lt (bytes : List UInt8) : ofDigits bytes < capacity bytes.length := by
  induction bytes with
  | nil => simp [ofDigits, capacity]
  | cons digit rest ih =>
      have digit_lt := digit.toNat_lt
      simp only [ofDigits, List.length_cons, capacity]
      omega

theorem ofDigits_digits {width value : Nat} (fits : value < capacity width) :
    ofDigits (digits width value) = value := by
  induction width generalizing value with
  | zero =>
      simp only [capacity] at fits
      simp only [digits, ofDigits]
      omega
  | succ width ih =>
      have quotient_fits : value / 256 < capacity width := by
        simp only [capacity] at fits
        omega
      simp only [digits, ofDigits, ih quotient_fits, UInt8.toNat_ofNat']
      omega

theorem digits_ofDigits (bytes : List UInt8) : digits bytes.length (ofDigits bytes) = bytes := by
  induction bytes with
  | nil => rfl
  | cons digit rest ih =>
      have digit_lt := digit.toNat_lt
      have low : (digit.toNat + 256 * ofDigits rest) % 256 = digit.toNat := by omega
      have high : (digit.toNat + 256 * ofDigits rest) / 256 = ofDigits rest := by omega
      simp [digits, ofDigits, low, high, ih]

/-- The integer that a byte string holds. -/
def read (order : ByteOrder) (bytes : List UInt8) : Nat :=
  match order with
  | bigEndian => ofDigits bytes.reverse
  | littleEndian => ofDigits bytes

/-- The byte string of `width` bytes that holds `value`, taken modulo the capacity. -/
def write (order : ByteOrder) (width value : Nat) : Bytes width :=
  match order with
  | bigEndian => ⟨(digits width value).reverse, by simp [length_digits]⟩
  | littleEndian => ⟨digits width value, length_digits width value⟩

theorem read_lt (order : ByteOrder) {width : Nat} (bytes : Bytes width) :
    order.read bytes.toList < capacity width := by
  cases order with
  | bigEndian => simpa [read, bytes.length_toList] using ofDigits_lt bytes.toList.reverse
  | littleEndian => simpa [read, bytes.length_toList] using ofDigits_lt bytes.toList

@[simp]
theorem read_write (order : ByteOrder) {width value : Nat} (fits : value < capacity width) :
    order.read (order.write width value).toList = value := by
  cases order <;> simp [read, write, ofDigits_digits fits]

@[simp]
theorem write_read (order : ByteOrder) {width : Nat} (bytes : Bytes width) :
    order.write width (order.read bytes.toList) = bytes := by
  obtain ⟨list, rfl⟩ := bytes
  cases order with
  | bigEndian =>
      ext1
      have restored := digits_ofDigits list.reverse
      rw [List.length_reverse] at restored
      simp [write, read, restored]
  | littleEndian =>
      ext1
      simp [write, read, digits_ofDigits]

end ByteOrder

/-- The four big-endian bytes of an index, a version or a fingerprint. -/
def Bytes.ofUInt32 (value : UInt32) : Bytes 4 :=
  ByteOrder.bigEndian.write 4 value.toNat

/-- The number that four big-endian bytes hold. -/
def Bytes.toUInt32 (bytes : Bytes 4) : UInt32 :=
  UInt32.ofNat (ByteOrder.bigEndian.read bytes.toList)

@[simp]
theorem Bytes.toUInt32_ofUInt32 (value : UInt32) : (ofUInt32 value).toUInt32 = value := by
  have fits : value.toNat < ByteOrder.capacity 4 := value.toNat_lt
  simp [ofUInt32, toUInt32, ByteOrder.read_write _ fits]

@[simp]
theorem Bytes.ofUInt32_toUInt32 (bytes : Bytes 4) : ofUInt32 bytes.toUInt32 = bytes := by
  have fits : ByteOrder.bigEndian.read bytes.toList < UInt32.size := ByteOrder.read_lt _ bytes
  simp only [ofUInt32, toUInt32, UInt32.toNat_ofNat', Nat.mod_eq_of_lt fits, ByteOrder.write_read]

end KeyTree
