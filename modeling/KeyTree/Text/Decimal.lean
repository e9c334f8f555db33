import KeyTree.Text.Radix

/-!
# Decimal text

Indices are written in decimal without superfluous zeros, and are read with any number of them.
Messages and diagnostics show bytes as decimal numbers in square brackets.
-/

namespace KeyTree.Decimal

/-- The digit with this value below ten. -/
def symbol (value : Nat) : Char :=
  Char.ofNat ('0'.toNat + value)

/-- The value of a decimal digit. -/
def digit (character : Char) : Nat :=
  character.toNat - '0'.toNat

/-- The digits of a number, with no leading zero unless the number is zero. -/
def ofNat (number : Nat) : List Char :=
  if number = 0 then ['0'] else ((Radix.lowFirst 10 number).reverse).map symbol

/-- The value of a row of digits, leading zeros allowed. -/
def toNat (digits : List Char) : Nat :=
  Radix.value 10 (digits.map digit)

/-- The product of two words, unless it is too large for a word. -/
def product? (first second : UInt32) : Option UInt32 :=
  if first.toNat * second.toNat < UInt32.size then some (first * second) else none

/-- The sum of two words, unless it is too large for a word. -/
def sum? (first second : UInt32) : Option UInt32 :=
  if first.toNat + second.toNat < UInt32.size then some (first + second) else none

/-- A word with one more digit behind it, unless that is too large for a word. -/
def push? (number : UInt32) (character : Char) : Option UInt32 := do
  let tenfold ← product? number 10
  sum? tenfold (UInt32.ofNat (digit character))

/-- The word with these digits, leading zeros allowed, unless they stand for too large a number. -/
def toWord? (digits : List Char) : Option UInt32 :=
  digits.foldlM push? 0

/-- The bytes as decimal numbers, separated by commas, in square brackets. -/
def list (bytes : List UInt8) : String :=
  "[" ++ ", ".intercalate (bytes.map fun byte => String.ofList (ofNat byte.toNat)) ++ "]"

example : ofNat 2147483647 = "2147483647".toList := by cbv
example : toNat "007".toList = 7 := by decide
example : toWord? "4294967296".toList = none := by decide

end KeyTree.Decimal
