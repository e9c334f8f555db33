import KeyTree.Bytes.Integer
import KeyTree.Text.CharLiteral

/-!
# Hexadecimal text

Bytes are written as two lower-case digits each.  Reading takes either case, and looks at the UTF-8
bytes of the text: the length is judged before any digit.
-/

namespace KeyTree.Hexadecimal

/-- The lower-case digit for a value below sixteen. -/
def digit (value : Nat) : Char :=
  Char.ofNat (if value < 10 then '0'.toNat + value else 'a'.toNat + (value - 10))

/-- The text of a byte string, two digits for each byte. -/
def encode (bytes : List UInt8) : String :=
  String.ofList (bytes.flatMap fun byte => [digit (byte.toNat / 16), digit (byte.toNat % 16)])

/-- Why a text is not hexadecimal. -/
inductive Defect where
  /-- The number of bytes in the text is odd. -/
  | oddLength
  /-- The byte at this position is the code of no digit. -/
  | notDigit (code : UInt8) (position : Nat)
  deriving DecidableEq

/-- The wording of a defect; a byte is shown as the character with its code. -/
def Defect.message : Defect → String
  | oddLength => "Odd number of digits"
  | notDigit code position =>
      s!"Invalid character {CharLiteral.quote (Char.ofNat code.toNat)} at position {position}"

/-- The value of the digit with this character code. -/
def value? (code : UInt8) : Option Nat :=
  let character := Char.ofNat code.toNat
  if '0' ≤ character ∧ character ≤ '9' then some (character.toNat - '0'.toNat)
  else if 'a' ≤ character ∧ character ≤ 'f' then some (character.toNat - 'a'.toNat + 10)
  else if 'A' ≤ character ∧ character ≤ 'F' then some (character.toNat - 'A'.toNat + 10)
  else none

/-- The value of the digit at a position of the text. -/
def valueAt (position : Nat) (code : UInt8) : Except Defect Nat :=
  match value? code with
  | some value => .ok value
  | none => .error (.notDigit code position)

/-- The bytes written by the character codes from a position on, two for each byte. -/
def decodePairs (position : Nat) : List UInt8 → Except Defect (List UInt8)
  | high :: low :: rest => do
      let upper ← valueAt position high
      let lower ← valueAt (position + 1) low
      let bytes ← decodePairs (position + 2) rest
      return UInt8.ofNat (16 * upper + lower) :: bytes
  | [_] => .error .oddLength
  | [] => .ok []

/-- The bytes that a text writes. -/
def decode (text : String) : Except Defect (List UInt8) :=
  let codes := text.toUTF8.toList
  if codes.length % 2 = 0 then decodePairs 0 codes else .error .oddLength

/-- Eight digits for a fingerprint. -/
def ofUInt32 (value : UInt32) : String :=
  encode (Bytes.ofUInt32 value).toList

/-- Eight digits for an index or a version, after the mark `0x`. -/
def markedUInt32 (value : UInt32) : String :=
  "0x" ++ ofUInt32 value

/-- Two digits for a byte, after the mark `0x`. -/
def markedByte (byte : UInt8) : String :=
  "0x" ++ encode [byte]

end KeyTree.Hexadecimal
