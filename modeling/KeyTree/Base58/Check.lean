import KeyTree.Hash.Sha2
import KeyTree.Text.CharLiteral
import KeyTree.Text.Decimal

/-!
# Base58Check

A payload is written with four checksum bytes behind it, in radix 58, with a symbol for each digit.
Reading refuses a text for the first reason that applies: a character that is no symbol, too few
bytes to hold a checksum, a checksum that does not belong to the payload.
-/

namespace KeyTree.Base58

/-- The symbols of the digits from 0 to 57: digits and letters without `0`, `O`, `I` and `l`. -/
def alphabet : List Char :=
  "123456789ABCDEFGHJKLMNPQRSTUVWXYZabcdefghijkmnopqrstuvwxyz".toList

/-- The symbol of a digit. -/
def symbol (digit : Nat) : Char :=
  alphabet.getD digit '1'

/-- The digit with this symbol. -/
def digit? (character : Char) : Option Nat :=
  alphabet.idxOf? character

/-- Why a text is not Base58Check. -/
inductive Defect where
  /-- The ASCII character at this position is no symbol. -/
  | invalidCharacter (character : Char) (position : Nat)
  /-- A character outside ASCII starts at this position. -/
  | nonAscii (position : Nat)
  /-- There are fewer than four bytes. -/
  | tooShort
  /-- The checksum of the payload is not the one that is stored behind it. -/
  | checksumMismatch (computed stored : List UInt8)
  deriving DecidableEq

/-- The wording of a defect. -/
def Defect.message : Defect → String
  | invalidCharacter character position =>
      s!"provided string contained invalid character {CharLiteral.quote character} " ++
        s!"at byte {position}"
  | nonAscii position =>
      s!"provided string contained non-ascii character starting at byte {position}"
  | tooShort => "provided string is too small to contain a checksum"
  | checksumMismatch computed stored =>
      s!"invalid checksum, calculated checksum: '{Decimal.list computed}', " ++
        s!"expected checksum: {Decimal.list stored}"

/-- The number of bytes in a checksum. -/
def checksumLength : Nat := 4

/-- The first four bytes of the doubled SHA-256 hash. -/
def checksum (payload : List UInt8) : List UInt8 :=
  (Hash.sha256 (Hash.sha256 payload).toList).toList.take checksumLength

/-- The symbols that write a byte string. -/
def encodeBytes (bytes : List UInt8) : List Char :=
  (Radix.convert 256 58 (bytes.map UInt8.toNat)).map symbol

/--
The digits that characters stand for, or the first character from `position` on that is no symbol.
-/
def digitsFrom (position : Nat) : List Char → Except Defect (List Nat)
  | [] => .ok []
  | character :: rest =>
      match digit? character with
      | some digit => (digitsFrom (position + 1) rest).map (digit :: ·)
      | none =>
          if character.toNat < 128 then .error (.invalidCharacter character position)
          else .error (.nonAscii position)

/-- The bytes that characters write. -/
def decodeBytes (characters : List Char) : Except Defect (List UInt8) :=
  (digitsFrom 0 characters).map fun digits => (Radix.convert 58 256 digits).map UInt8.ofNat

/-- The payload before the last four bytes, provided they are its checksum. -/
def verify (bytes : List UInt8) : Except Defect (List UInt8) :=
  if bytes.length < checksumLength then .error .tooShort
  else
    let payload := bytes.take (bytes.length - checksumLength)
    let stored := bytes.drop (bytes.length - checksumLength)
    let computed := checksum payload
    if computed = stored then .ok payload else .error (.checksumMismatch computed stored)

/-- The Base58Check text of a payload. -/
def encodeCheck (payload : List UInt8) : String :=
  String.ofList (encodeBytes (payload ++ checksum payload))

/-- The payload of a Base58Check text. -/
def decodeCheck (text : String) : Except Defect (List UInt8) :=
  decodeBytes text.toList >>= verify

end KeyTree.Base58
