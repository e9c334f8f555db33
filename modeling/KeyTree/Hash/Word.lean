import KeyTree.Bytes.Integer

/-!
# Machine words of hash functions

SHA-2 works on words of 32 or 64 bits and RIPEMD-160 on words of 32 bits.  Both first cut the padded
message into blocks of sixteen words.
-/

namespace KeyTree.Hash

/-- Words of a fixed width, with addition modulo the word size and bitwise operations. -/
class Word (word : Type) extends Add word, XorOp word, AndOp word, OrOp word, Complement word where
  /-- The number of bytes in a word. -/
  width : Nat
  /-- The word with this value, taken modulo the word size. -/
  ofNat : Nat → word
  /-- The value of a word. -/
  toNat : word → Nat
  /-- Rotation towards the low end. -/
  rotateRight : word → Nat → word
  /-- Shift towards the low end, filling with zeros. -/
  shiftRight : word → Nat → word

instance : Word UInt32 where
  width := 4
  ofNat := UInt32.ofNat
  toNat := UInt32.toNat
  rotateRight word amount :=
    (word >>> UInt32.ofNat amount) ||| (word <<< UInt32.ofNat (32 - amount))
  shiftRight word amount := word >>> UInt32.ofNat amount

instance : Word UInt64 where
  width := 8
  ofNat := UInt64.ofNat
  toNat := UInt64.toNat
  rotateRight word amount :=
    (word >>> UInt64.ofNat amount) ||| (word <<< UInt64.ofNat (64 - amount))
  shiftRight word amount := word >>> UInt64.ofNat amount

/-- The first `count` pieces of `size` bytes each. -/
def pieces (size : Nat) : Nat → List UInt8 → List (List UInt8)
  | 0, _ => []
  | count + 1, bytes => bytes.take size :: pieces size count (bytes.drop size)

/--
The message followed by a single one bit, as many zeros as fill the last block, and its length in
bits.  A block is sixteen words, and the length takes the last two words of the last block.
-/
def pad (word : Type) [Word word] (order : ByteOrder) (message : List UInt8) : List UInt8 :=
  let blockSize := 16 * Word.width word
  let lengthSize := 2 * Word.width word
  let used := (message.length + 1 + lengthSize) % blockSize
  let zeros := (blockSize - used) % blockSize
  message ++ 0x80 :: List.replicate zeros 0 ++ (order.write lengthSize (8 * message.length)).toList

/-- The blocks of a padded message, as sixteen words each. -/
def blocks (word : Type) [Word word] (order : ByteOrder) (message : List UInt8) :
    List (Vector word 16) :=
  let blockSize := 16 * Word.width word
  let padded := pad word order message
  (pieces blockSize (padded.length / blockSize) padded).map fun block =>
    Vector.ofFn fun position : Fin 16 =>
      let start := block.drop (position * Word.width word)
      Word.ofNat (order.read (start.take (Word.width word)))

end KeyTree.Hash
