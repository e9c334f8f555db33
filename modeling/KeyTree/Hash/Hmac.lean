import KeyTree.Hash.Sha2

/-!
# HMAC-SHA512

The keyed hash that every key of a tree is derived with.
-/

namespace KeyTree.Hash

/-- The number of bytes in a block of SHA-512. -/
def hmacBlockSize : Nat := 128

/-- The key filled up with zeros to a whole block; a longer key is replaced by its hash. -/
def hmacKeyBlock (key : List UInt8) : List UInt8 :=
  let short := if key.length > hmacBlockSize then (sha512 key).toList else key
  short ++ List.replicate (hmacBlockSize - short.length) 0

/-- HMAC-SHA512 of a message under a key. -/
def hmacSha512 (key message : List UInt8) : Bytes 64 :=
  let block := hmacKeyBlock key
  let inner := sha512 (block.map (· ^^^ 0x36) ++ message)
  sha512 (block.map (· ^^^ 0x5c) ++ inner.toList)

end KeyTree.Hash
