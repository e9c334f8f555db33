import KeyTree.Hash.Ripemd160
import KeyTree.Hash.Sha2

/-!
# Identifiers and fingerprints of keys

A key is identified by a hash of its public key, and its children name it by the first four bytes of
that hash.
-/

namespace KeyTree.Hash

/-- RIPEMD-160 of SHA-256. -/
def hash160 (data : List UInt8) : Bytes 20 :=
  ripemd160 (sha256 data).toList

/-- The first four bytes of the identifier. -/
def fingerprint (data : List UInt8) : UInt32 :=
  let identifier : Bytes (4 + 16) := hash160 data
  identifier.takeLeft.toUInt32

end KeyTree.Hash
