import KeyTree.Base58.Check
import KeyTree.Curve.Basic
import KeyTree.Path.Parser
import KeyTree.Text.Hexadecimal

/-!
# Why an operation on keys fails

Every failure of the library is one of these causes.  Their wording is in one place,
`Error.message`.
-/

namespace KeyTree

/-- The causes for which an operation on keys fails. -/
inductive Error where
  /-- The master key of a seed would be zero or not below the group order. -/
  | invalidSeed
  /-- A scalar is not below the group order, or is zero where it may not be. -/
  | scalarOutOfRange
  /-- The bytes of a public key denote no point of the group other than the identity. -/
  | invalidPoint
  /-- An offset moves a public key to the identity. -/
  | offsetToIdentity
  /-- A text is not a derivation path. -/
  | invalidPath (text : String) (defect : Path.Defect)
  /-- An extended key has the wrong number of bytes. -/
  | recordLength (length : Nat)
  /-- An extended key has another version than its use asks for. -/
  | versionMismatch (found expected : UInt32)
  /-- No curve goes by this name. -/
  | unknownCurve (name : String)
  /-- A private key has the wrong number of bytes. -/
  | scalarLength (length : Nat)
  /-- The key field of an extended private key does not start with a zero byte. -/
  | privateLead (byte : UInt8)
  /-- A text is not Base58Check. -/
  | encoding (defect : Base58.Defect)
  /-- A hardened child was asked of a public key. -/
  | hardenedFromPublic (index : ChildIndex)
  /-- No index from this one to the end of its half of the range gives a valid child. -/
  | rangeExhausted (index : ChildIndex)
  /-- The key holds no private key. -/
  | missingPrivateKey
  /-- The key is as deep as keys can be. -/
  | depthOverflow
  deriving DecidableEq

/-- The wording of an error. -/
def Error.message : Error → String
  | invalidSeed => "invalid seed: master key is zero or not below the group order"
  | scalarOutOfRange => "scalar out of range"
  | invalidPoint => "invalid public key: not a valid point on the curve"
  | offsetToIdentity => "invalid public key: offset reaches the identity"
  | invalidPath text defect => s!"invalid derivation path: '{text}': {defect.message}"
  | recordLength length => s!"invalid extended key length {length}: expected 78 bytes"
  | versionMismatch found expected =>
      s!"unexpected extended key version {Hexadecimal.markedUInt32 found}: " ++
        s!"expected {Hexadecimal.markedUInt32 expected}"
  | unknownCurve name => s!"invalid key: unknown curve '{name}'"
  | scalarLength length => s!"invalid key: private key must be 32 bytes, got {length}"
  | privateLead byte =>
      "invalid key: private key field must start with 0x00, " ++
        s!"got {Hexadecimal.markedByte byte}"
  | encoding defect => s!"invalid encoding: {defect.message}"
  | hardenedFromPublic index =>
      s!"hardened child {Hexadecimal.markedUInt32 index} cannot be derived from a public key"
  | rangeExhausted index =>
      s!"no valid child from index {Hexadecimal.markedUInt32 index} " ++
        "to the end of its hardened or normal range"
  | missingPrivateKey => "private key not available"
  | depthOverflow => "maximum derivation depth exceeded"

/-- The curve that a text names, whatever the case of its ASCII letters. -/
def Curve.ofText (text : String) : Except Error Curve :=
  let name := text.map Char.toLower
  match ofAlias? name with
  | some curve => .ok curve
  | none => .error (.unknownCurve name)

/-- The path that a text names. -/
def Path.ofText (text : String) : Except Error Path :=
  (parse text).mapError (.invalidPath text)

end KeyTree
