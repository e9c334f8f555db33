import KeyTree.Bytes.Basic

/-!
# Secret bytes

Private scalars and the outputs that they come from are byte strings whose diagnostics show nothing
but their width.
-/

namespace KeyTree

/-- A byte string that is not to be shown. -/
structure Secret (width : Nat) where
  bytes : Bytes width
  deriving DecidableEq

namespace Secret

variable {width left right : Nat}

/-- The secret with these bytes, if there are exactly `width` of them. -/
def ofList? (width : Nat) (bytes : List UInt8) : Option (Secret width) :=
  (Bytes.ofList? width bytes).map Secret.mk

/-- All bytes are zero. -/
def isZero (secret : Secret width) : Bool :=
  secret.bytes.isZero

/-- The first `left` bytes, which stay secret, and the others. -/
def split (secret : Secret (left + right)) : Secret left × Bytes right :=
  (⟨secret.bytes.takeLeft⟩, secret.bytes.dropLeft)

/-- The text that stands for a secret, the same for all secrets of its width. -/
def diagnostic (_ : Secret width) : String :=
  s!"SecretBytes<{width}>(<redacted>)"

end Secret

end KeyTree
