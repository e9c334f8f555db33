import KeyTree.Bytes.Integer

/-!
# Curves and their families

Keys live on one of three curves.  The two Weierstrass curves share one way of deriving keys and one
set of versions for extended keys; the Edwards curve has its own.
-/

namespace KeyTree

/-- The shape of a curve's equation, which decides how its keys are derived and written. -/
inductive Family where
  /-- Short Weierstrass curves: scalars are big-endian. -/
  | weierstrass
  /-- Twisted Edwards curves: scalars are little-endian. -/
  | edwards
  deriving DecidableEq

namespace Family

/-- The name of a family. -/
def name : Family → String
  | weierstrass => "weierstrass"
  | edwards => "edwards"

/-- The byte order of the scalars of a family. -/
def byteOrder : Family → ByteOrder
  | weierstrass => .bigEndian
  | edwards => .littleEndian

end Family

/-- The curves that keys live on. -/
inductive Curve where
  /-- The Koblitz curve over 256 bits. -/
  | secp256k1
  /-- The NIST curve over 256 bits. -/
  | p256
  /-- The Edwards curve over 255 bits. -/
  | ed25519
  deriving DecidableEq

namespace Curve

/-- All curves. -/
def all : List Curve := [secp256k1, p256, ed25519]

/-- The family of a curve. -/
def family : Curve → Family
  | secp256k1 | p256 => .weierstrass
  | ed25519 => .edwards

/-- The name of a curve. -/
def name : Curve → String
  | secp256k1 => "secp256k1"
  | p256 => "p256"
  | ed25519 => "ed25519"

/-- The other names that a curve answers to. -/
def aliases : Curve → List String
  | p256 => ["p-256", "secp256r1", "nistp256"]
  | secp256k1 | ed25519 => []

/-- The curve with exactly this name. -/
def ofName? (name : String) : Option Curve :=
  all.find? fun curve => curve.name == name

/-- The curve that goes by this name or alias in lower case. -/
def ofAlias? (name : String) : Option Curve :=
  all.find? fun curve => curve.name == name || curve.aliases.contains name

@[simp]
theorem ofName?_name (curve : Curve) : ofName? curve.name = some curve := by
  cases curve <;> decide

end Curve

end KeyTree
