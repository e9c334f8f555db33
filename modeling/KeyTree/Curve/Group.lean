import KeyTree.Bytes.Secret
import KeyTree.Curve.Basic
import KeyTree.Error

/-!
# Groups of prime order with byte encodings

Keys are scalars modulo the order of a group and points of the group.  Derivation needs to know no
more of a curve than this: how scalars and points are written as bytes, how points are added, and
which multiples the base point has.
-/

namespace KeyTree

/-- The 33 bytes in which a public key is stored. -/
abbrev KeySlot := Bytes 33

/-- A group of points with a base point and with byte encodings. -/
structure CurveGroup where
  /-- The curve whose points these are. -/
  curve : Curve
  /-- The order of the base point. -/
  order : Nat
  order_pos : 0 < order
  /-- Scalars fit into 32 bytes. -/
  order_le : order ≤ ByteOrder.capacity 32
  Point : Type
  add : Point → Point → Point
  /-- The point is the identity of the group. -/
  isIdentity : Point → Bool
  /-- The multiple of the base point by a number. -/
  baseMultiple : Nat → Point
  /-- The point that bytes denote, unless they denote none or the identity. -/
  decode? : List UInt8 → Option Point
  /-- The slot of a point. -/
  encode : Point → KeySlot

namespace CurveGroup

variable (group : CurveGroup)

/-- A number below the order of the group. -/
abbrev Scalar (group : CurveGroup) := Fin group.order

/-- The byte order of scalars. -/
def byteOrder : ByteOrder := group.curve.family.byteOrder

/-- The scalar that 32 bytes hold, unless they hold a number that is not below the order. -/
def scalarOfBytes? (bytes : Bytes 32) : Option group.Scalar :=
  let value := group.byteOrder.read bytes.toList
  if small : value < group.order then some ⟨value, small⟩ else none

/-- The remainder modulo the order of the number that 32 bytes hold. -/
def reduce (bytes : Bytes 32) : group.Scalar :=
  ⟨group.byteOrder.read bytes.toList % group.order, Nat.mod_lt _ group.order_pos⟩

/-- The 32 bytes of a scalar. -/
def scalarToBytes (scalar : group.Scalar) : Bytes 32 :=
  group.byteOrder.write 32 scalar.val

/-- The multiple of the base point by a scalar. -/
def timesBase (scalar : group.Scalar) : group.Point :=
  group.baseMultiple scalar.val

/-- The scalar behind a private key: a number below the order, and not zero. -/
def privateScalar (key : Secret 32) : Except Error group.Scalar :=
  match group.scalarOfBytes? key.bytes with
  | some scalar => if scalar.val = 0 then .error .scalarOutOfRange else .ok scalar
  | none => .error .scalarOutOfRange

/-- The private key that bytes of any number hold. -/
def privateKey (bytes : List UInt8) : Except Error (Secret 32) :=
  match Secret.ofList? 32 bytes with
  | some key => (group.privateScalar key).map fun _ => key
  | none => .error (.scalarLength bytes.length)

/-- The point behind the bytes of a public key. -/
def publicPoint (bytes : List UInt8) : Except Error group.Point :=
  match group.decode? bytes with
  | some point => .ok point
  | none => .error .invalidPoint

/-- The slot of the public key that bytes denote, in any form. -/
def publicSlot (bytes : List UInt8) : Except Error KeySlot :=
  (group.publicPoint bytes).map group.encode

/-- The slot of the public key that belongs to a private key. -/
def slotOfPrivate (key : Secret 32) : Except Error KeySlot :=
  (group.privateScalar key).map fun scalar => group.encode (group.timesBase scalar)

/-- The sum of two offsets. -/
def addOffsets (first second : Bytes 32) : Except Error (Bytes 32) := do
  let some firstScalar := group.scalarOfBytes? first | throw .scalarOutOfRange
  let some secondScalar := group.scalarOfBytes? second | throw .scalarOutOfRange
  return group.scalarToBytes (firstScalar + secondScalar)

/-- The public key that lies an offset away from another. -/
def offsetSlot (slot : KeySlot) (offset : Bytes 32) : Except Error KeySlot := do
  let point ← group.publicPoint slot.toList
  let some scalar := group.scalarOfBytes? offset | throw .scalarOutOfRange
  let shifted := group.add point (group.timesBase scalar)
  if group.isIdentity shifted then throw .offsetToIdentity
  else return group.encode shifted

end CurveGroup

end KeyTree
