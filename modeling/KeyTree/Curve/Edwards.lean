import KeyTree.Bytes.Integer
import KeyTree.Curve.PrimeField

/-!
# The Edwards curve

The points with `y ^ 2 - x ^ 2 = 1 + d * x ^ 2 * y ^ 2` form a group whose addition has one formula
for all pairs of points.  A point is written as `y` in 32 little-endian bytes, with the parity of
`x` in the highest bit, after a zero byte.
-/

namespace KeyTree.Edwards

/-- The prime modulus of the coordinates, which is `2 ^ 255 - 19`. -/
def modulus : Nat := 0x7fffffffffffffffffffffffffffffffffffffffffffffffffffffffffffffed

instance : PrimeField.Modulus modulus := ⟨by decide⟩

/-- The prime order of the base point. -/
def order : Nat := 0x1000000000000000000000000000000014def9dea2f79cd65812631a5cf5d3ed

/-- The coefficient of the equation. -/
def coefficient : Fin modulus :=
  37095705934669439343138083508754565189542113879843219016388785533085940283555

/-- A square root of minus one. -/
def imaginaryUnit : Fin modulus :=
  PrimeField.power 2 ((modulus - 1) / 4)

/-- A point of the plane. -/
structure Point where
  x : Fin modulus
  y : Fin modulus
  deriving DecidableEq

/--
A point in extended coordinates, which stand for `(X / Z, Y / Z)` and keep the product of both.
-/
structure Extended where
  /-- The abscissa times `z`. -/
  x : Fin modulus
  /-- The ordinate times `z`. -/
  y : Fin modulus
  /-- The common denominator. -/
  z : Fin modulus
  /-- The product of abscissa and ordinate, times `z`. -/
  product : Fin modulus

namespace Extended

/-- The identity of the group. -/
def identity : Extended := ⟨0, 1, 1, 0⟩

/-- A point with denominator one. -/
def ofPoint (point : Point) : Extended :=
  ⟨point.x, point.y, 1, point.x * point.y⟩

/-- The point that the coordinates stand for. -/
def toPoint (point : Extended) : Point :=
  let inverse := PrimeField.inverse point.z
  ⟨point.x * inverse, point.y * inverse⟩

/-- The sum of two points. -/
def add (first second : Extended) : Extended :=
  let difference := (first.y - first.x) * (second.y - second.x)
  let sum := (first.y + first.x) * (second.y + second.x)
  let products := 2 * coefficient * first.product * second.product
  let denominators := 2 * first.z * second.z
  let e := sum - difference
  let f := denominators - products
  let g := denominators + products
  let h := sum + difference
  ⟨e * f, g * h, f * g, e * h⟩

/-- The coordinates stand for the identity. -/
def isIdentity (point : Extended) : Bool :=
  point.x == 0 && point.y == point.z

end Extended

namespace Point

/-- The identity of the group. -/
def identity : Point := ⟨0, 1⟩

/-- The base point. -/
def base : Point where
  x := 15112221349535400772501151409588531511454012693041857206046113283949847762202
  y := 46316835694926478169428394003475163141307993866256225615783033603165251855960

/-- The sum of two points. -/
def add (first second : Point) : Point :=
  (Extended.add (.ofPoint first) (.ofPoint second)).toPoint

/-- The point is the identity. -/
def isIdentity (point : Point) : Bool :=
  point == identity

/-- The multiple of a point by a number, in extended coordinates. -/
def times (count : Nat) (point : Point) : Extended :=
  multiple Extended.add Extended.identity (.ofPoint point) count

/-- The multiple of the base point by a number. -/
def baseMultiple (count : Nat) : Point :=
  (times count base).toPoint

/-- The point lies in the subgroup of prime order. -/
def inSubgroup (point : Point) : Bool :=
  (times order point).isIdentity

/-- An even square root of a quotient, if the quotient is a square. -/
def rootOfQuotient? (numerator denominator : Fin modulus) : Option (Fin modulus) :=
  let cube := denominator * denominator * denominator
  let seventh := cube * cube * denominator
  let candidate :=
    numerator * cube * PrimeField.power (numerator * seventh) ((modulus - 5) / 8)
  let check := denominator * candidate * candidate
  if check = numerator then some (PrimeField.withParity false candidate)
  else if check = -numerator then
    some (PrimeField.withParity false (candidate * imaginaryUnit))
  else none

/--
The point of the curve with this ordinate, and with the odd one of its two abscissas if asked.
-/
def atOrdinate? (odd : Bool) (y : Fin modulus) : Option Point := do
  let square := y * y
  let root ← rootOfQuotient? (square - 1) (coefficient * square + 1)
  return ⟨if odd then -root else root, y⟩

/-- The weight of the highest of 256 bits, which holds the parity of the abscissa. -/
def parityWeight : Nat :=
  0x8000000000000000000000000000000000000000000000000000000000000000

/--
The point of the prime-order subgroup, other than the identity, that 32 bytes denote.  An ordinate
that is not below the modulus is reduced.
-/
def decompress? (bytes : List UInt8) : Option Point := do
  let value := ByteOrder.littleEndian.read bytes
  let point ← atOrdinate? (value / parityWeight % 2 = 1) (Fin.ofNat modulus (value % parityWeight))
  if point.isIdentity || !point.inSubgroup then none else some point

/-- The point that bytes denote: 32 of them, or 33 with a zero byte in front. -/
def decode? : List UInt8 → Option Point
  | [] => none
  | lead :: body =>
      if body.length = 31 then decompress? (lead :: body)
      else if body.length = 32 ∧ lead = 0 then decompress? body
      else none

/-- The 32 bytes of a point. -/
def compress (point : Point) : Bytes 32 :=
  let parity := if PrimeField.isOdd point.x then parityWeight else 0
  ByteOrder.littleEndian.write 32 (point.y.val + parity)

/-- The lead byte of a written point. -/
def slotLead : UInt8 := 0

/-- The 33 bytes of a point: a zero byte and the 32 bytes. -/
def encode (point : Point) : Bytes 33 :=
  let slot : Bytes (1 + 32) := Bytes.singleton slotLead ++ point.compress
  slot

end Point

end KeyTree.Edwards
