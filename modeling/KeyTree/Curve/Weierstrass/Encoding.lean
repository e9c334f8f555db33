import KeyTree.Curve.Weierstrass.Basic

/-!
# Points of a Weierstrass curve as bytes

The lead byte tells the form: 2 or 3 for `x` and the parity of `y`, 4 for both coordinates, 5 for
`x` alone.  Coordinates are 32 big-endian bytes and have to be below the modulus.  The identity has
no form that a reader takes; it is written as zeros.
-/

namespace KeyTree.Weierstrass

namespace Point

variable {domain : Weierstrass}

/--
The two points at an abscissa differ in the sign of `y`; this is the one that `choose` makes of a
root.
-/
def atAbscissa? (choose : Fin domain.modulus → Fin domain.modulus) (x : Nat) :
    Option (Point domain) := do
  let x ← PrimeField.ofNat? x
  let root ← PrimeField.squareRoot? (domain.cubic x)
  return affine x (choose root)

/-- The point with these coordinates, if it is on the curve. -/
def ofCoordinates? (x y : Nat) : Option (Point domain) := do
  let x ← PrimeField.ofNat? x
  let y ← PrimeField.ofNat? y
  if OnCurve (affine x y) then some (affine x y) else none

/-- The root that the rule for points written as `x` alone picks. -/
def compactRoot (domain : Weierstrass) (root : Fin domain.modulus) : Fin domain.modulus :=
  match domain.compactRule with
  | .even => PrimeField.withParity false root
  | .smaller => if root.val ≤ (-root).val then root else -root

/-- The number that big-endian bytes hold. -/
def coordinate (bytes : List UInt8) : Nat :=
  ByteOrder.bigEndian.read bytes

/-- The point that bytes denote. -/
def decode? : List UInt8 → Option (Point domain)
  | [] => none
  | lead :: body =>
      if body.length = 32 then
        if lead = 2 then atAbscissa? (PrimeField.withParity false) (coordinate body)
        else if lead = 3 then atAbscissa? (PrimeField.withParity true) (coordinate body)
        else if lead = 5 then atAbscissa? (compactRoot domain) (coordinate body)
        else none
      else if body.length = 64 ∧ lead = 4 then
        ofCoordinates? (coordinate (body.take 32)) (coordinate (body.drop 32))
      else none

/-- The 33 bytes of a point: parity and abscissa. -/
def encode : Point domain → Bytes 33
  | infinity => Bytes.zero 33
  | affine x y =>
      let lead : UInt8 := if PrimeField.isOdd y then 3 else 2
      let slot : Bytes (1 + 32) := Bytes.singleton lead ++ ByteOrder.bigEndian.write 32 x.val
      slot

end Point

end KeyTree.Weierstrass
