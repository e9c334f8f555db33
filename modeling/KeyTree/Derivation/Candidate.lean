import KeyTree.Curve.Group

/-!
# Candidates for a child key

The left half of an output of the keyed hash becomes a scalar, by which the parent key is moved.  On
a Weierstrass curve the half has to be below the order of the group; on the Edwards curve it is
reduced. A child key that would be zero, or the identity, is refused.
-/

namespace KeyTree.CurveGroup

variable (group : CurveGroup)

/-- The left half of an output. -/
def leftHalf (output : Bytes 64) : Bytes 32 :=
  let halves : Bytes (32 + 32) := output
  halves.takeLeft

/-- The right half of an output, which is the chain code of the child. -/
def rightHalf (output : Bytes 64) : Bytes 32 :=
  let halves : Bytes (32 + 32) := output
  halves.dropLeft

/-- The scalar that the left half of an output stands for. -/
def tweak? (half : Bytes 32) : Option group.Scalar :=
  match group.curve.family with
  | .weierstrass => group.scalarOfBytes? half
  | .edwards => some (group.reduce half)

/-- The private key that an output makes of a parent scalar. -/
def childScalar? (parent : group.Scalar) (output : Bytes 64) : Option group.Scalar := do
  let tweak ← group.tweak? (leftHalf output)
  let child := parent + tweak
  if child.val = 0 then none else some child

/-- The public key that an output makes of a parent point, and the scalar by which it was moved. -/
def childPoint? (parent : group.Point) (output : Bytes 64) :
    Option (group.Point × group.Scalar) := do
  let tweak ← group.tweak? (leftHalf output)
  let child := group.add parent (group.timesBase tweak)
  if group.isIdentity child then none else some (child, tweak)

/-- The master key that an output gives. -/
def masterScalar? (output : Bytes 64) : Option group.Scalar := do
  let scalar ← group.tweak? (leftHalf output)
  if scalar.val = 0 then none else some scalar

end KeyTree.CurveGroup
