import KeyTree.Curve.Weierstrass.Basic

/-!
# Multiples on a Weierstrass curve

Adding points in affine coordinates takes an inverse each time.  Jacobian coordinates `(X, Y, Z)`
stand for the point `(X / Z ^ 2, Y / Z ^ 3)`, or for the point at infinity if `Z` is zero, and put
the inverse off to the end of a long multiplication.
-/

namespace KeyTree.Weierstrass

/-- A point in Jacobian coordinates. -/
structure Jacobian (domain : Weierstrass) where
  /-- The abscissa times the square of `z`. -/
  x : Fin domain.modulus
  /-- The ordinate times the cube of `z`. -/
  y : Fin domain.modulus
  /-- The common denominator, zero at infinity. -/
  z : Fin domain.modulus

namespace Jacobian

variable {domain : Weierstrass}

/-- The point at infinity. -/
def infinity (domain : Weierstrass) : Jacobian domain := ⟨1, 1, 0⟩

/-- A point with denominator one. -/
def ofPoint : Point domain → Jacobian domain
  | .infinity => infinity domain
  | .affine x y => ⟨x, y, 1⟩

/-- The point that the coordinates stand for. -/
def toPoint (point : Jacobian domain) : Point domain :=
  if point.z = 0 then .infinity
  else
    let inverse := PrimeField.inverse point.z
    let square := inverse * inverse
    .affine (point.x * square) (point.y * (square * inverse))

/-- Twice a point. -/
def double (point : Jacobian domain) : Jacobian domain :=
  let square := point.y * point.y
  let zSquare := point.z * point.z
  let chord := 4 * point.x * square
  let slope := 3 * point.x * point.x + domain.a * (zSquare * zSquare)
  let x := slope * slope - 2 * chord
  ⟨x, slope * (chord - x) - 8 * (square * square), 2 * point.y * point.z⟩

/-- The sum of two points. -/
def add (first second : Jacobian domain) : Jacobian domain :=
  if first.z = 0 then second
  else if second.z = 0 then first
  else
    let firstSquare := first.z * first.z
    let secondSquare := second.z * second.z
    let firstX := first.x * secondSquare
    let secondX := second.x * firstSquare
    let firstY := first.y * (secondSquare * second.z)
    let secondY := second.y * (firstSquare * first.z)
    if firstX = secondX then
      if firstY = secondY then double first else infinity domain
    else
      let run := secondX - firstX
      let rise := secondY - firstY
      let runSquare := run * run
      let runCube := runSquare * run
      let chord := firstX * runSquare
      let x := rise * rise - runCube - 2 * chord
      ⟨x, rise * (chord - x) - firstY * runCube, run * (first.z * second.z)⟩

end Jacobian

/-- The multiple of the base point by a number. -/
def baseMultiple (domain : Weierstrass) (count : Nat) : Point domain :=
  (multiple Jacobian.add (Jacobian.infinity domain) (Jacobian.ofPoint (Point.base domain))
    count).toPoint

end KeyTree.Weierstrass
