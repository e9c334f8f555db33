import KeyTree.Bytes.Integer
import KeyTree.Curve.PrimeField

/-!
# Short Weierstrass curves

The points with `y ^ 2 = x ^ 3 + a * x + b` and a point at infinity form a group under the chord and
tangent rule.  A point is written in 33 bytes: the parity of `y`, and `x`.  Readers also take both
coordinates, or `x` alone with a rule that picks `y`.
-/

namespace KeyTree

/-- The rule that picks `y` for a point that is written as `x` alone. -/
inductive CompactRule where
  /-- The even one of the two. -/
  | even
  /-- The smaller one of the two. -/
  | smaller
  deriving DecidableEq

/-- The constants of a short Weierstrass curve with a base point. -/
structure Weierstrass where
  /-- The prime modulus of the coordinates. -/
  modulus : Nat
  /-- The modulus is not zero. -/
  modulus_ne : PrimeField.Modulus modulus
  /-- The coefficient of `x`. -/
  a : Fin modulus
  /-- The constant coefficient. -/
  b : Fin modulus
  /-- The abscissa of the base point. -/
  baseX : Fin modulus
  /-- The ordinate of the base point. -/
  baseY : Fin modulus
  /-- The order of the base point. -/
  order : Nat
  /-- The rule for points that are written as `x` alone. -/
  compactRule : CompactRule

namespace Weierstrass

instance (domain : Weierstrass) : PrimeField.Modulus domain.modulus := domain.modulus_ne

/-- A point of the plane, or the point at infinity. -/
inductive Point (domain : Weierstrass) where
  /-- The point at infinity, which is the identity of the group. -/
  | infinity
  | affine (x y : Fin domain.modulus)
  deriving DecidableEq

variable {domain : Weierstrass}

/-- The right side of the equation at an abscissa. -/
def cubic (domain : Weierstrass) (x : Fin domain.modulus) : Fin domain.modulus :=
  x * x * x + domain.a * x + domain.b

/-- A point satisfies the equation of the curve. -/
def OnCurve : Point domain → Prop
  | .infinity => True
  | .affine x y => y * y = domain.cubic x

instance (point : Point domain) : Decidable (OnCurve point) := by
  cases point <;> unfold OnCurve <;> infer_instance

namespace Point

/-- The base point. -/
def base (domain : Weierstrass) : Point domain :=
  affine domain.baseX domain.baseY

/-- The third point on a line of this slope through two points, reflected. -/
def onLine (slope x₁ y₁ x₂ : Fin domain.modulus) : Point domain :=
  let x₃ := slope * slope - x₁ - x₂
  affine x₃ (slope * (x₁ - x₃) - y₁)

/-- The sum of two points, by the chord through them or the tangent at both. -/
def add : Point domain → Point domain → Point domain
  | infinity, second => second
  | first, infinity => first
  | affine x₁ y₁, affine x₂ y₂ =>
      if x₁ = x₂ then
        if y₁ + y₂ = 0 then infinity
        else onLine ((3 * x₁ * x₁ + domain.a) * PrimeField.inverse (2 * y₁)) x₁ y₁ x₂
      else onLine ((y₂ - y₁) * PrimeField.inverse (x₂ - x₁)) x₁ y₁ x₂

/-- The point is the identity. -/
def isInfinity : Point domain → Bool
  | infinity => true
  | affine _ _ => false

end Point

end Weierstrass

end KeyTree
