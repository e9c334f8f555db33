import KeyTree.Curve.Weierstrass.Basic
import KeyTree.Proofs.Curve.PrimeField
import Mathlib.AlgebraicGeometry.EllipticCurve.Affine.Point

/-!
# The points of a Weierstrass curve are a group

The chord and tangent rule on the points of a curve is the sum of the group that an elliptic curve
has.  The elements of the group are embedded in the points of the plane; the image is the curve.
-/

namespace KeyTree.Weierstrass

open scoped PrimeField

/-- The discriminant is not zero, and the coordinates are numbers below an odd prime. -/
class Smooth (domain : Weierstrass) : Prop extends PrimeField.OddPrime domain.modulus where
  /-- The cubic has no double root. -/
  discriminant_ne : 4 * domain.a * domain.a * domain.a + 27 * domain.b * domain.b ≠ 0

variable {domain : Weierstrass}

/-- The curve as an equation over the field of coordinates. -/
def equation (domain : Weierstrass) : WeierstrassCurve.Affine (Fin domain.modulus) where
  a₁ := 0
  a₂ := 0
  a₃ := 0
  a₄ := domain.a
  a₆ := domain.b

variable [smooth : Smooth domain]

/-- The group of the curve. -/
abbrev Element (domain : Weierstrass) [Smooth domain] :=
  WeierstrassCurve.Affine.Point (equation domain)

/-- An element of the group as a point of the plane. -/
def ofElement : Element domain → Point domain
  | .zero => .infinity
  | .some x y _ => .affine x y

theorem equation_iff {x y : Fin domain.modulus} :
    (equation domain).Equation x y ↔ OnCurve (.affine x y : Point domain) := by
  rw [WeierstrassCurve.Affine.equation_iff]
  simp only [equation, OnCurve, cubic]
  constructor
  · intro holds
    linear_combination holds
  · intro holds
    linear_combination holds

theorem discriminant_ne_zero : (equation domain).Δ ≠ 0 := by
  have discriminant_eq : (equation domain).Δ =
      -(2 * 2 * 2 * 2 * (4 * domain.a * domain.a * domain.a + 27 * domain.b * domain.b)) := by
    simp only [WeierstrassCurve.Δ, WeierstrassCurve.b₂, WeierstrassCurve.b₄,
      WeierstrassCurve.b₆, WeierstrassCurve.b₈, equation]
    ring
  have two_ne : (2 : Fin domain.modulus) ≠ 0 := PrimeField.two_ne_zero
  rw [discriminant_eq, neg_ne_zero]
  simp only [mul_ne_zero_iff, two_ne, ne_eq, not_false_eq_true, true_and]
  exact smooth.discriminant_ne

theorem nonsingular_iff {x y : Fin domain.modulus} :
    (equation domain).Nonsingular x y ↔ OnCurve (.affine x y : Point domain) := by
  rw [← equation_iff]
  exact (WeierstrassCurve.Affine.equation_iff_nonsingular_of_Δ_ne_zero discriminant_ne_zero).symm

theorem ofElement_injective : Function.Injective (ofElement : Element domain → Point domain) := by
  intro first second same
  cases first with
  | zero =>
      cases second with
      | zero => rfl
      | some x y proper => contradiction
  | some x y proper =>
      cases second with
      | zero => contradiction
      | some x' y' proper' =>
          obtain ⟨rfl, rfl⟩ := Point.affine.inj same
          rfl

theorem onCurve_ofElement (element : Element domain) : OnCurve (ofElement element) := by
  cases element with
  | zero => trivial
  | some x y proper => exact nonsingular_iff.mp proper

theorem exists_ofElement {point : Point domain} (on : OnCurve point) :
    ∃ element : Element domain, ofElement element = point := by
  cases point with
  | infinity => exact ⟨.zero, rfl⟩
  | affine x y => exact ⟨.some x y (nonsingular_iff.mpr on), rfl⟩

theorem onLine_eq (slope x₁ y₁ x₂ : Fin domain.modulus) :
    (Point.onLine slope x₁ y₁ x₂ : Point domain) =
      .affine ((equation domain).addX x₁ x₂ slope) ((equation domain).addY x₁ x₂ y₁ slope) := by
  simp only [Point.onLine, WeierstrassCurve.Affine.addX, WeierstrassCurve.Affine.addY,
    WeierstrassCurve.Affine.negAddY, WeierstrassCurve.Affine.negY, equation,
    Point.affine.injEq]
  constructor <;> ring

theorem negY_eq (x y : Fin domain.modulus) : (equation domain).negY x y = -y := by
  simp [WeierstrassCurve.Affine.negY, equation]

/-- Two points with one abscissa are equal, or opposite to each other. -/
theorem eq_or_add_eq_zero {x y₁ y₂ : Fin domain.modulus}
    (first : OnCurve (.affine x y₁ : Point domain))
    (second : OnCurve (.affine x y₂ : Point domain)) : y₁ = y₂ ∨ y₁ + y₂ = 0 := by
  have same : y₁ * y₁ = y₂ * y₂ := first.trans second.symm
  rcases mul_self_eq_mul_self_iff.mp same with equal | opposite
  · exact .inl equal
  · exact .inr (by rw [opposite, neg_add_cancel])

theorem chordSlope_eq {x₁ y₁ x₂ y₂ : Fin domain.modulus} (apart : x₁ ≠ x₂) :
    (equation domain).slope x₁ x₂ y₁ y₂ = (y₂ - y₁) * PrimeField.inverse (x₂ - x₁) := by
  rw [WeierstrassCurve.Affine.slope_of_X_ne apart, PrimeField.inverse_eq_inv, div_eq_mul_inv,
    ← neg_sub y₂, ← neg_sub x₂, inv_neg, neg_mul_neg]

theorem tangentSlope_eq {x y : Fin domain.modulus} (proper : y + y ≠ 0) :
    (equation domain).slope x x y y =
      (3 * x * x + domain.a) * PrimeField.inverse (2 * y) := by
  have moved : y ≠ (equation domain).negY x y := by
    rw [negY_eq]
    exact fun opposite => proper (by linear_combination opposite)
  rw [WeierstrassCurve.Affine.slope_of_Y_ne rfl moved, negY_eq, PrimeField.inverse_eq_inv,
    div_eq_mul_inv]
  simp only [equation]
  congr 1
  · ring
  · congr 1
    ring

/-- The chord and tangent rule is the sum of the group. -/
theorem add_ofElement (first second : Element domain) :
    Point.add (ofElement first) (ofElement second) = ofElement (first + second) := by
  cases first with
  | zero => rfl
  | some x₁ y₁ proper₁ =>
      cases second with
      | zero => rfl
      | some x₂ y₂ proper₂ =>
          by_cases vertical : x₁ = x₂
          · subst vertical
            by_cases opposite : y₁ + y₂ = 0
            · have sum_eq : (.some x₁ y₁ proper₁ + .some x₁ y₂ proper₂ : Element domain) = 0 :=
                WeierstrassCurve.Affine.Point.add_of_Y_eq rfl
                  (by rw [negY_eq, eq_neg_of_add_eq_zero_left opposite])
              rw [sum_eq]
              simp only [ofElement, Point.add, ↓reduceIte, opposite]
            · obtain rfl : y₁ = y₂ :=
                (eq_or_add_eq_zero (nonsingular_iff.mp proper₁)
                  (nonsingular_iff.mp proper₂)).resolve_right opposite
              have moved : y₁ ≠ (equation domain).negY x₁ y₁ := by
                rw [negY_eq]
                exact fun equal => opposite (by linear_combination equal)
              rw [WeierstrassCurve.Affine.Point.add_self_of_Y_ne moved]
              simp only [ofElement, Point.add, ↓reduceIte, opposite, onLine_eq,
                tangentSlope_eq opposite]
          · rw [WeierstrassCurve.Affine.Point.add_of_X_ne vertical]
            simp only [ofElement, Point.add, vertical, ↓reduceIte, onLine_eq,
              chordSlope_eq vertical]

end KeyTree.Weierstrass
