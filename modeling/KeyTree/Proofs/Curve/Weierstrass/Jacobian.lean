import KeyTree.Curve.Weierstrass.Jacobian
import KeyTree.Proofs.Curve.Weierstrass.Group

/-!
# Sums in Jacobian coordinates

Adding in Jacobian coordinates and adding the points that they stand for is the same on the curve.
The coordinates of a finite point are written with its affine ones, so that the formulas of both
sums become polynomials in the same unknowns once the slope is known.
-/

namespace KeyTree.Weierstrass

open scoped PrimeField

variable {domain : Weierstrass}

theorem Jacobian.toPoint_of_zero {point : Jacobian domain} (zero : point.z = 0) :
    point.toPoint = .infinity := by
  rw [toPoint, if_pos zero]

variable [smooth : Smooth domain]

namespace Jacobian

/-- The coordinates of an affine point with a given denominator. -/
def scaled (domain : Weierstrass) (x y z : Fin domain.modulus) : Jacobian domain :=
  ⟨x * (z * z), y * (z * z * z), z⟩

theorem toPoint_scaled {x y z : Fin domain.modulus} (proper : z ≠ 0) :
    (scaled domain x y z).toPoint = .affine x y := by
  have inverse_eq := PrimeField.mul_inverse proper
  rw [toPoint, scaled, if_neg proper]
  simp only [Point.affine.injEq]
  generalize PrimeField.inverse z = inverse at inverse_eq ⊢
  constructor
  · linear_combination x * (z * inverse + 1) * inverse_eq
  · linear_combination y * (z * inverse * (z * inverse) + z * inverse + 1) * inverse_eq

theorem exists_scaled {point : Jacobian domain} (proper : point.z ≠ 0) :
    ∃ x y, point = scaled domain x y point.z := by
  obtain ⟨x, y, z⟩ := point
  have inverse_eq := PrimeField.mul_inverse proper
  generalize PrimeField.inverse z = inverse at inverse_eq
  refine ⟨x * (inverse * inverse), y * (inverse * inverse * inverse), ?_⟩
  simp only [scaled, Jacobian.mk.injEq, and_true]
  constructor
  · linear_combination -x * (z * inverse + 1) * inverse_eq
  · linear_combination -y * (z * inverse * (z * inverse) + z * inverse + 1) * inverse_eq

/-- Doubling follows the tangent. -/
theorem double_scaled {x y z slope : Fin domain.modulus}
    (tangent : slope * (2 * y) = 3 * x * x + domain.a) :
    double (scaled domain x y z) =
      scaled domain (slope * slope - x - x) (slope * (x - (slope * slope - x - x)) - y)
        (2 * (y * (z * z * z)) * z) := by
  have slope_eq : 3 * (x * (z * z)) * (x * (z * z)) + domain.a * (z * z * (z * z)) =
      slope * (2 * y) * (z * z * (z * z)) := by
    linear_combination -(z * z * (z * z)) * tangent
  simp only [double, scaled, slope_eq, Jacobian.mk.injEq, and_true]
  constructor <;> ring

/-- Cross-multiplied coordinates are equal exactly if the affine ones are. -/
theorem cross_eq_iff (left right : Fin domain.modulus) {first second : Fin domain.modulus}
    (first_proper : first ≠ 0) (second_proper : second ≠ 0) :
    left * first * second = right * second * first ↔ left = right := by
  constructor
  · intro same
    have product_ne := mul_ne_zero first_proper second_proper
    exact mul_right_cancel₀ product_ne (by linear_combination same)
  · rintro rfl
    ring

/-- The sum of two points with different abscissas follows the chord. -/
theorem add_scaled_of_ne {x₁ y₁ z₁ x₂ z₂ slope : Fin domain.modulus} (first_proper : z₁ ≠ 0)
    (second_proper : z₂ ≠ 0) (apart : x₁ ≠ x₂) :
    add (scaled domain x₁ y₁ z₁) (scaled domain x₂ (y₁ + slope * (x₂ - x₁)) z₂) =
      scaled domain (slope * slope - x₁ - x₂)
        (slope * (x₁ - (slope * slope - x₁ - x₂)) - y₁)
        ((x₂ - x₁) * (z₁ * z₁ * (z₂ * z₂)) * (z₁ * z₂)) := by
  have abscissas_apart := mt (cross_eq_iff x₁ x₂ (mul_ne_zero first_proper first_proper)
    (mul_ne_zero second_proper second_proper)).mp apart
  simp only [add, scaled, first_proper, second_proper, abscissas_apart, ↓reduceIte,
    Jacobian.mk.injEq]
  refine ⟨?_, ?_, ?_⟩ <;> ring

/-- The sum of two points with the same abscissa is a double or the point at infinity. -/
theorem add_scaled_of_eq {x y₁ z₁ y₂ z₂ : Fin domain.modulus} (first_proper : z₁ ≠ 0)
    (second_proper : z₂ ≠ 0) :
    add (scaled domain x y₁ z₁) (scaled domain x y₂ z₂) =
      if y₁ = y₂ then double (scaled domain x y₁ z₁) else infinity domain := by
  have abscissas_same := (cross_eq_iff x x (mul_ne_zero first_proper first_proper)
    (mul_ne_zero second_proper second_proper)).mpr rfl
  have ordinates_iff := cross_eq_iff y₁ y₂
    (mul_ne_zero (mul_ne_zero first_proper first_proper) first_proper)
    (mul_ne_zero (mul_ne_zero second_proper second_proper) second_proper)
  simp only [add, scaled, first_proper, second_proper, abscissas_same, ordinates_iff, ↓reduceIte]

/-- The double of a point is its sum with itself. -/
theorem toPoint_double {x y z : Fin domain.modulus} (proper : z ≠ 0) :
    (double (scaled domain x y z)).toPoint =
      Point.add (.affine x y) (.affine x y : Point domain) := by
  by_cases opposite : y + y = 0
  · have double_zero : (double (scaled domain x y z)).z = 0 := by
      change 2 * (y * (z * z * z)) * z = 0
      linear_combination (z * z * z * z) * opposite
    rw [toPoint_of_zero double_zero]
    simp only [Point.add, opposite, ↓reduceIte]
  · have double_ne : 2 * y ≠ 0 := fun zero => opposite (by linear_combination zero)
    have inverse_eq := PrimeField.mul_inverse double_ne
    rw [Point.add, if_pos rfl, if_neg opposite]
    generalize PrimeField.inverse (2 * y) = inverse at inverse_eq ⊢
    have tangent : (3 * x * x + domain.a) * inverse * (2 * y) = 3 * x * x + domain.a := by
      linear_combination (3 * x * x + domain.a) * inverse_eq
    have denominator_ne : 2 * (y * (z * z * z)) * z ≠ 0 := by
      rw [← mul_assoc]
      have cube_ne := mul_ne_zero (mul_ne_zero proper proper) proper
      exact mul_ne_zero (mul_ne_zero double_ne cube_ne) proper
    rw [double_scaled tangent, toPoint_scaled denominator_ne]
    rfl

/-- The sum on a vertical line is the double or the point at infinity. -/
theorem toPoint_add_of_eq {x y₁ z₁ y₂ z₂ : Fin domain.modulus} (first_proper : z₁ ≠ 0)
    (second_proper : z₂ ≠ 0) (choice : y₁ = y₂ ∨ y₁ + y₂ = 0) :
    (add (scaled domain x y₁ z₁) (scaled domain x y₂ z₂)).toPoint =
      Point.add (.affine x y₁) (.affine x y₂ : Point domain) := by
  rw [add_scaled_of_eq first_proper second_proper]
  by_cases same : y₁ = y₂
  · rw [if_pos same, toPoint_double first_proper, same]
  · have opposite := choice.resolve_left same
    rw [if_neg same, toPoint_of_zero rfl]
    simp only [Point.add, opposite, ↓reduceIte]

/-- The sum on any other line is the third point of the line, reflected. -/
theorem toPoint_add_of_ne {x₁ y₁ z₁ x₂ y₂ z₂ : Fin domain.modulus} (first_proper : z₁ ≠ 0)
    (second_proper : z₂ ≠ 0) (apart : x₁ ≠ x₂) :
    (add (scaled domain x₁ y₁ z₁) (scaled domain x₂ y₂ z₂)).toPoint =
      Point.add (.affine x₁ y₁) (.affine x₂ y₂ : Point domain) := by
  have run_ne : x₂ - x₁ ≠ 0 := sub_ne_zero.mpr (Ne.symm apart)
  have inverse_eq := PrimeField.mul_inverse run_ne
  rw [Point.add, if_neg apart]
  generalize PrimeField.inverse (x₂ - x₁) = inverse at inverse_eq ⊢
  have chord : y₂ = y₁ + (y₂ - y₁) * inverse * (x₂ - x₁) := by
    linear_combination -(y₂ - y₁) * inverse_eq
  have denominator_ne : (x₂ - x₁) * (z₁ * z₁ * (z₂ * z₂)) * (z₁ * z₂) ≠ 0 := by
    have squares_ne := mul_ne_zero (mul_ne_zero first_proper first_proper)
      (mul_ne_zero second_proper second_proper)
    exact mul_ne_zero (mul_ne_zero run_ne squares_ne) (mul_ne_zero first_proper second_proper)
  generalize (y₂ - y₁) * inverse = slope at chord ⊢
  rw [chord, add_scaled_of_ne first_proper second_proper apart, toPoint_scaled denominator_ne]
  rfl

/-- Jacobian coordinates of points on the curve add up as the points do. -/
theorem toPoint_add {first second : Jacobian domain} (first_on : OnCurve first.toPoint)
    (second_on : OnCurve second.toPoint) :
    (add first second).toPoint = Point.add first.toPoint second.toPoint := by
  by_cases first_zero : first.z = 0
  · rw [add, if_pos first_zero, toPoint_of_zero first_zero]
    rfl
  by_cases second_zero : second.z = 0
  · rw [add, if_neg first_zero, if_pos second_zero, toPoint_of_zero second_zero]
    cases first.toPoint <;> rfl
  obtain ⟨x₁, y₁, first_eq⟩ := exists_scaled first_zero
  obtain ⟨x₂, y₂, second_eq⟩ := exists_scaled second_zero
  generalize first.z = z₁ at first_zero first_eq
  generalize second.z = z₂ at second_zero second_eq
  subst first_eq second_eq
  rw [toPoint_scaled first_zero] at first_on ⊢
  rw [toPoint_scaled second_zero] at second_on ⊢
  by_cases vertical : x₁ = x₂
  · subst vertical
    exact toPoint_add_of_eq first_zero second_zero (eq_or_add_eq_zero first_on second_on)
  · exact toPoint_add_of_ne first_zero second_zero vertical

end Jacobian

/-! ## Multiples of the base point -/

/-- The multiples that are worked out in Jacobian coordinates are those of the group. -/
theorem baseMultiple_eq {base : Element domain} (base_eq : ofElement base = Point.base domain)
    (count : Nat) : domain.baseMultiple count = ofElement (count • base) := by
  refine multiple_induction
    (motive := fun count (point : Jacobian domain) => point.toPoint = ofElement (count • base))
    ?_ ?_ ?_ count
  · rw [zero_nsmul]
    exact Jacobian.toPoint_of_zero rfl
  · have one_eq : Jacobian.ofPoint (Point.base domain) =
        Jacobian.scaled domain domain.baseX domain.baseY 1 := by
      simp [Jacobian.ofPoint, Point.base, Jacobian.scaled]
    rw [one_eq, one_nsmul, base_eq, Jacobian.toPoint_scaled one_ne_zero]
    rfl
  · intro first second left right left_eq right_eq
    rw [Jacobian.toPoint_add (left_eq ▸ onCurve_ofElement _) (right_eq ▸ onCurve_ofElement _),
      left_eq, right_eq, add_ofElement, add_nsmul]

end KeyTree.Weierstrass
