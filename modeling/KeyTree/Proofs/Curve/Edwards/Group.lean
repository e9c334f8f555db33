import KeyTree.Curve.Edwards
import KeyTree.Proofs.Curve.Edwards.Law
import KeyTree.Proofs.Curve.Moduli
import KeyTree.Proofs.Curve.PrimeField
import Mathlib.Algebra.Group.MinimalAxioms

/-!
# The points of the Edwards curve are a group

The denominators of the addition law are never zero, since minus one has a square root and the
coefficient of the curve has none.  So all points have exactly one sum, and the laws of a group
follow from the identities of the addition law.
-/

namespace KeyTree.Edwards

open scoped PrimeField

instance oddPrime_modulus : PrimeField.OddPrime modulus where
  prime := prime_modulus
  two_lt := by decide

/-! ## The coefficient -/

theorem imaginaryUnit_mul_self : imaginaryUnit * imaginaryUnit = -1 := by
  have unit_eq : imaginaryUnit = multipleWithin (· * ·) 1 2 256 ((modulus - 1) / 4) :=
    multiple_eq_multipleWithin (by decide)
  rw [unit_eq]
  decide +kernel

theorem coefficient_pow : coefficient ^ ((modulus - 1) / 2) = -1 := by
  rw [PrimeField.pow_eq_multipleWithin _ (by decide)]
  decide +kernel

theorem pow_modulus_sub_one {element : Fin modulus} (nonzero : element ≠ 0) :
    element ^ (modulus - 1) = 1 := by
  apply mul_right_cancel₀ nonzero
  rw [← pow_succ, one_mul]
  exact PrimeField.pow_modulus element

/-- The coefficient has no square root. -/
theorem mul_self_ne_coefficient (root : Fin modulus) : root * root ≠ coefficient := by
  intro square_eq
  have nonzero : root ≠ 0 := by
    rintro rfl
    have coefficient_ne : (0 : Fin modulus) * 0 ≠ coefficient := by decide
    exact coefficient_ne square_eq
  have exponent_eq : (modulus - 1) / 2 + (modulus - 1) / 2 = modulus - 1 := by decide
  have minus_one := coefficient_pow
  rw [← square_eq, mul_pow, ← pow_add, exponent_eq, pow_modulus_sub_one nonzero] at minus_one
  have one_ne : (1 : Fin modulus) ≠ -1 := by decide
  exact one_ne minus_one

/-! ## Sums of points -/

namespace Point

/-- A point satisfies the equation of the curve. -/
def OnCurve (point : Point) : Prop :=
  Satisfies coefficient point.x point.y

/-- The mixed product of two points. -/
def mixed (first second : Point) : Fin modulus :=
  Edwards.mixed coefficient first.x first.y second.x second.y

/-- A point is the sum of two others by the addition law. -/
structure SumsTo (first second sum : Point) : Prop where
  abscissa : sum.x * (1 + mixed first second) = cross first.x first.y second.x second.y
  ordinate : sum.y * (1 - mixed first second) = dot first.x first.y second.x second.y

theorem eq_of_coordinates {first second : Point} (x_eq : first.x = second.x)
    (y_eq : first.y = second.y) : first = second := by
  cases first
  cases second
  exact congrArg₂ Point.mk x_eq y_eq

theorem eq_zero_of_mul_square {value root : Fin modulus}
    (same : coefficient * value * value = root * root) : value = 0 := by
  by_contra nonzero
  have inverse_eq := PrimeField.mul_inverse nonzero
  apply mul_self_ne_coefficient (root * PrimeField.inverse value)
  linear_combination (-PrimeField.inverse value * PrimeField.inverse value) * same +
    coefficient * (value * PrimeField.inverse value + 1) * inverse_eq

variable {first second third : Point}

/-- The mixed product of two points of the curve is not a sign. -/
theorem mixed_mul_self_ne (first_on : first.OnCurve) (second_on : second.OnCurve) :
    mixed first second * mixed first second ≠ 1 := by
  intro sign
  have negated_eq : -imaginaryUnit * -imaginaryUnit = -1 := by
    rw [neg_mul_neg, imaginaryUnit_mul_self]
  have plus := eq_zero_of_mul_square
    (coefficient_mul_square imaginaryUnit_mul_self first_on second_on sign)
  have minus := eq_zero_of_mul_square
    (coefficient_mul_square negated_eq first_on second_on sign)
  have vanishes : 2 * (first.x * first.y * second.y) = 0 := by
    linear_combination plus + minus
  have product_eq : first.x * first.y * second.y = 0 :=
    (mul_eq_zero.mp vanishes).resolve_left PrimeField.two_ne_zero
  have mixed_eq : mixed first second = 0 := by
    simp only [mixed, Edwards.mixed]
    linear_combination coefficient * second.x * product_eq
  rw [mixed_eq, mul_zero] at sign
  exact zero_ne_one sign

theorem one_add_mixed_ne (first_on : first.OnCurve) (second_on : second.OnCurve) :
    1 + mixed first second ≠ 0 := by
  intro zero
  apply mixed_mul_self_ne first_on second_on
  linear_combination (mixed first second - 1) * zero

theorem one_sub_mixed_ne (first_on : first.OnCurve) (second_on : second.OnCurve) :
    1 - mixed first second ≠ 0 := by
  intro zero
  apply mixed_mul_self_ne first_on second_on
  linear_combination -(mixed first second + 1) * zero

/-- Two points of the curve have a sum. -/
theorem exists_sumsTo (first_on : first.OnCurve) (second_on : second.OnCurve) :
    ∃ sum, SumsTo first second sum := by
  have plus_eq := PrimeField.mul_inverse (one_add_mixed_ne first_on second_on)
  have minus_eq := PrimeField.mul_inverse (one_sub_mixed_ne first_on second_on)
  refine ⟨⟨cross first.x first.y second.x second.y *
      PrimeField.inverse (1 + mixed first second),
    dot first.x first.y second.x second.y *
      PrimeField.inverse (1 - mixed first second)⟩, ?_, ?_⟩
  · linear_combination cross first.x first.y second.x second.y * plus_eq
  · linear_combination dot first.x first.y second.x second.y * minus_eq

/-- Two points of the curve have one sum only. -/
theorem SumsTo.unique {sum other : Point} (sums : SumsTo first second sum)
    (others : SumsTo first second other) (first_on : first.OnCurve)
    (second_on : second.OnCurve) : sum = other := by
  have plus_ne := one_add_mixed_ne first_on second_on
  have minus_ne := one_sub_mixed_ne first_on second_on
  have x_eq := mul_right_cancel₀ plus_ne (sums.abscissa.trans others.abscissa.symm)
  have y_eq := mul_right_cancel₀ minus_ne (sums.ordinate.trans others.ordinate.symm)
  exact eq_of_coordinates x_eq y_eq

theorem SumsTo.comm {sum : Point} (sums : SumsTo first second sum) :
    SumsTo second first sum := by
  obtain ⟨abscissa, ordinate⟩ := sums
  simp only [cross, mixed, Edwards.mixed] at abscissa
  simp only [dot, mixed, Edwards.mixed] at ordinate
  constructor
  · simp only [cross, mixed, Edwards.mixed]
    linear_combination abscissa
  · simp only [dot, mixed, Edwards.mixed]
    linear_combination ordinate

/-- The sum of two points of the curve is on the curve. -/
theorem SumsTo.onCurve {sum : Point} (sums : SumsTo first second sum) (first_on : first.OnCurve)
    (second_on : second.OnCurve) : sum.OnCurve := by
  have plus_ne := one_add_mixed_ne first_on second_on
  have minus_ne := one_sub_mixed_ne first_on second_on
  have cleared := satisfies_sum first_on second_on
  obtain ⟨abscissa, ordinate⟩ := sums
  apply mul_left_cancel₀ (pow_ne_zero 2 (mul_ne_zero plus_ne minus_ne))
  simp only [denominators] at cleared
  rw [← abscissa, ← ordinate] at cleared
  simp only [mixed] at cleared ⊢
  linear_combination cleared

/-! ## Sums of three points -/

section Three

variable {sum total : Point}

/-- The denominators of a sum of three points are those of both sums. -/
theorem SumsTo.denominators_eq (sums : SumsTo first second sum) :
    denominators coefficient first.x first.y second.x second.y * mixed sum third =
      mixedSum coefficient first.x first.y second.x second.y third.x third.y := by
  obtain ⟨abscissa, ordinate⟩ := sums
  simp only [denominators, mixedSum]
  rw [← abscissa, ← ordinate]
  simp only [mixed, Edwards.mixed]
  ring

theorem SumsTo.crossSum_eq (sums : SumsTo first second sum) (totals : SumsTo sum third total) :
    total.x * (denominators coefficient first.x first.y second.x second.y +
        mixedSum coefficient first.x first.y second.x second.y third.x third.y) =
      crossSum coefficient first.x first.y second.x second.y third.x third.y := by
  have outer := totals.abscissa
  rw [← sums.denominators_eq]
  obtain ⟨abscissa, ordinate⟩ := sums
  simp only [denominators, crossSum]
  rw [← abscissa, ← ordinate]
  simp only [mixed, cross] at *
  linear_combination ((1 + Edwards.mixed coefficient first.x first.y second.x second.y) *
    (1 - Edwards.mixed coefficient first.x first.y second.x second.y)) * outer

theorem SumsTo.dotSum_eq (sums : SumsTo first second sum) (totals : SumsTo sum third total) :
    total.y * (denominators coefficient first.x first.y second.x second.y -
        mixedSum coefficient first.x first.y second.x second.y third.x third.y) =
      dotSum coefficient first.x first.y second.x second.y third.x third.y := by
  have outer := totals.ordinate
  rw [← sums.denominators_eq]
  obtain ⟨abscissa, ordinate⟩ := sums
  simp only [denominators, dotSum]
  rw [← abscissa, ← ordinate]
  simp only [mixed, dot] at *
  linear_combination ((1 + Edwards.mixed coefficient first.x first.y second.x second.y) *
    (1 - Edwards.mixed coefficient first.x first.y second.x second.y)) * outer

/-- Neither denominator of a sum of three points is zero. -/
theorem SumsTo.denominators_ne (sums : SumsTo first second sum) (first_on : first.OnCurve)
    (second_on : second.OnCurve) (third_on : third.OnCurve) :
    denominators coefficient first.x first.y second.x second.y +
        mixedSum coefficient first.x first.y second.x second.y third.x third.y ≠ 0 ∧
      denominators coefficient first.x first.y second.x second.y -
        mixedSum coefficient first.x first.y second.x second.y third.x third.y ≠ 0 := by
  have inner_ne : denominators coefficient first.x first.y second.x second.y ≠ 0 :=
    mul_ne_zero (one_add_mixed_ne first_on second_on) (one_sub_mixed_ne first_on second_on)
  have sum_on := sums.onCurve first_on second_on
  rw [← sums.denominators_eq, ← mul_one_add, ← mul_one_sub]
  exact ⟨mul_ne_zero inner_ne (one_add_mixed_ne sum_on third_on),
    mul_ne_zero inner_ne (one_sub_mixed_ne sum_on third_on)⟩

/-- Three points have the same sum however they are bracketed. -/
theorem SumsTo.assoc {other otherTotal : Point} (first_on : first.OnCurve)
    (second_on : second.OnCurve) (third_on : third.OnCurve) (sums : SumsTo first second sum)
    (totals : SumsTo sum third total) (others : SumsTo second third other)
    (otherTotals : SumsTo first other otherTotal) : total = otherTotal := by
  obtain ⟨left_plus, left_minus⟩ := sums.denominators_ne first_on second_on third_on
  obtain ⟨right_plus, right_minus⟩ := others.denominators_ne second_on third_on first_on
  -- The second bracketing is the first one of the points in rotated order.
  have left_x := sums.crossSum_eq totals
  have left_y := sums.dotSum_eq totals
  have right_x := others.crossSum_eq otherTotals.comm
  have right_y := others.dotSum_eq otherTotals.comm
  have x_rotate := crossSum_rotate first_on second_on third_on
  have y_rotate := dotSum_rotate first_on second_on third_on
  rw [← left_x, ← right_x] at x_rotate
  rw [← left_y, ← right_y] at y_rotate
  have x_eq : total.x = otherTotal.x :=
    mul_right_cancel₀ (mul_ne_zero left_plus right_plus) (by linear_combination x_rotate)
  have y_eq : total.y = otherTotal.y :=
    mul_right_cancel₀ (mul_ne_zero left_minus right_minus) (by linear_combination y_rotate)
  exact eq_of_coordinates x_eq y_eq

end Three

end Point

end KeyTree.Edwards
