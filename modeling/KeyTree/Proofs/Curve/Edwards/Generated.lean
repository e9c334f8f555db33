import KeyTree.Proofs.Curve.Edwards.Lawful
import KeyTree.Proofs.Group.Generated

/-!
# The subgroup of prime order of the Edwards curve is generated by the base point

At each ordinate there are at most two points, which differ in the parity of the abscissa.  So the
curve has fewer points than the square of the order, and the subgroup has no more elements than
there are multiples of the base point.
-/

namespace KeyTree.Edwards

open scoped PrimeField

/-! ## The number of points -/

/-- The ordinate of a point, and the parity of its abscissa. -/
def ordinateAndParity (element : Element) : Fin modulus × Bool :=
  (element.point.y, PrimeField.isOdd element.point.x)

/-- Two points with one ordinate have the same abscissa up to the sign. -/
theorem abscissa_mul_self_eq {first second : Point} (first_on : first.OnCurve)
    (second_on : second.OnCurve) (y_eq : first.y = second.y) :
    first.x * first.x = second.x * second.x := by
  simp only [Point.OnCurve, Satisfies] at first_on second_on
  rw [y_eq] at first_on
  apply mul_left_cancel₀ (Point.abscissa_denominator_ne second.y)
  linear_combination second_on - first_on

theorem ordinateAndParity_injective : Function.Injective ordinateAndParity := by
  intro first second same
  obtain ⟨y_eq, parity_eq⟩ := Prod.mk.inj same
  have square_eq := abscissa_mul_self_eq first.on second.on y_eq
  have x_eq := PrimeField.eq_of_mul_self_eq_of_isOdd_eq square_eq parity_eq
  exact Element.ext (Point.eq_of_coordinates x_eq y_eq)

instance : Finite Element :=
  Finite.of_injective _ ordinateAndParity_injective

theorem natCard_le : Nat.card Element ≤ 2 * modulus := by
  rw [← natCard_prod_bool]
  exact Nat.card_le_card_of_injective _ ordinateAndParity_injective

/-! ## The subgroup -/

theorem order_le_addOrderOf {element : primeSubgroup} (prime : (addOrderOf element).Prime) :
    order ≤ addOrderOf element := by
  have period : order • element = 0 := Subtype.ext element.property
  have divides := addOrderOf_dvd_of_nsmul_eq_zero period
  rcases (Nat.dvd_prime prime_order).mp divides with one | whole
  · exact absurd one prime.ne_one
  · rw [whole]

theorem natCard_primeSubgroup : Nat.card primeSubgroup = order := by
  have order_eq : addOrderOf baseElement = order := Curve.ed25519Group_embeds.addOrderOf_base
  have points_le : Nat.card primeSubgroup ≤ Nat.card Element :=
    Nat.card_le_card_of_injective _ Subtype.val_injective
  have square_lt : 2 * modulus < order * order := by decide
  have card_lt : Nat.card primeSubgroup < order * addOrderOf baseElement := by
    rw [order_eq]
    exact Nat.lt_of_le_of_lt (points_le.trans natCard_le) square_lt
  rw [← order_eq]
  exact natCard_eq_addOrderOf card_lt fun _ => order_le_addOrderOf

/-- The points of the subgroup other than the identity are generated. -/
theorem generated_iff {point : Curve.ed25519Group.Point} :
    CurveGroup.Generated point ↔
      ∃ element : Element, element.point = point ∧ order • element = 0 ∧ element ≠ 0 := by
  rw [Curve.ed25519Group_embeds.generated_iff natCard_primeSubgroup]
  constructor
  · rintro ⟨element, nonzero, rfl⟩
    exact ⟨element.val, rfl, element.property, fun zero => nonzero (Subtype.ext zero)⟩
  · rintro ⟨element, rfl, period, nonzero⟩
    exact ⟨⟨element, period⟩, fun zero => nonzero (congrArg Subtype.val zero), rfl⟩

end KeyTree.Edwards
