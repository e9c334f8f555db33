import KeyTree.Proofs.Curve.Weierstrass.Rootless
import KeyTree.Proofs.Group.Generated

/-!
# The points of the Weierstrass curves are generated by the base point

At each abscissa there are at most two points, which differ in the parity of the ordinate, so there
are at most twice as many finite points as coordinates.  This is less than three times the order,
and no point has order two.
-/

namespace KeyTree.Weierstrass

open scoped PrimeField

variable {domain : Weierstrass} [Smooth domain]

/-! ## The number of points -/

/-- The abscissa of a finite point, and the parity of its ordinate. -/
def abscissaAndParity? : Element domain → Option (Fin domain.modulus × Bool)
  | .zero => none
  | .some x y _ => some (x, PrimeField.isOdd y)

theorem abscissaAndParity?_injective :
    Function.Injective (abscissaAndParity? : Element domain → _) := by
  intro first second same
  cases first with
  | zero =>
      cases second with
      | zero => rfl
      | some x y proper => contradiction
  | some x y proper =>
      cases second with
      | zero => contradiction
      | some x' y' proper' =>
          obtain ⟨rfl, parity_eq⟩ := Prod.mk.inj (Option.some.inj same)
          have square_eq : y * y = y' * y' :=
            (nonsingular_iff.mp proper).trans (nonsingular_iff.mp proper').symm
          obtain rfl := PrimeField.eq_of_mul_self_eq_of_isOdd_eq square_eq parity_eq
          rfl

instance : Finite (Element domain) :=
  Finite.of_injective _ abscissaAndParity?_injective

theorem natCard_le : Nat.card (Element domain) ≤ 2 * domain.modulus + 1 := by
  rw [← natCard_prod_bool, ← Finite.card_option]
  exact Nat.card_le_card_of_injective _ abscissaAndParity?_injective

/-! ## The orders of points -/

/-- If the cubic has no root, no element but zero is its own opposite. -/
theorem eq_zero_of_add_self (rootless : ∀ x, domain.cubic x ≠ 0) {element : Element domain}
    (double_eq : element + element = 0) : element = 0 := by
  cases element with
  | zero => rfl
  | some x y proper =>
      have opposite_eq := eq_neg_of_add_eq_zero_left double_eq
      rw [WeierstrassCurve.Affine.Point.neg_some] at opposite_eq
      obtain ⟨-, y_eq⟩ := WeierstrassCurve.Affine.Point.some.inj opposite_eq
      rw [negY_eq] at y_eq
      have twice_eq : 2 * y = 0 := by linear_combination y_eq
      have y_zero : y = 0 := (mul_eq_zero.mp twice_eq).resolve_left PrimeField.two_ne_zero
      have on : y * y = domain.cubic x := nonsingular_iff.mp proper
      rw [y_zero, mul_zero] at on
      exact absurd on.symm (rootless x)

theorem three_le_addOrderOf (rootless : ∀ x, domain.cubic x ≠ 0) {element : Element domain}
    (prime : (addOrderOf element).Prime) : 3 ≤ addOrderOf element := by
  have two_le := prime.two_le
  by_contra small
  have order_eq : addOrderOf element = 2 := by omega
  have double_eq := addOrderOf_nsmul_eq_zero element
  rw [order_eq, two_nsmul] at double_eq
  rw [eq_zero_of_add_self rootless double_eq, addOrderOf_zero] at order_eq
  contradiction

/-- If there are few coordinates and the cubic has no root, the finite points are generated. -/
theorem Sound.generated_iff (sound : domain.Sound) (rootless : ∀ x, domain.cubic x ≠ 0)
    (few : 2 * domain.modulus + 1 < 3 * domain.order) (curve : Curve)
    {order_pos : 0 < domain.order} {order_le : domain.order ≤ ByteOrder.capacity 32}
    {point : (Curve.weierstrassGroup curve domain order_pos order_le).Point} :
    CurveGroup.Generated point ↔
      @OnCurve domain point ∧ @Point.isInfinity domain point = false := by
  obtain ⟨base, base_eq⟩ := exists_ofElement sound.base_on
  have embeds : (Curve.weierstrassGroup curve domain order_pos order_le).Embeds ofElement base :=
    sound.embeds curve base_eq
  have order_eq : addOrderOf base = domain.order := embeds.addOrderOf_base
  have card_lt : Nat.card (Element domain) < 3 * addOrderOf base := by
    rw [order_eq]
    exact Nat.lt_of_le_of_lt natCard_le few
  have card_eq : Nat.card (Element domain) = domain.order := by
    rw [← order_eq]
    exact natCard_eq_addOrderOf card_lt fun _ => three_le_addOrderOf rootless
  rw [embeds.generated_iff card_eq]
  constructor
  · rintro ⟨element, nonzero, rfl⟩
    have finite := Bool.eq_false_iff.mpr (mt (isInfinity_ofElement element).mp nonzero)
    exact ⟨onCurve_ofElement element, finite⟩
  · rintro ⟨on, finite⟩
    obtain ⟨element, rfl⟩ := exists_ofElement on
    exact ⟨element, mt (isInfinity_ofElement element).mpr (Bool.eq_false_iff.mp finite), rfl⟩

end KeyTree.Weierstrass
