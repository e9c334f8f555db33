import KeyTree.Curve.PrimeField
import KeyTree.Proofs.Curve.Multiple
import Mathlib.FieldTheory.Finite.Basic

/-!
# The numbers below an odd prime form a field

Powers with the modulus in the exponent give inverses and square roots.
-/

namespace KeyTree.PrimeField

open scoped Fin.CommRing

/-- The modulus is a prime other than two. -/
class OddPrime (modulus : Nat) : Prop where
  prime : modulus.Prime
  two_lt : 2 < modulus

section Modulus

variable {modulus : Nat}

theorem withParity_eq_or_neg (odd : Bool) (root : Fin modulus) :
    withParity odd root = root ∨ withParity odd root = -root := by
  rw [withParity]
  split
  · exact .inl rfl
  · exact .inr rfl

variable [Modulus modulus]

theorem ofNat_ne_zero {number : Nat} (positive : 0 < number) (small : number < modulus) :
    Fin.ofNat modulus number ≠ 0 := by
  intro zero
  have value_eq : number % modulus = 0 := congrArg Fin.val zero
  rw [Nat.mod_eq_of_lt small] at value_eq
  omega

theorem power_eq_pow (element : Fin modulus) (exponent : Nat) :
    power element exponent = element ^ exponent := by
  refine multiple_induction (motive := fun count value => value = element ^ count)
    (pow_zero element).symm (pow_one element).symm ?_ exponent
  rintro first second left right rfl rfl
  rw [pow_add]

/-- A power by a structural recursion, for computations with exponents below `2 ^ 256`. -/
theorem pow_eq_multipleWithin (element : Fin modulus) {exponent : Nat}
    (fits : exponent < 2 ^ 256) :
    element ^ exponent = multipleWithin (· * ·) 1 element 256 exponent := by
  rw [← power_eq_pow, power, multiple_eq_multipleWithin fits]

theorem mul_self_of_squareRoot? {square root : Fin modulus}
    (found : squareRoot? square = some root) : root * root = square := by
  rw [squareRoot?] at found
  split at found
  · next square_eq =>
      cases found
      exact square_eq
  · contradiction

end Modulus

theorem odd_modulus {modulus : Nat} [odd_prime : OddPrime modulus] : modulus % 2 = 1 :=
  odd_prime.prime.eq_two_or_odd.resolve_left (Nat.ne_of_gt odd_prime.two_lt)

variable {modulus : Nat} [Modulus modulus] [odd_prime : OddPrime modulus]

/-- A power by the modulus changes nothing. -/
theorem pow_modulus (element : Fin modulus) : element ^ modulus = element := by
  have : Fact modulus.Prime := ⟨odd_prime.prime⟩
  apply (ZMod.finEquiv modulus).injective
  rw [map_pow, ZMod.pow_card]

theorem zero_ne_one : (0 : Fin modulus) ≠ 1 :=
  (ofNat_ne_zero one_pos (Nat.lt_of_succ_lt odd_prime.two_lt)).symm

theorem two_ne_zero : (2 : Fin modulus) ≠ 0 :=
  ofNat_ne_zero two_pos odd_prime.two_lt

theorem mul_inverse {element : Fin modulus} (nonzero : element ≠ 0) :
    element * inverse element = 1 := by
  have : Fact modulus.Prime := ⟨odd_prime.prime⟩
  have two_lt := odd_prime.two_lt
  have exponent_eq : modulus - 2 + 1 = modulus - 1 := by omega
  apply (ZMod.finEquiv modulus).injective
  rw [inverse, power_eq_pow, ← pow_succ', exponent_eq, map_pow, map_one]
  apply ZMod.pow_card_sub_one_eq_one
  simpa using nonzero

theorem inverse_zero : inverse (0 : Fin modulus) = 0 := by
  have two_lt := odd_prime.two_lt
  rw [inverse, power_eq_pow, zero_pow (by omega)]

/-- The field of the numbers below the modulus. -/
scoped instance field : Field (Fin modulus) :=
  { Fin.instCommRing modulus with
    inv := inverse
    div := fun numerator denominator => numerator * inverse denominator
    exists_pair_ne := ⟨0, 1, zero_ne_one⟩
    mul_inv_cancel := fun _ nonzero => mul_inverse nonzero
    inv_zero := inverse_zero
    nnqsmul := _
    nnqsmul_def := fun _ _ => rfl
    qsmul := _
    qsmul_def := fun _ _ => rfl }

theorem inverse_eq_inv (element : Fin modulus) : inverse element = element⁻¹ := rfl

/-! ## Square roots -/

/-- A square has a square root if the modulus leaves remainder three when divided by four. -/
theorem exists_squareRoot? (three : modulus % 4 = 3) (element : Fin modulus) :
    ∃ root, squareRoot? (element * element) = some root ∧ (root = element ∨ root = -element) := by
  have exponent_eq : (modulus + 1) / 4 + (modulus + 1) / 4 +
      ((modulus + 1) / 4 + (modulus + 1) / 4) = modulus + 1 := by omega
  have square_eq : power (element * element) ((modulus + 1) / 4) *
      power (element * element) ((modulus + 1) / 4) = element * element := by
    rw [power_eq_pow, mul_pow, ← pow_add, ← pow_add, exponent_eq, pow_succ, pow_modulus]
  refine ⟨power (element * element) ((modulus + 1) / 4), ?_, mul_self_eq_mul_self_iff.mp square_eq⟩
  simp only [squareRoot?, square_eq, ↓reduceIte]

/-! ## Parity -/

theorem isOdd_neg {element : Fin modulus} (nonzero : element ≠ 0) :
    isOdd (-element) = !isOdd element := by
  have modulus_odd : modulus % 2 = 1 := odd_modulus
  have value_lt := element.isLt
  have value_ne : element.val ≠ 0 := fun zero => nonzero (Fin.ext zero)
  have neg_eq : (-element).val = modulus - element.val := by
    rw [Fin.val_neg', Nat.mod_eq_of_lt (by omega)]
  rw [isOdd, isOdd, neg_eq, Bool.eq_iff_iff]
  simp only [beq_iff_eq, Bool.not_eq_true', beq_eq_false_iff_ne]
  omega

/-- The parity picks the same one of two opposite roots, whichever is given. -/
theorem withParity_neg (odd : Bool) (root : Fin modulus) :
    withParity odd (-root) = withParity odd root := by
  by_cases zero : root = 0
  · rw [zero, neg_zero]
  · rw [withParity, withParity, isOdd_neg zero]
    by_cases same : isOdd root = odd
    · rw [if_pos same, if_neg (by simp [same]), neg_neg]
    · have flipped : (!isOdd root) = odd := by
        cases odd <;> simpa using same
      rw [if_neg same, if_pos flipped]

/-- Of the two roots with the same square, the parity picks the one that it was taken from. -/
theorem withParity_isOdd {element root : Fin modulus} (same : root = element ∨ root = -element) :
    withParity (isOdd element) root = element := by
  have own : withParity (isOdd element) element = element := by
    rw [withParity, if_pos rfl]
  rcases same with rfl | rfl
  · exact own
  · rw [withParity_neg, own]

/-- Of two opposite roots, the one that is picked has the wanted parity. -/
theorem isOdd_withParity {odd : Bool} {root : Fin modulus} (nonzero : root ≠ 0) :
    isOdd (withParity odd root) = odd := by
  rw [withParity]
  split
  · next same => exact same
  · next different =>
      rw [isOdd_neg nonzero]
      cases odd <;> simpa using different

/-- Two elements with one square and one parity are equal. -/
theorem eq_of_mul_self_eq_of_isOdd_eq {first second : Fin modulus}
    (square_eq : first * first = second * second) (parity_eq : isOdd first = isOdd second) :
    first = second := by
  rcases mul_self_eq_mul_self_iff.mp square_eq with same | opposite
  · exact same
  · by_cases zero : second = 0
    · rw [opposite, zero, neg_zero]
    · rw [opposite, isOdd_neg zero] at parity_eq
      exact absurd parity_eq (Bool.not_ne_self _)

end KeyTree.PrimeField
