import KeyTree.Proofs.Curve.Weierstrass.Lawful

/-!
# No point of the Weierstrass curves is its own opposite

Such a point would have a root of the cubic as its abscissa.  Every element of the field is its own
power by the modulus, so the polynomial `X ^ modulus - X` vanishes at a root.  It has an inverse
modulo the cubic, and what has an inverse does not vanish at a root.
-/

namespace KeyTree.Weierstrass

open scoped PrimeField

/-- A polynomial modulo the cubic of a curve, by its coefficients. -/
structure Residue (domain : Weierstrass) where
  constant : Fin domain.modulus
  linear : Fin domain.modulus
  quadratic : Fin domain.modulus
  deriving DecidableEq

namespace Residue

variable {domain : Weierstrass}

/-- The polynomial `1`. -/
def one (domain : Weierstrass) : Residue domain := ⟨1, 0, 0⟩

/-- The polynomial `X`. -/
def unknown (domain : Weierstrass) : Residue domain := ⟨0, 1, 0⟩

/-- The difference of two polynomials. -/
def sub (first second : Residue domain) : Residue domain :=
  ⟨first.constant - second.constant, first.linear - second.linear,
    first.quadratic - second.quadratic⟩

/-- The product of two polynomials, with `X ^ 3` and `X ^ 4` reduced. -/
def mul (first second : Residue domain) : Residue domain :=
  let third := first.linear * second.quadratic + first.quadratic * second.linear
  let fourth := first.quadratic * second.quadratic
  ⟨first.constant * second.constant - domain.b * third,
    first.constant * second.linear + first.linear * second.constant - domain.a * third -
      domain.b * fourth,
    first.constant * second.quadratic + first.linear * second.linear +
      first.quadratic * second.constant - domain.a * fourth⟩

/-- The power of `X` by the modulus. -/
def frobenius (domain : Weierstrass) : Residue domain :=
  multipleWithin mul (one domain) (unknown domain) 256 domain.modulus

/-- The value of a polynomial. -/
def eval (residue : Residue domain) (x : Fin domain.modulus) : Fin domain.modulus :=
  residue.constant + residue.linear * x + residue.quadratic * (x * x)

variable [Smooth domain] {x : Fin domain.modulus}

theorem eval_one : (one domain).eval x = 1 := by
  simp only [one, eval]
  ring

theorem eval_unknown : (unknown domain).eval x = x := by
  simp only [unknown, eval]
  ring

theorem eval_sub (first second : Residue domain) :
    (sub first second).eval x = first.eval x - second.eval x := by
  simp only [sub, eval]
  ring

/-- At a root of the cubic, what is reduced has no weight. -/
theorem eval_mul (root : domain.cubic x = 0) (first second : Residue domain) :
    (mul first second).eval x = first.eval x * second.eval x := by
  simp only [cubic] at root
  simp only [mul, eval]
  linear_combination (-(first.linear * second.quadratic + first.quadratic * second.linear) -
    first.quadratic * second.quadratic * x) * root

theorem eval_frobenius (fits : domain.modulus < 2 ^ 256)
    (root : domain.cubic x = 0) : (frobenius domain).eval x = x := by
  have power : (multiple mul (one domain) (unknown domain) domain.modulus).eval x =
      x ^ domain.modulus := by
    refine multiple_induction (motive := fun count (residue : Residue domain) =>
      residue.eval x = x ^ count) ?_ ?_ ?_ domain.modulus
    · rw [eval_one, pow_zero]
    · rw [eval_unknown, pow_one]
    · intro first second left right left_eq right_eq
      rw [eval_mul root, left_eq, right_eq, pow_add]
  rw [frobenius, ← multiple_eq_multipleWithin fits, power, PrimeField.pow_modulus]

/-- An inverse of `X ^ modulus - X` leaves no room for a root. -/
theorem cubic_ne_zero (fits : domain.modulus < 2 ^ 256) (inverse : Residue domain)
    (inverse_mul : mul inverse (sub (frobenius domain) (unknown domain)) = one domain)
    (x : Fin domain.modulus) : domain.cubic x ≠ 0 := by
  intro root
  have one_eq := congrArg (eval · x) inverse_mul
  simp only [eval_mul root, eval_sub, eval_frobenius fits root, eval_unknown, sub_self, mul_zero,
    eval_one] at one_eq
  exact zero_ne_one one_eq

end Residue

theorem cubic_secp256k1_ne_zero (x : Fin secp256k1.modulus) : secp256k1.cubic x ≠ 0 := by
  refine Residue.cubic_ne_zero (by decide) ⟨0, 0,
    0x676072c51d36ab00c84deb078e4ba0feef17a1f9626d375046274e4ab01347c8⟩ ?_ x
  decide +kernel

theorem cubic_p256_ne_zero (x : Fin p256.modulus) : p256.cubic x ≠ 0 := by
  refine Residue.cubic_ne_zero (by decide) ⟨
    0xa969487079f1744798bf0de6fded091b66e9d328eb0645fe5d979d1339b7f47f,
    0xa4a08891884100c13323460107a8d28eede4387fa3e6e9bfebec9f6d72d0b5cc,
    0x4cde11cf86cb876cd59cf0115813c55af0ecd3cda667d98bb9a347a56aa74a6d⟩ ?_ x
  decide +kernel

end KeyTree.Weierstrass
