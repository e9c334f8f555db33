import Mathlib.Algebra.Ring.Basic
import Mathlib.Tactic.LinearCombination

/-!
# Identities of the Edwards addition law

The sum of two points has the numerators `cross` and `dot` over one plus and one minus the `mixed`
product of all coordinates.  The identities of this file hold modulo the equations of the points;
the laws of the group come down to them once the denominators are known not to be zero.
-/

namespace KeyTree.Edwards

variable {ring : Type} [CommRing ring]

/-- The equation of the curve with this coefficient. -/
def Satisfies (d x y : ring) : Prop :=
  y * y - x * x = 1 + d * (x * x) * (y * y)

/-- The product of the coefficient and all coordinates of two points. -/
def mixed (d x₁ y₁ x₂ y₂ : ring) : ring :=
  d * x₁ * x₂ * y₁ * y₂

/-- The numerator of the abscissa of a sum. -/
def cross (x₁ y₁ x₂ y₂ : ring) : ring :=
  x₁ * y₂ + x₂ * y₁

/-- The numerator of the ordinate of a sum. -/
def dot (x₁ y₁ x₂ y₂ : ring) : ring :=
  y₁ * y₂ + x₁ * x₂

/-- The product of both denominators of a sum. -/
def denominators (d x₁ y₁ x₂ y₂ : ring) : ring :=
  (1 + mixed d x₁ y₁ x₂ y₂) * (1 - mixed d x₁ y₁ x₂ y₂)

/-- The mixed product of a sum and a third point, times the denominators of the sum. -/
def mixedSum (d x₁ y₁ x₂ y₂ x₃ y₃ : ring) : ring :=
  d * cross x₁ y₁ x₂ y₂ * dot x₁ y₁ x₂ y₂ * x₃ * y₃

/-- The numerator of the abscissa of a sum and a third point, times the denominators of the sum. -/
def crossSum (d x₁ y₁ x₂ y₂ x₃ y₃ : ring) : ring :=
  cross x₁ y₁ x₂ y₂ * (1 - mixed d x₁ y₁ x₂ y₂) * y₃ +
    x₃ * dot x₁ y₁ x₂ y₂ * (1 + mixed d x₁ y₁ x₂ y₂)

/-- The numerator of the ordinate of a sum and a third point, times the denominators of the sum. -/
def dotSum (d x₁ y₁ x₂ y₂ x₃ y₃ : ring) : ring :=
  dot x₁ y₁ x₂ y₂ * (1 + mixed d x₁ y₁ x₂ y₂) * y₃ +
    cross x₁ y₁ x₂ y₂ * (1 - mixed d x₁ y₁ x₂ y₂) * x₃

variable {d x₁ y₁ x₂ y₂ x₃ y₃ : ring}

/--
If the mixed product were a sign, a multiple of the coefficient by a square would be a square.
-/
theorem coefficient_mul_square {unit : ring} (unit_eq : unit * unit = -1)
    (first : Satisfies d x₁ y₁) (second : Satisfies d x₂ y₂)
    (sign : mixed d x₁ y₁ x₂ y₂ * mixed d x₁ y₁ x₂ y₂ = 1) :
    d * (x₁ * y₁ * (unit * x₂ + y₂)) * (x₁ * y₁ * (unit * x₂ + y₂)) =
      (unit * x₁ + mixed d x₁ y₁ x₂ y₂ * y₁) * (unit * x₁ + mixed d x₁ y₁ x₂ y₂ * y₁) := by
  rw [Satisfies] at first second
  simp only [mixed] at sign ⊢
  linear_combination (d * (x₁ * y₁) ^ 2 * x₂ ^ 2 - x₁ ^ 2) * unit_eq +
    d * (x₁ * y₁) ^ 2 * second - first + (1 - y₁ ^ 2) * sign

/-- The equation of the curve for a sum, cleared of the denominators. -/
theorem satisfies_sum (first : Satisfies d x₁ y₁) (second : Satisfies d x₂ y₂) :
    (dot x₁ y₁ x₂ y₂ * (1 + mixed d x₁ y₁ x₂ y₂)) ^ 2 -
        (cross x₁ y₁ x₂ y₂ * (1 - mixed d x₁ y₁ x₂ y₂)) ^ 2 =
      denominators d x₁ y₁ x₂ y₂ ^ 2 + d * (cross x₁ y₁ x₂ y₂ * dot x₁ y₁ x₂ y₂) ^ 2 := by
  rw [Satisfies] at first second
  simp only [denominators, dot, cross, mixed]
  -- Either equation lets the difference of squares stand for one plus this product.
  let product₁ := d * (x₁ * y₁) ^ 2
  let product₂ := d * (x₂ * y₂) ^ 2
  linear_combination
    ((y₂ ^ 2 - x₂ ^ 2) * (1 + product₁ * product₂) -
      product₂ * (y₁ ^ 2 - x₁ ^ 2 + 1 + product₁)) * first +
    ((1 + product₁) * (1 + product₁ * product₂) -
      product₁ * (y₂ ^ 2 - x₂ ^ 2 + 1 + product₂)) * second

/-- The abscissas of both ways to bracket three points, cleared of the denominators. -/
theorem crossSum_rotate (first : Satisfies d x₁ y₁) (second : Satisfies d x₂ y₂)
    (third : Satisfies d x₃ y₃) :
    crossSum d x₁ y₁ x₂ y₂ x₃ y₃ *
        (denominators d x₂ y₂ x₃ y₃ + mixedSum d x₂ y₂ x₃ y₃ x₁ y₁) =
      crossSum d x₂ y₂ x₃ y₃ x₁ y₁ *
        (denominators d x₁ y₁ x₂ y₂ + mixedSum d x₁ y₁ x₂ y₂ x₃ y₃) := by
  rw [Satisfies] at first second third
  simp only [crossSum, denominators, mixedSum, cross, dot, mixed]
  linear_combination
    d * (x₂ * y₂) * (x₃ * y₃) *
      (x₁ * ((y₂ * y₃ + x₂ * x₃) * (1 + d * x₂ * x₃ * y₂ * y₃)) -
        y₁ * ((x₂ * y₃ + x₃ * y₂) * (1 - d * x₂ * x₃ * y₂ * y₃))) * first -
    d ^ 2 * (x₁ * y₁) * (x₂ * y₂) * (x₃ * y₃) *
      (x₁ * y₁ * (x₁ * (y₂ * y₃ + x₂ * x₃) - y₁ * (x₂ * y₃ + x₃ * y₂)) -
        x₃ * y₃ * (x₃ * (y₁ * y₂ + x₁ * x₂) - y₃ * (x₁ * y₂ + x₂ * y₁))) * second -
    d * (x₁ * y₁) * (x₂ * y₂) *
      (x₃ * ((y₁ * y₂ + x₁ * x₂) * (1 + d * x₁ * x₂ * y₁ * y₂)) -
        y₃ * ((x₁ * y₂ + x₂ * y₁) * (1 - d * x₁ * x₂ * y₁ * y₂))) * third

/-- The ordinates of both ways to bracket three points, cleared of the denominators. -/
theorem dotSum_rotate (first : Satisfies d x₁ y₁) (second : Satisfies d x₂ y₂)
    (third : Satisfies d x₃ y₃) :
    dotSum d x₁ y₁ x₂ y₂ x₃ y₃ *
        (denominators d x₂ y₂ x₃ y₃ - mixedSum d x₂ y₂ x₃ y₃ x₁ y₁) =
      dotSum d x₂ y₂ x₃ y₃ x₁ y₁ *
        (denominators d x₁ y₁ x₂ y₂ - mixedSum d x₁ y₁ x₂ y₂ x₃ y₃) := by
  rw [Satisfies] at first second third
  simp only [dotSum, denominators, mixedSum, cross, dot, mixed]
  linear_combination
    d * (x₂ * y₂) * (x₃ * y₃) *
      (y₁ * ((y₂ * y₃ + x₂ * x₃) * (1 + d * x₂ * x₃ * y₂ * y₃)) -
        x₁ * ((x₂ * y₃ + x₃ * y₂) * (1 - d * x₂ * x₃ * y₂ * y₃))) * first -
    d ^ 2 * (x₁ * y₁) * (x₂ * y₂) * (x₃ * y₃) *
      (x₁ * y₁ * (y₁ * (y₂ * y₃ + x₂ * x₃) - x₁ * (x₂ * y₃ + x₃ * y₂)) -
        x₃ * y₃ * (y₃ * (y₁ * y₂ + x₁ * x₂) - x₃ * (x₁ * y₂ + x₂ * y₁))) * second -
    d * (x₁ * y₁) * (x₂ * y₂) *
      (y₃ * ((y₁ * y₂ + x₁ * x₂) * (1 + d * x₁ * x₂ * y₁ * y₂)) -
        x₃ * ((x₁ * y₂ + x₂ * y₁) * (1 - d * x₁ * x₂ * y₁ * y₂))) * third

end KeyTree.Edwards
