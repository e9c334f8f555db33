import KeyTree.Curve.Multiple
import Mathlib.Algebra.Group.Nat.Defs
import Mathlib.Data.Nat.Basic

/-!
# Multiples by doubling are multiples

A property that sums keep up holds of all multiples.  For long computations with fixed numbers there
is a second form of `multiple`, which recurs on a bound for the number of binary digits.
-/

namespace KeyTree

variable {carrier : Type} {join : carrier → carrier → carrier} {unit element : carrier}

/-- What holds of nothing and of one copy, and passes to sums, holds of every multiple. -/
theorem multiple_induction {motive : Nat → carrier → Prop} (zero : motive 0 unit)
    (one : motive 1 element)
    (add : ∀ {first second left right}, motive first left → motive second right →
      motive (first + second) (join left right)) (count : Nat) :
    motive count (multiple join unit element count) := by
  induction count using Nat.strong_induction_on with
  | h count ih =>
      rw [multiple]
      by_cases none : count = 0
      · rw [if_pos none, none]
        exact zero
      · rw [if_neg none]
        have half := ih (count / 2) (by omega)
        have double := add half half
        by_cases even : count % 2 = 0
        · have count_eq : count / 2 + count / 2 = count := by omega
          simp only [even, ↓reduceIte]
          rwa [count_eq] at double
        · have count_eq : count / 2 + count / 2 + 1 = count := by omega
          have more := add double one
          simp only [even, ↓reduceIte]
          rwa [count_eq] at more

/-- The multiple by a number of at most so many binary digits. -/
def multipleWithin (join : carrier → carrier → carrier) (unit element : carrier) :
    Nat → Nat → carrier
  | 0, _ => unit
  | digits + 1, count =>
      if count = 0 then unit
      else
        let half := multipleWithin join unit element digits (count / 2)
        let double := join half half
        if count % 2 = 0 then double else join double element

theorem multiple_eq_multipleWithin {digits count : Nat} (fits : count < 2 ^ digits) :
    multiple join unit element count = multipleWithin join unit element digits count := by
  induction digits generalizing count with
  | zero =>
      obtain rfl : count = 0 := Nat.lt_one_iff.mp fits
      rw [multiple, if_pos rfl, multipleWithin]
  | succ digits ih =>
      have half_fits : count / 2 < 2 ^ digits := by
        rw [Nat.pow_succ] at fits
        omega
      rw [multiple, multipleWithin, ih half_fits]

end KeyTree
