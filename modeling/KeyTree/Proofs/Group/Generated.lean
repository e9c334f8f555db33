import KeyTree.Proofs.Group.Embedding
import Mathlib.GroupTheory.Perm.Cycle.Type
import Mathlib.GroupTheory.SpecificGroups.Cyclic.Basic

/-!
# Groups that the base point generates

The order of the base point divides the number of elements.  If there are few elements, and none of
them has a small prime order, then the two numbers are equal and every element is a multiple of the
base point.
-/

namespace KeyTree

theorem natCard_eq_addOrderOf {Element : Type} [AddCommGroup Element] [Finite Element]
    {base : Element} {bound : Nat} (few : Nat.card Element < bound * addOrderOf base)
    (rough : ∀ element : Element, (addOrderOf element).Prime → bound ≤ addOrderOf element) :
    Nat.card Element = addOrderOf base := by
  obtain ⟨cofactor, card_eq⟩ := addOrderOf_dvd_natCard base
  have cofactor_lt : cofactor < bound := by
    rw [card_eq, mul_comm] at few
    exact Nat.lt_of_mul_lt_mul_right few
  have card_pos : 0 < Nat.card Element := Nat.card_pos
  have cofactor_pos : 0 < cofactor := by
    rw [card_eq] at card_pos
    exact Nat.pos_of_mul_pos_left card_pos
  have cofactor_eq : cofactor = 1 := by
    by_contra proper
    have : Fact cofactor.minFac.Prime := ⟨Nat.minFac_prime proper⟩
    have divides : cofactor.minFac ∣ Nat.card Element := by
      rw [card_eq]
      exact Dvd.dvd.mul_left cofactor.minFac_dvd _
    obtain ⟨element, order_eq⟩ := exists_prime_addOrderOf_dvd_card' cofactor.minFac divides
    have large := rough element (by rw [order_eq]; exact Nat.minFac_prime proper)
    rw [order_eq] at large
    exact absurd (Nat.minFac_le cofactor_pos) (by omega)
  rw [card_eq, cofactor_eq, mul_one]

/-- A coordinate and a parity can be chosen in twice as many ways as the coordinate. -/
theorem natCard_prod_bool (modulus : Nat) : Nat.card (Fin modulus × Bool) = 2 * modulus := by
  have bool_eq : Nat.card Bool = 2 := Nat.card_eq_fintype_card
  rw [Nat.card_prod, Nat.card_fin, bool_eq, mul_comm]

namespace CurveGroup

variable {group : CurveGroup}

/-- A multiple of the base point other than the identity. -/
def Generated (point : group.Point) : Prop :=
  ∃ scalar : group.Scalar, scalar.val ≠ 0 ∧ group.timesBase scalar = point

/--
The bytes that denote a point are read as it exactly if the point is a multiple of the base point
other than the identity.
-/
structure Reads (group : CurveGroup) (denotes : List UInt8 → group.Point → Prop) : Prop where
  decode?_iff : ∀ {bytes : List UInt8} {point : group.Point},
    group.decode? bytes = some point ↔ denotes bytes point ∧ Generated point
  /-- No bytes denote two points. -/
  unique : ∀ {bytes : List UInt8} {first second : group.Point}, denotes bytes first →
    denotes bytes second → first = second

variable {Element : Type} [AddCommGroup Element] {embed : Element → group.Point} {base : Element}

/-- In a group with as many elements as the order, all but zero are generated. -/
theorem Embeds.generated_iff (embeds : group.Embeds embed base)
    (card_eq : Nat.card Element = group.order) {point : group.Point} :
    Generated point ↔ ∃ element, element ≠ 0 ∧ embed element = point := by
  constructor
  · rintro ⟨scalar, nonzero, rfl⟩
    exact ⟨scalar.val • base, mt (embeds.nsmul_eq_zero_iff scalar).mp nonzero,
      (embeds.baseMultiple_eq scalar.val).symm⟩
  · rintro ⟨element, nonzero, rfl⟩
    have : Fact group.order.Prime := ⟨embeds.prime_order⟩
    obtain ⟨count, rfl⟩ : element ∈ AddSubmonoid.multiples base :=
      mem_multiples_of_prime_card card_eq embeds.base_ne
    have remainder_eq := embeds.mod_order_nsmul count
    refine ⟨⟨count % group.order, Nat.mod_lt _ group.order_pos⟩, ?_, ?_⟩
    · intro zero
      have remainder_zero : count % group.order = 0 := zero
      rw [remainder_zero, zero_nsmul] at remainder_eq
      exact nonzero remainder_eq.symm
    · rw [timesBase, embeds.baseMultiple_eq]
      exact congrArg embed remainder_eq

end CurveGroup

end KeyTree
