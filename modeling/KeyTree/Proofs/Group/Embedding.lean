import KeyTree.Proofs.Group.Lawful
import Mathlib.GroupTheory.OrderOfElement

/-!
# Laws from an abelian group

The laws of the group of a curve hold if its operations are those of an abelian group, of which the
base point has a prime order.
-/

namespace KeyTree.CurveGroup

/--
The operations of the group of a curve are those of an abelian group that is embedded in the points.
-/
structure Embeds (group : CurveGroup) {Element : Type} [AddCommGroup Element]
    (embed : Element → group.Point) (base : Element) : Prop where
  /-- Sums are sums of elements. -/
  add_embed : ∀ first second, group.add (embed first) (embed second) = embed (first + second)
  /-- Multiples of the base point are multiples of an element. -/
  baseMultiple_eq : ∀ count : Nat, group.baseMultiple count = embed (count • base)
  /-- The identity is the zero element. -/
  isIdentity_embed : ∀ element, group.isIdentity (embed element) = true ↔ element = 0
  prime_order : group.order.Prime
  /-- The order is a period of the base point. -/
  order_nsmul : group.order • base = 0
  base_ne : base ≠ 0
  /-- What is read is an element other than zero. -/
  exists_of_decode? : ∀ {bytes point}, group.decode? bytes = some point →
    ∃ element, element ≠ 0 ∧ embed element = point
  /-- What is written for an element other than zero is read as that element. -/
  decode?_encode : ∀ {element}, element ≠ 0 →
    group.decode? (group.encode (embed element)).toList = some (embed element)

namespace Embeds

variable {group : CurveGroup} {Element : Type} [AddCommGroup Element]
  {embed : Element → group.Point} {base : Element} (embeds : group.Embeds embed base)
include embeds

theorem exists_of_attainable {point : group.Point} (attainable : group.Attainable point) :
    ∃ element, embed element = point := by
  induction attainable with
  | timesBase scalar => exact ⟨scalar.val • base, (embeds.baseMultiple_eq scalar.val).symm⟩
  | read decoded =>
      obtain ⟨element, -, element_eq⟩ := embeds.exists_of_decode? decoded
      exact ⟨element, element_eq⟩
  | add _ _ first_ih second_ih =>
      obtain ⟨first, rfl⟩ := first_ih
      obtain ⟨second, rfl⟩ := second_ih
      exact ⟨first + second, (embeds.add_embed first second).symm⟩

theorem addOrderOf_base : addOrderOf base = group.order := by
  have : Fact group.order.Prime := ⟨embeds.prime_order⟩
  exact addOrderOf_eq_prime embeds.order_nsmul embeds.base_ne

theorem nsmul_eq_zero_iff (scalar : group.Scalar) : scalar.val • base = 0 ↔ scalar.val = 0 := by
  rw [← addOrderOf_dvd_iff_nsmul_eq_zero, embeds.addOrderOf_base]
  constructor
  · exact fun divides => Nat.eq_zero_of_dvd_of_lt divides scalar.isLt
  · intro zero
    rw [zero]
    exact dvd_zero group.order

/-- Multiples of the base point depend on the remainder modulo the order alone. -/
theorem mod_order_nsmul (count : Nat) : (count % group.order) • base = count • base := by
  rw [← embeds.addOrderOf_base, mod_addOrderOf_nsmul]

theorem lawful : group.Lawful where
  add_assoc := by
    intro first second third first_attainable second_attainable third_attainable
    obtain ⟨a, rfl⟩ := embeds.exists_of_attainable first_attainable
    obtain ⟨b, rfl⟩ := embeds.exists_of_attainable second_attainable
    obtain ⟨c, rfl⟩ := embeds.exists_of_attainable third_attainable
    simp only [embeds.add_embed, add_assoc]
  add_zero := by
    intro point attainable
    obtain ⟨element, rfl⟩ := embeds.exists_of_attainable attainable
    rw [embeds.baseMultiple_eq, zero_nsmul, embeds.add_embed, add_zero]
  baseMultiple_mod := by
    intro count
    rw [embeds.baseMultiple_eq, embeds.baseMultiple_eq, embeds.mod_order_nsmul]
  timesBase_add := by
    intro first second
    simp only [timesBase, embeds.baseMultiple_eq, embeds.add_embed, Fin.val_add,
      embeds.mod_order_nsmul, add_nsmul]
  isIdentity_timesBase := by
    intro scalar
    rw [timesBase, embeds.baseMultiple_eq, embeds.isIdentity_embed, embeds.nsmul_eq_zero_iff]
  isIdentity_of_decode? := by
    intro bytes point decoded
    obtain ⟨element, nonzero, rfl⟩ := embeds.exists_of_decode? decoded
    exact Bool.eq_false_iff.mpr (mt (embeds.isIdentity_embed element).mp nonzero)
  decode?_encode := by
    intro point attainable proper
    obtain ⟨element, rfl⟩ := embeds.exists_of_attainable attainable
    refine embeds.decode?_encode fun zero => ?_
    exact Bool.eq_false_iff.mp proper ((embeds.isIdentity_embed element).mpr zero)

end Embeds

end KeyTree.CurveGroup
