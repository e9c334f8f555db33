import KeyTree.Derivation.Candidate
import KeyTree.Proofs.Group.Lawful

/-!
# Which outputs make a child

The acceptance rules of both steps in terms of the number in the left half of an output.  An
accepted child is neither zero nor the identity.
-/

namespace KeyTree.CurveGroup

variable (group : CurveGroup)

/-- The number in the left half of an output, in the byte order of the curve's scalars. -/
def tweakValue (output : Bytes 64) : Nat :=
  group.byteOrder.read (leftHalf output).toList

/--
On a Weierstrass curve the left half has to be below the order; on the Edwards curve it is free.
-/
def TweakInRange (output : Bytes 64) : Prop :=
  group.curve.family = .weierstrass → group.tweakValue output < group.order

/-- The output makes a private key of the parent's: in range, and not zero. -/
def AcceptsScalar (parent : Nat) (output : Bytes 64) : Prop :=
  group.TweakInRange output ∧ (parent + group.tweakValue output) % group.order ≠ 0

/-- The output makes a public key of the parent's: in range, and not the identity. -/
def AcceptsPoint (parent : group.Point) (output : Bytes 64) : Prop :=
  group.TweakInRange output ∧
    group.isIdentity (group.add parent (group.baseMultiple (group.tweakValue output))) = false

variable {group}

theorem tweak?_of_inRange {output : Bytes 64} (inRange : group.TweakInRange output) :
    group.tweak? (leftHalf output) =
      some ⟨group.tweakValue output % group.order, Nat.mod_lt _ group.order_pos⟩ := by
  rw [tweak?]
  split
  · next weierstrass =>
      have small : group.byteOrder.read (leftHalf output).toList < group.order :=
        inRange weierstrass
      simp only [scalarOfBytes?, small, ↓reduceDIte, tweakValue, Nat.mod_eq_of_lt small]
  · rfl

theorem tweak?_of_not_inRange {output : Bytes 64} (outOfRange : ¬group.TweakInRange output) :
    group.tweak? (leftHalf output) = none := by
  obtain ⟨weierstrass, large⟩ := Classical.not_imp.mp outOfRange
  have not_small : ¬group.byteOrder.read (leftHalf output).toList < group.order := large
  simp only [tweak?, weierstrass, scalarOfBytes?, not_small, ↓reduceDIte]

theorem childScalar?_of_accepts {parent : group.Scalar} {output : Bytes 64}
    (accepts : group.AcceptsScalar parent.val output) :
    group.childScalar? parent output =
      some ⟨(parent.val + group.tweakValue output) % group.order,
        Nat.mod_lt _ group.order_pos⟩ := by
  obtain ⟨inRange, nonzero⟩ := accepts
  have sum_eq : (parent + ⟨group.tweakValue output % group.order,
      Nat.mod_lt _ group.order_pos⟩ : group.Scalar).val =
        (parent.val + group.tweakValue output) % group.order := by
    rw [Fin.val_add, Nat.add_mod_mod]
  rw [childScalar?, tweak?_of_inRange inRange]
  simp only [Option.bind_eq_bind, Option.bind_some, sum_eq, nonzero, ↓reduceIte,
    Option.some.injEq]
  exact Fin.ext sum_eq

theorem childScalar?_of_refuses {parent : group.Scalar} {output : Bytes 64}
    (refuses : ¬group.AcceptsScalar parent.val output) :
    group.childScalar? parent output = none := by
  by_cases inRange : group.TweakInRange output
  · have zero : (parent.val + group.tweakValue output) % group.order = 0 := by
      by_contra nonzero
      exact refuses ⟨inRange, nonzero⟩
    rw [childScalar?, tweak?_of_inRange inRange]
    simp [Fin.val_add, zero]
  · rw [childScalar?, tweak?_of_not_inRange inRange]
    rfl

theorem childPoint?_of_accepts (lawful : group.Lawful) {parent : group.Point} {output : Bytes 64}
    (accepts : group.AcceptsPoint parent output) :
    group.childPoint? parent output =
      some (group.add parent (group.baseMultiple (group.tweakValue output)),
        ⟨group.tweakValue output % group.order, Nat.mod_lt _ group.order_pos⟩) := by
  obtain ⟨inRange, proper⟩ := accepts
  rw [childPoint?, tweak?_of_inRange inRange]
  simp [timesBase, lawful.baseMultiple_mod, proper]

theorem childPoint?_of_refuses (lawful : group.Lawful) {parent : group.Point} {output : Bytes 64}
    (refuses : ¬group.AcceptsPoint parent output) : group.childPoint? parent output = none := by
  by_cases inRange : group.TweakInRange output
  · have identity : group.isIdentity
        (group.add parent (group.baseMultiple (group.tweakValue output))) = true := by
      by_contra proper
      exact refuses ⟨inRange, Bool.eq_false_iff.mpr proper⟩
    rw [childPoint?, tweak?_of_inRange inRange]
    simp [timesBase, lawful.baseMultiple_mod, identity]
  · rw [childPoint?, tweak?_of_not_inRange inRange]
    rfl

theorem childScalar?_ne_zero {parent child : group.Scalar} {output : Bytes 64}
    (made : group.childScalar? parent output = some child) : child.val ≠ 0 := by
  rw [childScalar?] at made
  obtain ⟨tweak, -, rest⟩ := Option.bind_eq_some_iff.mp made
  simp only at rest
  split at rest
  · contradiction
  · next nonzero =>
      cases rest
      exact nonzero

theorem masterScalar?_ne_zero {scalar : group.Scalar} {output : Bytes 64}
    (made : group.masterScalar? output = some scalar) : scalar.val ≠ 0 := by
  rw [masterScalar?] at made
  obtain ⟨tweak, -, rest⟩ := Option.bind_eq_some_iff.mp made
  split at rest
  · contradiction
  · next nonzero =>
      cases rest
      exact nonzero

/-- An accepted public candidate is the parent moved by a multiple of the base point. -/
theorem childPoint?_eq_some {parent child : group.Point} {tweak : group.Scalar}
    {output : Bytes 64} (made : group.childPoint? parent output = some (child, tweak)) :
    child = group.add parent (group.timesBase tweak) ∧ group.isIdentity child = false := by
  rw [childPoint?] at made
  obtain ⟨moved, -, rest⟩ := Option.bind_eq_some_iff.mp made
  simp only at rest
  split at rest
  · contradiction
  · next proper =>
      cases rest
      exact ⟨rfl, Bool.eq_false_iff.mpr proper⟩

end KeyTree.CurveGroup
