import KeyTree.Proofs.Group.Scalar

/-!
# Laws of the groups

Keys rest on a few laws of the group of a curve.  They are asked of the points that ever come up
only: multiples of the base point, points that were read, and sums of these.
-/

namespace KeyTree.CurveGroup

variable (group : CurveGroup)

/-- The points that come up when keys are read and derived. -/
inductive Attainable : group.Point → Prop where
  | timesBase (scalar : group.Scalar) : Attainable (group.timesBase scalar)
  | read {bytes : List UInt8} {point : group.Point} (decoded : group.decode? bytes = some point) :
      Attainable point
  | add {first second : group.Point} (first_attainable : Attainable first)
      (second_attainable : Attainable second) : Attainable (group.add first second)

/-- The laws of a group of prime order and of its byte encodings. -/
structure Lawful : Prop where
  /-- Sums of such points may be bracketed in any way. -/
  add_assoc : ∀ {first second third : group.Point}, group.Attainable first →
    group.Attainable second → group.Attainable third →
      group.add (group.add first second) third = group.add first (group.add second third)
  /-- The zero multiple of the base point is neutral. -/
  add_zero : ∀ {point : group.Point}, group.Attainable point →
    group.add point (group.baseMultiple 0) = point
  /-- Multiples of the base point depend on the remainder modulo the order. -/
  baseMultiple_mod : ∀ count : Nat,
    group.baseMultiple (count % group.order) = group.baseMultiple count
  /-- Multiples of the base point add up modulo the order. -/
  timesBase_add : ∀ first second : group.Scalar,
    group.timesBase (first + second) = group.add (group.timesBase first) (group.timesBase second)
  /-- No multiple but the zero one is the identity. -/
  isIdentity_timesBase : ∀ scalar : group.Scalar,
    group.isIdentity (group.timesBase scalar) = true ↔ scalar.val = 0
  /-- The identity is never read. -/
  isIdentity_of_decode? : ∀ {bytes : List UInt8} {point : group.Point},
    group.decode? bytes = some point → group.isIdentity point = false
  /-- What is written is read again. -/
  decode?_encode : ∀ {point : group.Point}, group.Attainable point →
    group.isIdentity point = false → group.decode? (group.encode point).toList = some point

variable {group}

namespace Lawful

variable (lawful : group.Lawful)
include lawful

theorem isIdentity_timesBase_of_ne_zero {scalar : group.Scalar} (nonzero : scalar.val ≠ 0) :
    group.isIdentity (group.timesBase scalar) = false := by
  rw [Bool.eq_false_iff]
  exact mt (lawful.isIdentity_timesBase scalar).mp nonzero

theorem decode?_encode_timesBase {scalar : group.Scalar} (nonzero : scalar.val ≠ 0) :
    group.decode? (group.encode (group.timesBase scalar)).toList =
      some (group.timesBase scalar) :=
  lawful.decode?_encode (.timesBase scalar) (lawful.isIdentity_timesBase_of_ne_zero nonzero)

end Lawful

end KeyTree.CurveGroup
