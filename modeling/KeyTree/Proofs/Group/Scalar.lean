import KeyTree.Curve.Group
import Mathlib.Data.List.Basic

/-!
# Scalars and their bytes

Scalars are the numbers below the order of a group.  Each has exactly one byte string, and a private
key is the byte string of a scalar that is not zero.
-/

namespace KeyTree

theorem ByteOrder.digits_zero (width : Nat) : digits width 0 = List.replicate width 0 := by
  induction width with
  | zero => rfl
  | succ width ih =>
      rw [digits, List.replicate_succ, Nat.zero_div, ih]
      rfl

/-- The number zero is written as zeros. -/
theorem ByteOrder.write_zero (order : ByteOrder) (width : Nat) :
    order.write width 0 = Bytes.zero width := by
  ext1
  cases order with
  | bigEndian => simp [write, digits_zero, Bytes.zero]
  | littleEndian => simp [write, digits_zero, Bytes.zero]

namespace CurveGroup

variable {group : CurveGroup}

theorem scalar_add_assoc (first second third : group.Scalar) :
    first + second + third = first + (second + third) := by
  apply Fin.ext
  simp only [Fin.val_add, Nat.mod_add_mod, Nat.add_mod_mod, Nat.add_assoc]

theorem scalar_add_zero (scalar : group.Scalar) : scalar + ⟨0, group.order_pos⟩ = scalar := by
  apply Fin.ext
  simp only [Fin.val_add, Nat.add_zero, Nat.mod_eq_of_lt scalar.isLt]

theorem read_scalarToBytes (scalar : group.Scalar) :
    group.byteOrder.read (group.scalarToBytes scalar).toList = scalar.val :=
  ByteOrder.read_write _ (Nat.lt_of_lt_of_le scalar.isLt group.order_le)

@[simp]
theorem scalarOfBytes?_scalarToBytes (scalar : group.Scalar) :
    group.scalarOfBytes? (group.scalarToBytes scalar) = some scalar := by
  simp [scalarOfBytes?, read_scalarToBytes]

theorem scalarOfBytes?_eq_some_iff {bytes : Bytes 32} {scalar : group.Scalar} :
    group.scalarOfBytes? bytes = some scalar ↔ bytes = group.scalarToBytes scalar := by
  constructor
  · intro decoded
    simp only [scalarOfBytes?] at decoded
    split at decoded
    · cases decoded
      exact (ByteOrder.write_read group.byteOrder bytes).symm
    · contradiction
  · rintro rfl
    exact scalarOfBytes?_scalarToBytes scalar

theorem privateScalar_eq_ok_iff {key : Secret 32} {scalar : group.Scalar} :
    group.privateScalar key = .ok scalar ↔
      group.byteOrder.read key.bytes.toList = scalar.val ∧ 0 < scalar.val := by
  simp only [privateScalar, scalarOfBytes?]
  by_cases small : group.byteOrder.read key.bytes.toList < group.order
  · simp only [small, ↓reduceDIte]
    split
    · next zero =>
        simp only [reduceCtorEq, false_iff, not_and]
        intro value_eq
        omega
    · next nonzero =>
        simp only [Except.ok.injEq, Fin.ext_iff]
        constructor
        · rintro value_eq
          exact ⟨value_eq, by omega⟩
        · exact fun ⟨value_eq, _⟩ => value_eq
  · simp only [small, ↓reduceDIte, reduceCtorEq, false_iff, not_and]
    intro value_eq
    have scalar_lt := scalar.isLt
    omega

theorem privateScalar_scalarToBytes {scalar : group.Scalar} (nonzero : scalar.val ≠ 0) :
    group.privateScalar ⟨group.scalarToBytes scalar⟩ = .ok scalar := by
  rw [privateScalar_eq_ok_iff]
  exact ⟨read_scalarToBytes scalar, Nat.pos_of_ne_zero nonzero⟩

/-- A private key is the bytes of its scalar. -/
theorem key_eq_of_privateScalar {key : Secret 32} {scalar : group.Scalar}
    (valid : group.privateScalar key = .ok scalar) : key = ⟨group.scalarToBytes scalar⟩ := by
  obtain ⟨bytes⟩ := key
  have read_eq := (privateScalar_eq_ok_iff.mp valid).1
  rw [scalarToBytes, ← read_eq, ByteOrder.write_read]

end CurveGroup

end KeyTree
