import KeyTree.Path.Index
import Mathlib.Data.List.Nodup
import Mathlib.Data.Nat.Basic

/-!
# The halves of the range of child indices

The indices that follow an index within its half are reached by adding one as often as `following`
allows; no sum wraps around on the way, and none enters the other half.
-/

namespace KeyTree.ChildIndex

/-- The index that comes `steps` places after another. -/
def advance (index : ChildIndex) (steps : Nat) : ChildIndex :=
  index + UInt32.ofNat steps

/-- `count` indices in a row, the first of them given. -/
def consecutive : Nat → ChildIndex → List ChildIndex
  | 0, _ => []
  | count + 1, index => index :: consecutive count (index + 1)

/-- The last index of the half to which an index belongs. -/
def lastOfHalf (index : ChildIndex) : ChildIndex :=
  if isHardened index then 0xffffffff else 0x7fffffff

@[simp]
theorem advance_zero (index : ChildIndex) : advance index 0 = index := by
  apply UInt32.toNat_inj.mp
  have index_lt := index.toNat_lt
  simp [advance]

theorem advance_succ (index : ChildIndex) (steps : Nat) :
    advance index (steps + 1) = advance (index + 1) steps := by
  apply UInt32.toNat_inj.mp
  simp only [advance, UInt32.toNat_add, UInt32.toNat_ofNat', UInt32.reduceToNat]
  omega

theorem isHardened_eq_decide (index : ChildIndex) :
    isHardened index = decide (2147483648 ≤ index.toNat) := by
  rw [Bool.eq_iff_iff, isHardened_iff, toNat_hardenedBit, decide_eq_true_iff]

/-- Two indices of one half have no index of the other half between them. -/
theorem isHardened_between {low between high : ChildIndex} (low_le : low ≤ between)
    (le_high : between ≤ high) (half : isHardened low = isHardened high) :
    isHardened between = isHardened low := by
  rw [UInt32.le_iff_toNat_le] at low_le le_high
  rw [isHardened_eq_decide, isHardened_eq_decide, decide_eq_decide] at *
  omega

theorem following_eq (index : ChildIndex) :
    following index = 2147483647 - index.toNat % 2147483648 := by
  rw [following, toNat_place, toNat_hardenedBit]

/-- Within the half, advancing adds on numbers. -/
theorem toNat_advance {index : ChildIndex} {steps : Nat} (within : steps ≤ following index) :
    (advance index steps).toNat = index.toNat + steps := by
  have index_lt := index.toNat_lt
  rw [following_eq] at within
  simp only [advance, UInt32.toNat_add, UInt32.toNat_ofNat']
  omega

theorem isHardened_advance {index : ChildIndex} {steps : Nat} (within : steps ≤ following index) :
    isHardened (advance index steps) = isHardened index := by
  have index_lt := index.toNat_lt
  have sum := toNat_advance within
  rw [following_eq] at within
  rw [isHardened_eq_decide, isHardened_eq_decide, sum]
  exact decide_eq_decide.mpr (by omega)

theorem following_advance {index : ChildIndex} {steps : Nat} (within : steps ≤ following index) :
    following (advance index steps) = following index - steps := by
  have index_lt := index.toNat_lt
  have sum := toNat_advance within
  rw [following_eq] at within
  rw [following_eq, following_eq, sum]
  omega

theorem add_one_eq_advance (index : ChildIndex) : index + 1 = advance index 1 := by
  rw [advance_succ, advance_zero]

theorem isHardened_add_one {index : ChildIndex} {left : Nat} (room : following index = left + 1) :
    isHardened (index + 1) = isHardened index := by
  rw [add_one_eq_advance]
  exact isHardened_advance (by omega)

theorem following_add_one {index : ChildIndex} {left : Nat} (room : following index = left + 1) :
    following (index + 1) = left := by
  rw [add_one_eq_advance, following_advance (by omega)]
  omega

/-- Advancing as far as the half allows ends at its last index. -/
theorem advance_following (index : ChildIndex) :
    advance index (following index) = lastOfHalf index := by
  apply UInt32.toNat_inj.mp
  have index_lt := index.toNat_lt
  rw [toNat_advance le_rfl, lastOfHalf, following_eq, isHardened_eq_decide]
  split
  · next hardened =>
      have large := of_decide_eq_true hardened
      simp only [UInt32.reduceToNat]
      omega
  · next normal =>
      have small : ¬2147483648 ≤ index.toNat := by simpa using normal
      simp only [UInt32.reduceToNat]
      omega

theorem consecutive_add (first second : Nat) (index : ChildIndex) :
    consecutive (first + second) index =
      consecutive first index ++ consecutive second (advance index first) := by
  induction first generalizing index with
  | zero => rw [Nat.zero_add, advance_zero, consecutive, List.nil_append]
  | succ first ih =>
      rw [Nat.succ_add, consecutive, consecutive, ih, advance_succ, List.cons_append]

theorem consecutive_eq_map (count : Nat) (index : ChildIndex) :
    consecutive count index = (List.range count).map (advance index) := by
  induction count generalizing index with
  | zero => rfl
  | succ count ih =>
      rw [consecutive, ih, List.range_succ_eq_map, List.map_cons, List.map_map, advance_zero]
      congr 1
      exact List.map_congr_left fun steps _ => (advance_succ index steps).symm

/-- Indices in a row belong to one half as long as there are no more of them than are left in it. -/
theorem isHardened_of_mem_consecutive {count : Nat} {index tried : ChildIndex}
    (within : count ≤ following index + 1) (member : tried ∈ consecutive count index) :
    isHardened tried = isHardened index := by
  rw [consecutive_eq_map] at member
  obtain ⟨steps, steps_mem, rfl⟩ := List.mem_map.mp member
  have steps_lt := List.mem_range.mp steps_mem
  exact isHardened_advance (by omega)

/-- As long as indices in a row do not leave the half, none of them comes twice. -/
theorem nodup_consecutive {count : Nat} {index : ChildIndex}
    (within : count ≤ following index + 1) : (consecutive count index).Nodup := by
  rw [consecutive_eq_map]
  refine List.Nodup.map_on ?_ List.nodup_range
  intro first first_mem second second_mem same
  have first_lt := List.mem_range.mp first_mem
  have second_lt := List.mem_range.mp second_mem
  have numbers_eq := congrArg UInt32.toNat same
  rw [toNat_advance (by omega), toNat_advance (by omega)] at numbers_eq
  omega

/-- The last index of a half is the one that no other follows. -/
theorem lastOfHalf_eq_self_iff {index : ChildIndex} :
    lastOfHalf index = index ↔ following index = 0 := by
  rw [← advance_following]
  constructor
  · intro last
    have none_left := following_advance (Nat.le_refl (following index))
    rw [last, Nat.sub_self] at none_left
    exact none_left
  · intro none_left
    rw [none_left, advance_zero]

theorem lastOfHalf_add_one {index : ChildIndex} {left : Nat} (room : following index = left + 1) :
    lastOfHalf (index + 1) = lastOfHalf index := by
  rw [lastOfHalf, lastOfHalf, isHardened_add_one room]

/-- What holds of the last index of a half, and of each index before one of which it holds. -/
theorem half_induction {motive : ChildIndex → Prop}
    (last : ∀ index, following index = 0 → motive index)
    (before : ∀ index left, following index = left + 1 → motive (index + 1) → motive index)
    (index : ChildIndex) : motive index := by
  generalize left_eq : following index = left
  induction left generalizing index with
  | zero => exact last index left_eq
  | succ left ih => exact before index left left_eq (ih (index + 1) (following_add_one left_eq))

end KeyTree.ChildIndex
