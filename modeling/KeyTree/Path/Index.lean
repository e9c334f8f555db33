/-!
# Child indices

A child is derived under a 32-bit index.  The upper half of the range is hardened: its children can
be derived from a private key only.
-/

namespace KeyTree

/-- The index under which a child is derived. -/
abbrev ChildIndex := UInt32

namespace ChildIndex

/-- The least hardened index. -/
def hardenedBit : ChildIndex := 0x80000000

/-- The index belongs to the hardened half of the range. -/
def isHardened (index : ChildIndex) : Bool :=
  decide (hardenedBit ≤ index)

/-- The index at the same place of the hardened half. -/
def harden (index : ChildIndex) : ChildIndex :=
  if isHardened index then index else index + hardenedBit

/-- The place of an index within its half of the range. -/
def place (index : ChildIndex) : ChildIndex :=
  if isHardened index then index - hardenedBit else index

/-- The number of indices that follow in the same half of the range. -/
def following (index : ChildIndex) : Nat :=
  hardenedBit.toNat - 1 - (place index).toNat

theorem toNat_hardenedBit : hardenedBit.toNat = 2147483648 := rfl

theorem isHardened_iff {index : ChildIndex} :
    isHardened index = true ↔ hardenedBit.toNat ≤ index.toNat := by
  simp [isHardened, UInt32.le_iff_toNat_le]

theorem toNat_place (index : ChildIndex) :
    (place index).toNat = index.toNat % hardenedBit.toNat := by
  have index_lt := index.toNat_lt
  unfold place
  split
  · next hardened =>
      have large := isHardened_iff.mp hardened
      have bit_le : hardenedBit ≤ index := by simpa [isHardened] using hardened
      rw [toNat_hardenedBit] at large
      rw [UInt32.toNat_sub_of_le _ _ bit_le, toNat_hardenedBit]
      omega
  · next normal =>
      have small := mt isHardened_iff.mpr normal
      rw [Nat.mod_eq_of_lt (by omega)]

theorem toNat_harden (index : ChildIndex) :
    (harden index).toNat = hardenedBit.toNat + index.toNat % hardenedBit.toNat := by
  have index_lt := index.toNat_lt
  unfold harden
  split
  · next hardened =>
      have large := isHardened_iff.mp hardened
      rw [toNat_hardenedBit] at large ⊢
      omega
  · next normal =>
      have small := mt isHardened_iff.mpr normal
      rw [toNat_hardenedBit] at small
      rw [UInt32.toNat_add, toNat_hardenedBit]
      omega

end ChildIndex

end KeyTree
