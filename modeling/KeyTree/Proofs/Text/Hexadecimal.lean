import KeyTree.Text.Hexadecimal

/-!
# Hexadecimal text tells the bytes

The two digits of a byte tell the byte, so that no two byte strings are written alike.
-/

namespace KeyTree.Hexadecimal

theorem digit_inj :
    ∀ value < 16, ∀ other < 16, digit value = digit other → value = other := by
  decide

/-- A byte is told by the digits of its upper and its lower half. -/
theorem byte_eq_of_digits {byte other : UInt8}
    (upper_eq : digit (byte.toNat / 16) = digit (other.toNat / 16))
    (lower_eq : digit (byte.toNat % 16) = digit (other.toNat % 16)) : byte = other := by
  have byte_lt := byte.toNat_lt
  have other_lt := other.toNat_lt
  have upper := digit_inj _ (by omega) _ (by omega) upper_eq
  have lower := digit_inj _ (by omega) _ (by omega) lower_eq
  apply UInt8.toNat_inj.mp
  omega

theorem encode_inj {bytes others : List UInt8} : encode bytes = encode others ↔ bytes = others := by
  refine ⟨fun same => ?_, congrArg encode⟩
  replace same := String.ofList_injective same
  induction bytes generalizing others with
  | nil =>
      cases others with
      | nil => rfl
      | cons other others => contradiction
  | cons byte bytes ih =>
      cases others with
      | nil => contradiction
      | cons other others =>
          simp only [List.flatMap_cons, List.cons_append, List.nil_append, List.cons.injEq] at same
          obtain ⟨upper_eq, lower_eq, rest_eq⟩ := same
          rw [byte_eq_of_digits upper_eq lower_eq, ih rest_eq]

theorem ofUInt32_inj {value other : UInt32} : ofUInt32 value = ofUInt32 other ↔ value = other := by
  refine ⟨fun same => ?_, congrArg ofUInt32⟩
  have bytes_eq := Bytes.ext (encode_inj.mp same)
  rw [← Bytes.toUInt32_ofUInt32 value, bytes_eq, Bytes.toUInt32_ofUInt32]

end KeyTree.Hexadecimal
