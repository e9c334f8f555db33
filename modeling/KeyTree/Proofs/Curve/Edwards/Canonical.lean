import KeyTree.Proofs.Curve.Edwards.Lawful
import KeyTree.Proofs.Group.Canonical

/-!
# Points of the Edwards curve are written as they were read

Thirty-two bytes leave room for the ordinates below 19 to be written a second time, with the modulus
added to them, and for an abscissa of zero to be called odd.  No point that is read has such an
ordinate, and none has abscissa zero.
-/

namespace KeyTree.Edwards

open scoped PrimeField

/-! ## Abscissas -/

/-- Only the identity of the subgroup is its own opposite. -/
theorem abscissa_ne_zero {element : Element} (period : order • element = 0)
    (nonzero : element ≠ 0) : element.point.x ≠ 0 := by
  intro zero
  have opposite_eq : -element = element := by
    apply Element.ext
    change (⟨-element.point.x, element.point.y⟩ : Point) = element.point
    rw [zero, neg_zero, ← zero]
  have double_eq : (2 : Nat) • element = 0 := by
    rw [two_nsmul]
    nth_rewrite 1 [← opposite_eq]
    exact neg_add_cancel element
  have order_eq : order = order / 2 * 2 + 1 := by decide
  apply nonzero
  calc
    element = (order / 2 * 2 + 1) • element := by
      rw [succ_nsmul, mul_nsmul', double_eq, nsmul_zero, zero_add]
    _ = 0 := by rw [← order_eq, period]

namespace Point

/-! ## Small ordinates -/

theorem inSubgroup_eq (point : Point) :
    point.inSubgroup = (multipleWithin Extended.add Extended.identity (.ofPoint point) 256
      order).isIdentity :=
  congrArg Extended.isIdentity (multiple_eq_multipleWithin (by decide))

theorem power_eq (element : Fin modulus) :
    PrimeField.power element ((modulus - 5) / 8) =
      multipleWithin (· * ·) 1 element 256 ((modulus - 5) / 8) :=
  multiple_eq_multipleWithin (by decide)

theorem imaginaryUnit_eq :
    imaginaryUnit = multipleWithin (· * ·) 1 2 256 ((modulus - 1) / 4) :=
  multiple_eq_multipleWithin (by decide)

/-- At an ordinate below 19 there is no point, or the identity, or a point of another order. -/
theorem refused_of_small : ∀ y < 19, (atOrdinate? false (Fin.ofNat modulus y)).all
    (fun point => point.isIdentity || !point.inSubgroup) = true := by
  simp only [atOrdinate?, rootOfQuotient?, power_eq, imaginaryUnit_eq, inSubgroup_eq]
  decide +kernel

theorem le_ordinate_of_even {element : Element} (period : order • element = 0)
    (nonzero : element ≠ 0) (even : PrimeField.isOdd element.point.x = false) :
    19 ≤ element.point.y.val := by
  by_contra small
  have found := atOrdinate?_of_onCurve element.on
  have y_eq : Fin.ofNat modulus element.point.y.val = element.point.y :=
    Fin.ext (Nat.mod_eq_of_lt element.point.y.isLt)
  have refused := refused_of_small element.point.y.val (Nat.lt_of_not_le small)
  rw [y_eq, ← even, found, Option.all_some, element.inSubgroup_iff.mpr period, Bool.not_true,
    Bool.or_false, isIdentity, beq_iff_eq] at refused
  exact nonzero (Element.ext refused)

/-- No point that is read has an ordinate below 19. -/
theorem le_ordinate {element : Element} (period : order • element = 0) (nonzero : element ≠ 0) :
    19 ≤ element.point.y.val := by
  cases odd : PrimeField.isOdd element.point.x with
  | false => exact le_ordinate_of_even period nonzero odd
  | true =>
      have opposite_even : PrimeField.isOdd (-element).point.x = false := by
        change PrimeField.isOdd (-element.point.x) = false
        rw [PrimeField.isOdd_neg (abscissa_ne_zero period nonzero), odd]
        rfl
      have opposite_period : order • (-element) = 0 := by rw [neg_nsmul, period, neg_zero]
      have opposite_large :=
        le_ordinate_of_even opposite_period (neg_ne_zero.mpr nonzero) opposite_even
      exact opposite_large

/-! ## Bytes -/

/-- What is found at an ordinate has this ordinate and, unless its abscissa is zero, the parity. -/
theorem coordinates_of_atOrdinate? {odd : Bool} {y : Fin modulus} {point : Point}
    (found : atOrdinate? odd y = some point) :
    point.y = y ∧ (point.x ≠ 0 → PrimeField.isOdd point.x = odd) := by
  rw [atOrdinate?] at found
  obtain ⟨root, root_eq, made⟩ := Option.bind_eq_some_iff.mp found
  cases made
  obtain ⟨candidate, root_eq, -⟩ := exists_of_rootOfQuotient? root_eq
  refine ⟨rfl, ?_⟩
  intro x_ne
  have root_ne : root ≠ 0 := by
    rintro rfl
    exact x_ne (by cases odd <;> simp)
  have candidate_ne : candidate ≠ 0 := by
    rintro rfl
    exact root_ne (root_eq.trans (by simp [PrimeField.withParity]))
  have even : PrimeField.isOdd root = false := by
    rw [root_eq, PrimeField.isOdd_withParity candidate_ne]
  cases odd with
  | false => exact even
  | true =>
      change PrimeField.isOdd (-root) = true
      rw [PrimeField.isOdd_neg root_ne, even]
      rfl

/-- A number of 256 bits is made of its lower bits and of its highest one. -/
theorem mod_add_highest {value : Nat} (fits : value < parityWeight + parityWeight) :
    value % parityWeight + (if value / parityWeight % 2 = 1 then parityWeight else 0) = value := by
  rcases Nat.lt_or_ge value parityWeight with low | high
  · rw [Nat.mod_eq_of_lt low, Nat.div_eq_of_lt low]
    rfl
  · have quotient_eq : value / parityWeight = 1 :=
      Nat.div_eq_of_lt_le (by omega) (by omega)
    rw [quotient_eq, if_pos rfl, Nat.mod_eq_sub_mod high, Nat.mod_eq_of_lt (by omega)]
    omega

/-- A number of 255 bits that is not below 19 when reduced was below the modulus. -/
theorem mod_modulus_eq_self {value : Nat} (fits : value < parityWeight)
    (large : 19 ≤ value % modulus) : value % modulus = value := by
  have weight_eq : parityWeight = modulus + 19 := by decide
  have modulus_large : 19 < modulus := by decide
  rcases Nat.lt_or_ge value modulus with below | above
  · exact Nat.mod_eq_of_lt below
  · rw [Nat.mod_eq_sub_mod above, Nat.mod_eq_of_lt (by omega)] at large
    omega

theorem atOrdinate?_of_decompress? {bytes : List UInt8} {point : Point}
    (decoded : decompress? bytes = some point) :
    atOrdinate? (ByteOrder.littleEndian.read bytes / parityWeight % 2 = 1)
      (Fin.ofNat modulus (ByteOrder.littleEndian.read bytes % parityWeight)) = some point := by
  rw [decompress?] at decoded
  obtain ⟨found, found_eq, accepted⟩ := Option.bind_eq_some_iff.mp decoded
  split at accepted
  · contradiction
  · rw [found_eq]
    exact accepted

/-- The bytes of a point are the only 32 bytes that are read as it. -/
theorem compress_of_decompress? {bytes : Bytes 32} {point : Point}
    (decoded : decompress? bytes.toList = some point) : point.compress = bytes := by
  obtain ⟨y_eq, parity_eq⟩ := coordinates_of_atOrdinate? (atOrdinate?_of_decompress? decoded)
  obtain ⟨element, rfl, period, nonzero⟩ := exists_of_decompress? decoded
  have odd_eq := parity_eq (abscissa_ne_zero period nonzero)
  have large := le_ordinate period nonzero
  have fits : ByteOrder.littleEndian.read bytes.toList < parityWeight + parityWeight :=
    ByteOrder.read_lt .littleEndian bytes
  have restored := ByteOrder.write_read .littleEndian bytes
  generalize ByteOrder.littleEndian.read bytes.toList = value at *
  have reduced_eq : element.point.y.val = value % parityWeight % modulus := congrArg Fin.val y_eq
  rw [reduced_eq] at large
  rw [compress, odd_eq, reduced_eq, mod_modulus_eq_self (Nat.mod_lt _ (by decide)) large]
  simp only [decide_eq_true_eq, mod_add_highest fits]
  exact restored

/-- What is read from a slot has a zero byte in front. -/
theorem decompress?_body_of_decode? {slot : KeySlot} {point : Point}
    (decoded : decode? slot.toList = some point) :
    slot.lead = 0 ∧ decompress? slot.body.toList = some point := by
  have length_eq := slot.body.length_toList
  rw [slot.toList_eq, decode?, if_neg (by omega)] at decoded
  split at decoded
  · next zero => exact ⟨zero.2, decoded⟩
  · contradiction

/-- The ordinate zero is small, so zeros are not read. -/
theorem decode?_zero : decode? (Bytes.zero 33).toList = none := by
  by_contra read
  obtain ⟨point, decoded⟩ := Option.ne_none_iff_exists'.mp read
  obtain ⟨-, decompressed⟩ := decompress?_body_of_decode? decoded
  obtain ⟨element, rfl, period, nonzero⟩ := exists_of_decompress? decompressed
  obtain ⟨y_eq, -⟩ := coordinates_of_atOrdinate? (atOrdinate?_of_decompress? decompressed)
  have large := le_ordinate period nonzero
  rw [y_eq] at large
  exact absurd large (by decide)

end Point

end KeyTree.Edwards

namespace KeyTree.Curve

open Edwards

theorem ed25519Group_canonical : ed25519Group.Canonical where
  lead_mem := fun _ => List.mem_singleton_self _
  body_eq := by
    intro slot point decoded
    obtain ⟨-, decompressed⟩ := Point.decompress?_body_of_decode? decoded
    exact (@Bytes.dropLeft_append 1 32 _ _).trans (Point.compress_of_decompress? decompressed)
  lead_eq := by
    intro slot point decoded
    exact .inl (Point.decompress?_body_of_decode? decoded).1

end KeyTree.Curve
