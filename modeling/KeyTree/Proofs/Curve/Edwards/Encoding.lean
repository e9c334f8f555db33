import KeyTree.Proofs.Curve.Edwards.Extended

/-!
# Points of the Edwards curve are read as they are written

The abscissa is found as a root of a quotient.  The quotient of a point on the curve is a square,
and a power of it is a root up to a factor that a square root of minus one makes up for.
-/

namespace KeyTree.Edwards

open scoped PrimeField

namespace Point

/-! ## Roots of quotients -/

/-- What is found is the even one of two roots of the quotient. -/
theorem exists_of_rootOfQuotient? {numerator denominator root : Fin modulus}
    (found : rootOfQuotient? numerator denominator = some root) :
    ∃ candidate, root = PrimeField.withParity false candidate ∧
      denominator * candidate * candidate = numerator := by
  rw [rootOfQuotient?] at found
  split at found
  · next check =>
      cases found
      exact ⟨_, rfl, check⟩
  · split at found
    · next check =>
        cases found
        refine ⟨_, rfl, ?_⟩
        have unit_eq := imaginaryUnit_mul_self
        generalize numerator * (denominator * denominator * denominator) * _ = candidate at check ⊢
        linear_combination denominator * candidate * candidate * unit_eq - check
    · contradiction

/-- A power of an element by half the order of the units is a sign. -/
theorem pow_half_mul_self {element : Fin modulus} (nonzero : element ≠ 0) :
    element ^ ((modulus - 1) / 2) = 1 ∨ element ^ ((modulus - 1) / 2) = -1 := by
  have exponent_eq : (modulus - 1) / 2 + (modulus - 1) / 2 = modulus - 1 := by decide
  apply mul_self_eq_one_iff.mp
  rw [← pow_add, exponent_eq, pow_modulus_sub_one nonzero]

/-- The candidate for a root of a square is one up to a sign under the root. -/
theorem check_candidate {denominator : Fin modulus} (nonzero : denominator ≠ 0)
    (root : Fin modulus) :
    let numerator := denominator * root * root
    let cube := denominator * denominator * denominator
    let candidate := numerator * cube *
      PrimeField.power (numerator * (cube * cube * denominator)) ((modulus - 5) / 8)
    denominator * candidate * candidate = numerator * root ^ ((modulus - 1) / 2) := by
  intro numerator cube candidate
  have units := pow_modulus_sub_one nonzero
  have full : modulus - 1 = 8 * ((modulus - 5) / 8) + 4 := by decide
  have half : (modulus - 1) / 2 = 4 * ((modulus - 5) / 8) + 2 := by decide
  simp only [candidate, cube, numerator, PrimeField.power_eq_pow]
  rw [half]
  rw [full] at units
  generalize (modulus - 5) / 8 = exponent at units ⊢
  calc
    _ = denominator * root * root * root ^ (4 * exponent + 2) *
        denominator ^ (8 * exponent + 4) * denominator ^ (8 * exponent + 4) := by ring
    _ = denominator * root * root * root ^ (4 * exponent + 2) := by
      rw [units, mul_one, mul_one]

/-- A quotient that is the square of an element has a root. -/
theorem isSome_rootOfQuotient?_of_square {denominator : Fin modulus} (nonzero : denominator ≠ 0)
    (root : Fin modulus) :
    (rootOfQuotient? (denominator * root * root) denominator).isSome = true := by
  have check := check_candidate nonzero root
  simp only at check
  rw [rootOfQuotient?]
  simp only [check]
  by_cases zero : root = 0
  · simp [zero]
  · rcases pow_half_mul_self zero with plus | minus
    · simp [plus]
    · rw [minus]
      split
      · rfl
      · simp

/-- The root of the square of an element is the even one of the element and its opposite. -/
theorem rootOfQuotient?_of_square {denominator : Fin modulus} (nonzero : denominator ≠ 0)
    (root : Fin modulus) :
    rootOfQuotient? (denominator * root * root) denominator =
      some (PrimeField.withParity false root) := by
  obtain ⟨even, found⟩ := Option.isSome_iff_exists.mp
    (isSome_rootOfQuotient?_of_square nonzero root)
  obtain ⟨candidate, rfl, square_eq⟩ := exists_of_rootOfQuotient? found
  have same : candidate * candidate = root * root := by
    apply mul_left_cancel₀ nonzero
    linear_combination square_eq
  rw [found]
  rcases mul_self_eq_mul_self_iff.mp same with equal | opposite
  · rw [equal]
  · rw [opposite, PrimeField.withParity_neg]

/-! ## Points at an ordinate -/

theorem abscissa_denominator_ne (y : Fin modulus) : coefficient * (y * y) + 1 ≠ 0 := by
  intro zero
  have vanishes : y = 0 := by
    apply eq_zero_of_mul_square
    show coefficient * y * y = imaginaryUnit * imaginaryUnit
    rw [imaginaryUnit_mul_self]
    linear_combination zero
  rw [vanishes, mul_zero, mul_zero, zero_add] at zero
  exact one_ne_zero zero

/-- What is found at an ordinate is on the curve. -/
theorem onCurve_of_atOrdinate? {odd : Bool} {y : Fin modulus} {point : Point}
    (found : atOrdinate? odd y = some point) : point.OnCurve := by
  rw [atOrdinate?] at found
  obtain ⟨root, root_eq, made⟩ := Option.bind_eq_some_iff.mp found
  cases made
  obtain ⟨candidate, rfl, square_eq⟩ := exists_of_rootOfQuotient? root_eq
  have even_eq : PrimeField.withParity false candidate * PrimeField.withParity false candidate =
      candidate * candidate := by
    rcases PrimeField.withParity_eq_or_neg false candidate with same | opposite
    · rw [same]
    · rw [opposite, neg_mul_neg]
  have root_mul_self : (if odd then -PrimeField.withParity false candidate
      else PrimeField.withParity false candidate) * (if odd then
        -PrimeField.withParity false candidate else PrimeField.withParity false candidate) =
      candidate * candidate := by
    cases odd with
    | false => exact even_eq
    | true => exact (neg_mul_neg _ _).trans even_eq
  simp only [OnCurve, Satisfies]
  simp only [root_mul_self]
  linear_combination -square_eq

/-- A point of the curve is found at its ordinate by the parity of its abscissa. -/
theorem atOrdinate?_of_onCurve {point : Point} (on : point.OnCurve) :
    atOrdinate? (PrimeField.isOdd point.x) point.y = some point := by
  obtain ⟨x, y⟩ := point
  simp only [OnCurve, Satisfies] at on
  have numerator_eq : y * y - 1 = (coefficient * (y * y) + 1) * x * x := by
    linear_combination on
  have root_eq := rootOfQuotient?_of_square (abscissa_denominator_ne y) x
  have even_eq := PrimeField.withParity_isOdd (.inl rfl : x = x ∨ x = -x)
  rw [atOrdinate?]
  simp only [numerator_eq, root_eq, Option.bind_eq_bind, Option.bind_some]
  cases odd : PrimeField.isOdd x with
  | false =>
      rw [odd] at even_eq
      simp [even_eq]
  | true =>
      simp [PrimeField.withParity, odd]

/-! ## Bytes -/

theorem exists_of_decompress? {bytes : List UInt8} {point : Point}
    (made : decompress? bytes = some point) :
    ∃ element : Element, element.point = point ∧ order • element = 0 ∧ element ≠ 0 := by
  rw [decompress?] at made
  obtain ⟨found, found_eq, made⟩ := Option.bind_eq_some_iff.mp made
  have on := onCurve_of_atOrdinate? found_eq
  split at made
  · contradiction
  · next accepted =>
      cases made
      simp only [Bool.or_eq_true, Bool.not_eq_true', not_or, Bool.not_eq_false] at accepted
      refine ⟨⟨point, on⟩, rfl, (Element.inSubgroup_iff ⟨point, on⟩).mp accepted.2, ?_⟩
      intro zero
      have identity_eq : point = identity := congrArg Element.point zero
      exact accepted.1 (by rw [identity_eq, isIdentity, beq_self_eq_true])

/-- What is read is a point of the subgroup of prime order, and not the identity. -/
theorem exists_of_decode? {bytes : List UInt8} {point : Point}
    (decoded : decode? bytes = some point) :
    ∃ element : Element, element.point = point ∧ order • element = 0 ∧ element ≠ 0 := by
  cases bytes with
  | nil => contradiction
  | cons lead body =>
      simp only [decode?] at decoded
      split at decoded
      · exact exists_of_decompress? decoded
      · split at decoded
        · exact exists_of_decompress? decoded
        · contradiction

/-- The ordinate and the parity are read from the sum in which they are written. -/
theorem read_compress (point : Point) :
    ByteOrder.littleEndian.read point.compress.toList =
      point.y.val + if PrimeField.isOdd point.x then parityWeight else 0 := by
  have y_lt := point.y.isLt
  refine ByteOrder.read_write _ ?_
  have modulus_le : modulus ≤ parityWeight := by decide
  have capacity_eq : ByteOrder.capacity 32 = parityWeight + parityWeight := by decide
  rw [capacity_eq]
  split <;> omega

theorem decompress?_compress {element : Element} (period : order • element = 0)
    (nonzero : element ≠ 0) :
    decompress? element.point.compress.toList = some element.point := by
  have y_lt := element.point.y.isLt
  have modulus_le : modulus ≤ parityWeight := by decide
  have found := atOrdinate?_of_onCurve element.on
  have inside := element.inSubgroup_iff.mpr period
  have proper : element.point.isIdentity = false := by
    rw [isIdentity, beq_eq_false_iff_ne]
    exact fun identity_eq => nonzero (Element.ext identity_eq)
  have remainder_eq : (element.point.y.val +
      if PrimeField.isOdd element.point.x then parityWeight else 0) % parityWeight =
        element.point.y.val := by
    split
    · rw [Nat.add_mod_right, Nat.mod_eq_of_lt (by omega)]
    · rw [Nat.add_zero, Nat.mod_eq_of_lt (by omega)]
  have quotient_eq : decide ((element.point.y.val +
      if PrimeField.isOdd element.point.x then parityWeight else 0) / parityWeight % 2 = 1) =
        PrimeField.isOdd element.point.x := by
    cases PrimeField.isOdd element.point.x with
    | false => simp [Nat.div_eq_of_lt (Nat.lt_of_lt_of_le y_lt modulus_le)]
    | true =>
        have weight_pos : 0 < parityWeight := by decide
        simp [Nat.add_div_right _ weight_pos,
          Nat.div_eq_of_lt (Nat.lt_of_lt_of_le y_lt modulus_le)]
  have y_eq : Fin.ofNat modulus element.point.y.val = element.point.y :=
    Fin.ext (Nat.mod_eq_of_lt y_lt)
  rw [decompress?]
  simp only [read_compress, remainder_eq, quotient_eq, y_eq, found, Option.bind_eq_bind,
    Option.bind_some, proper, inside]
  rfl

/-- What is written for such a point is read as that point. -/
theorem decode?_encode {element : Element} (period : order • element = 0)
    (nonzero : element ≠ 0) : decode? element.point.encode.toList = some element.point := by
  have length_eq := element.point.compress.length_toList
  have bytes_eq : element.point.encode.toList = slotLead :: element.point.compress.toList := rfl
  rw [bytes_eq, decode?, if_neg (by rw [length_eq]; decide), if_pos ⟨length_eq, rfl⟩]
  exact decompress?_compress period nonzero

end Point

end KeyTree.Edwards
