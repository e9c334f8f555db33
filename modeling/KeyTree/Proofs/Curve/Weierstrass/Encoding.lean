import KeyTree.Curve.Weierstrass.Encoding
import KeyTree.Proofs.Curve.Weierstrass.Group

/-!
# Points of a Weierstrass curve are read as they are written

Every form of a point that is read denotes a finite point on the curve, and the form that is written
denotes the point that it was written for.
-/

namespace KeyTree.Weierstrass

open scoped PrimeField

variable {domain : Weierstrass}

namespace Point

theorem compactRoot_eq_or_neg (root : Fin domain.modulus) :
    compactRoot domain root = root ∨ compactRoot domain root = -root := by
  rw [compactRoot]
  split
  · exact PrimeField.withParity_eq_or_neg false root
  · split
    · exact .inl rfl
    · exact .inr rfl

/-- A point that is found at an abscissa is on the curve, whichever of the roots is chosen. -/
theorem onCurve_of_atAbscissa? {choose : Fin domain.modulus → Fin domain.modulus}
    (choice : ∀ root, choose root = root ∨ choose root = -root) {abscissa : Nat}
    {point : Point domain} (made : atAbscissa? choose abscissa = some point) :
    OnCurve point ∧ point.isInfinity = false := by
  rw [atAbscissa?] at made
  obtain ⟨x, -, made⟩ := Option.bind_eq_some_iff.mp made
  obtain ⟨root, found, made⟩ := Option.bind_eq_some_iff.mp made
  cases made
  refine ⟨?_, rfl⟩
  have square_eq := PrimeField.mul_self_of_squareRoot? found
  rw [OnCurve, ← square_eq]
  rcases choice root with same | opposite
  · rw [same]
  · rw [opposite, neg_mul_neg]

theorem onCurve_of_ofCoordinates? {abscissa ordinate : Nat} {point : Point domain}
    (made : ofCoordinates? abscissa ordinate = some point) :
    OnCurve point ∧ point.isInfinity = false := by
  rw [ofCoordinates?] at made
  obtain ⟨x, -, made⟩ := Option.bind_eq_some_iff.mp made
  obtain ⟨y, -, made⟩ := Option.bind_eq_some_iff.mp made
  split at made
  · next on =>
      cases made
      exact ⟨on, rfl⟩
  · contradiction

/-- What is read is a finite point on the curve. -/
theorem onCurve_of_decode? {bytes : List UInt8} {point : Point domain}
    (decoded : decode? bytes = some point) : OnCurve point ∧ point.isInfinity = false := by
  cases bytes with
  | nil => contradiction
  | cons lead body =>
      simp only [decode?] at decoded
      split at decoded
      · split at decoded
        · exact onCurve_of_atAbscissa? (PrimeField.withParity_eq_or_neg false) decoded
        · split at decoded
          · exact onCurve_of_atAbscissa? (PrimeField.withParity_eq_or_neg true) decoded
          · split at decoded
            · exact onCurve_of_atAbscissa? compactRoot_eq_or_neg decoded
            · contradiction
      · split at decoded
        · exact onCurve_of_ofCoordinates? decoded
        · contradiction

theorem ofNat?_val (x : Fin domain.modulus) : PrimeField.ofNat? x.val = some x := by
  rw [PrimeField.ofNat?, dif_pos x.isLt]

variable [Smooth domain]

/-- A point is found at its abscissa if its ordinate is chosen from the roots. -/
theorem atAbscissa?_of_choice (three : domain.modulus % 4 = 3)
    {choose : Fin domain.modulus → Fin domain.modulus} {x y : Fin domain.modulus}
    (choice : ∀ root, root = y ∨ root = -y → choose root = y)
    (on : OnCurve (.affine x y : Point domain)) :
    atAbscissa? choose x.val = some (.affine x y : Point domain) := by
  obtain ⟨root, found, same⟩ := PrimeField.exists_squareRoot? three y
  have square_eq : y * y = domain.cubic x := on
  rw [square_eq] at found
  simp only [atAbscissa?, ofNat?_val, found, Option.bind_eq_bind, Option.bind_some,
    choice root same]
  rfl

/-- At the abscissa of a point, its parity finds it. -/
theorem atAbscissa?_of_onCurve (three : domain.modulus % 4 = 3) {x y : Fin domain.modulus}
    (on : OnCurve (.affine x y : Point domain)) :
    atAbscissa? (PrimeField.withParity (PrimeField.isOdd y)) x.val =
      some (.affine x y : Point domain) :=
  atAbscissa?_of_choice three (fun _ => PrimeField.withParity_isOdd) on

/-- What is written for a finite point on the curve is read as that point. -/
theorem decode?_encode (three : domain.modulus % 4 = 3)
    (fits : domain.modulus ≤ ByteOrder.capacity 32) {point : Point domain} (on : OnCurve point)
    (finite : point.isInfinity = false) : decode? (encode point).toList = some point := by
  cases point with
  | infinity => contradiction
  | affine x y =>
      have found := atAbscissa?_of_onCurve three on
      have length_eq := (ByteOrder.bigEndian.write 32 x.val).length_toList
      have coordinate_eq : coordinate (ByteOrder.bigEndian.write 32 x.val).toList = x.val :=
        ByteOrder.read_write _ (Nat.lt_of_lt_of_le x.isLt fits)
      have bytes_eq : (encode (.affine x y : Point domain)).toList =
          (if PrimeField.isOdd y then 3 else 2) :: (ByteOrder.bigEndian.write 32 x.val).toList :=
        rfl
      rw [bytes_eq, decode?, if_pos length_eq, coordinate_eq]
      cases odd : PrimeField.isOdd y with
      | false =>
          rw [odd] at found
          exact found
      | true =>
          rw [odd] at found
          exact found

end Point

end KeyTree.Weierstrass
