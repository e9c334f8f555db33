import KeyTree.Proofs.Curve.Weierstrass.Generated
import KeyTree.Proofs.Curve.Weierstrass.Canonical

/-!
# The point that bytes denote on a Weierstrass curve

A point is spelt in up to three forms, and the identity in a form of its own.  The reader takes all
forms of the finite points and nothing else.
-/

namespace KeyTree.Weierstrass

open scoped PrimeField

variable {domain : Weierstrass}

namespace Point

/-! ## Forms -/

/-- The rule of the curve picks this ordinate and not its opposite. -/
def Picked (y : Fin domain.modulus) : Prop :=
  match domain.compactRule with
  | .even => PrimeField.isOdd y = false
  | .smaller => y.val ≤ (-y).val

/-- The forms of a point. -/
inductive Denotes : List UInt8 → Point domain → Prop where
  /-- The point at infinity is a single zero byte. -/
  | infinity : Denotes [0] .infinity
  /-- The parity of the ordinate, and the abscissa. -/
  | compressed {x y : Fin domain.modulus} (on : OnCurve (.affine x y : Point domain)) :
      Denotes (parityLead y :: coordinateBytes x) (.affine x y)
  /-- Both coordinates. -/
  | uncompressed {x y : Fin domain.modulus} (on : OnCurve (.affine x y : Point domain)) :
      Denotes (4 :: (coordinateBytes x ++ coordinateBytes y)) (.affine x y)
  /-- The abscissa alone. -/
  | compact {x y : Fin domain.modulus} (on : OnCurve (.affine x y : Point domain))
      (picked : Picked y) : Denotes (compactLead :: coordinateBytes x) (.affine x y)

theorem Denotes.of_infinite {bytes : List UInt8} {point : Point domain}
    (denotes : Denotes bytes point) (infinite : point.isInfinity = true) :
    bytes = [0] ∧ point = .infinity := by
  cases denotes with
  | infinity => exact ⟨rfl, rfl⟩
  | compressed on => contradiction
  | uncompressed on => contradiction
  | compact on picked => contradiction

/-! ## Coordinates -/

theorem length_coordinateBytes (value : Fin domain.modulus) :
    (coordinateBytes value).length = 32 :=
  (ByteOrder.bigEndian.write 32 value.val).length_toList

theorem coordinate_coordinateBytes (fits : domain.modulus ≤ ByteOrder.capacity 32)
    (value : Fin domain.modulus) : coordinate (coordinateBytes value) = value.val :=
  ByteOrder.read_write _ (Nat.lt_of_lt_of_le value.isLt fits)

/-! ## Roots -/

/-- The rule picks what it makes of a root. -/
theorem picked_compactRoot [Smooth domain] {root : Fin domain.modulus} (nonzero : root ≠ 0) :
    Picked (compactRoot domain root) := by
  rw [Picked, compactRoot]
  cases domain.compactRule with
  | even => exact PrimeField.isOdd_withParity nonzero
  | smaller =>
      dsimp only
      split
      · next smaller => exact smaller
      · next larger =>
          rw [neg_neg]
          exact Nat.le_of_not_le larger

/-- The rule picks the same one of two opposite roots, whichever is given. -/
theorem compactRoot_of_picked [Smooth domain] {y root : Fin domain.modulus} (picked : Picked y)
    (same : root = y ∨ root = -y) : compactRoot domain root = y := by
  rw [Picked] at picked
  rw [compactRoot]
  cases rule_eq : domain.compactRule with
  | even =>
      rw [rule_eq] at picked
      dsimp only at picked ⊢
      rw [← picked]
      exact PrimeField.withParity_isOdd same
  | smaller =>
      rw [rule_eq] at picked
      dsimp only at picked ⊢
      rcases same with rfl | rfl
      · rw [if_pos picked]
      · rw [neg_neg]
        split
        · next smaller => exact Fin.ext (Nat.le_antisymm smaller picked)
        · rfl

/-! ## Reading -/

theorem denotes_of_ofCoordinates? {first second : List UInt8} (first_length : first.length = 32)
    (second_length : second.length = 32) {point : Point domain}
    (made : ofCoordinates? (coordinate first) (coordinate second) = some point) :
    Denotes (4 :: (first ++ second)) point := by
  have on := (onCurve_of_ofCoordinates? made).1
  rw [ofCoordinates?] at made
  obtain ⟨x, x_eq, made⟩ := Option.bind_eq_some_iff.mp made
  obtain ⟨y, y_eq, made⟩ := Option.bind_eq_some_iff.mp made
  split at made
  · cases made
    rw [eq_coordinateBytes first_length x_eq, eq_coordinateBytes second_length y_eq]
    exact .uncompressed on
  · contradiction

section Rootless

variable [Smooth domain] (rootless : ∀ x, domain.cubic x ≠ 0)
include rootless

theorem denotes_of_parity {odd : Bool} {bytes : List UInt8} (length_eq : bytes.length = 32)
    {point : Point domain}
    (made : atAbscissa? (PrimeField.withParity odd) (coordinate bytes) = some point) :
    Denotes ((if odd then 3 else 2) :: bytes) point := by
  have on := (onCurve_of_atAbscissa? (PrimeField.withParity_eq_or_neg odd) made).1
  obtain ⟨x, root, rfl, square_eq, rfl⟩ := exists_of_atAbscissa? length_eq made
  have lead_eq : parityLead (PrimeField.withParity odd root) = if odd then 3 else 2 := by
    rw [parityLead, PrimeField.isOdd_withParity (root_ne_zero rootless square_eq)]
  rw [← lead_eq]
  exact .compressed on

theorem denotes_of_compactRoot {bytes : List UInt8} (length_eq : bytes.length = 32)
    {point : Point domain}
    (made : atAbscissa? (compactRoot domain) (coordinate bytes) = some point) :
    Denotes (compactLead :: bytes) point := by
  have on := (onCurve_of_atAbscissa? compactRoot_eq_or_neg made).1
  obtain ⟨x, root, rfl, square_eq, rfl⟩ := exists_of_atAbscissa? length_eq made
  exact .compact on (picked_compactRoot (root_ne_zero rootless square_eq))

/-- What is read is denoted. -/
theorem denotes_of_decode? {bytes : List UInt8} {point : Point domain}
    (decoded : decode? bytes = some point) : Denotes bytes point := by
  cases bytes with
  | nil => contradiction
  | cons lead body =>
      rw [decode?] at decoded
      split at decoded
      · next length_eq =>
          split at decoded
          · next even =>
              subst even
              exact denotes_of_parity rootless length_eq decoded
          · split at decoded
            · next odd =>
                subst odd
                exact denotes_of_parity rootless length_eq decoded
            · split at decoded
              · next compact =>
                  subst compact
                  exact denotes_of_compactRoot rootless length_eq decoded
              · contradiction
      · split at decoded
        · next whole =>
            obtain ⟨length_eq, rfl⟩ := whole
            rw [← List.take_append_drop 32 body]
            exact denotes_of_ofCoordinates? (by simp [length_eq]) (by simp [length_eq]) decoded
        · contradiction

end Rootless

section Smooth

variable [Smooth domain] (three : domain.modulus % 4 = 3)
  (fits : domain.modulus ≤ ByteOrder.capacity 32)

include three fits in
/-- What is denoted is read, unless it is the point at infinity. -/
theorem decode?_of_denotes {bytes : List UInt8} {point : Point domain}
    (denotes : Denotes bytes point) (finite : point.isInfinity = false) :
    decode? bytes = some point := by
  cases denotes with
  | infinity => contradiction
  | compressed on => exact decode?_encode three fits on finite
  | @uncompressed x y on =>
      have length_eq : (coordinateBytes x ++ coordinateBytes y).length = 64 := by
        rw [List.length_append, length_coordinateBytes, length_coordinateBytes]
      rw [decode?, if_neg (by rw [length_eq]; decide), if_pos ⟨length_eq, rfl⟩,
        List.take_left' (length_coordinateBytes x), List.drop_left' (length_coordinateBytes x),
        coordinate_coordinateBytes fits, coordinate_coordinateBytes fits]
      simp only [ofCoordinates?, ofNat?_val, Option.bind_eq_bind, Option.bind_some, if_pos on]
  | @compact x y on picked =>
      have found := atAbscissa?_of_choice three (fun root => compactRoot_of_picked picked) on
      rw [decode?, if_pos (length_coordinateBytes x), coordinate_coordinateBytes fits]
      exact found

include three fits in
/-- No bytes denote two points, since those of a finite point are read as it. -/
theorem Denotes.unique {bytes : List UInt8} {first second : Point domain}
    (first_denotes : Denotes bytes first) (second_denotes : Denotes bytes second) :
    first = second := by
  have zero_unread : decode? [0] = (none : Option (Point domain)) := rfl
  cases first_finite : first.isInfinity with
  | false =>
      have first_read := decode?_of_denotes three fits first_denotes first_finite
      cases second_finite : second.isInfinity with
      | false =>
          have second_read := decode?_of_denotes three fits second_denotes second_finite
          exact Option.some.inj (first_read.symm.trans second_read)
      | true =>
          obtain ⟨rfl, -⟩ := second_denotes.of_infinite second_finite
          rw [zero_unread] at first_read
          contradiction
  | true =>
      obtain ⟨rfl, rfl⟩ := first_denotes.of_infinite first_finite
      cases second_finite : second.isInfinity with
      | false =>
          have second_read := decode?_of_denotes three fits second_denotes second_finite
          rw [zero_unread] at second_read
          contradiction
      | true => exact (second_denotes.of_infinite second_finite).2.symm

end Smooth

end Point

/-! ## The reader of a curve -/

variable [Smooth domain]

theorem Sound.reads (sound : domain.Sound) (rootless : ∀ x, domain.cubic x ≠ 0)
    (few : 2 * domain.modulus + 1 < 3 * domain.order) (curve : Curve)
    {order_pos : 0 < domain.order} {order_le : domain.order ≤ ByteOrder.capacity 32} :
    (Curve.weierstrassGroup curve domain order_pos order_le).Reads (@Point.Denotes domain) where
  decode?_iff := by
    intro bytes point
    rw [sound.generated_iff rootless few curve]
    constructor
    · intro decoded
      exact ⟨Point.denotes_of_decode? rootless decoded, Point.onCurve_of_decode? decoded⟩
    · rintro ⟨denotes, -, finite⟩
      exact Point.decode?_of_denotes sound.modulus_mod_four sound.modulus_le denotes finite
  unique := Point.Denotes.unique sound.modulus_mod_four sound.modulus_le

end KeyTree.Weierstrass

namespace KeyTree.Curve

theorem secp256k1Group_reads :
    secp256k1Group.Reads (@Weierstrass.Point.Denotes Weierstrass.secp256k1) :=
  Weierstrass.sound_secp256k1.reads Weierstrass.cubic_secp256k1_ne_zero (by decide) .secp256k1

theorem p256Group_reads : p256Group.Reads (@Weierstrass.Point.Denotes Weierstrass.p256) :=
  Weierstrass.sound_p256.reads Weierstrass.cubic_p256_ne_zero (by decide) .p256

end KeyTree.Curve
