import KeyTree.Proofs.Curve.Edwards.Canonical
import KeyTree.Proofs.Curve.Edwards.Generated

/-!
# The point that bytes denote on the Edwards curve

Thirty-two bytes denote the point with the ordinate and the parity that they hold.  All points of
the curve are denoted, also those outside the subgroup of prime order, and the reader takes the ones
inside, in both of their forms.
-/

namespace KeyTree.Edwards

open scoped PrimeField

namespace Point

/-! ## Forms -/

/--
The lower 255 bits hold the ordinate up to the modulus, and the highest bit is set if the abscissa
is odd.  For an abscissa of zero the highest bit does not matter.
-/
structure SpeltBy (point : Point) (bytes : Bytes 32) : Prop where
  on : point.OnCurve
  ordinate : point.y =
    Fin.ofNat modulus (ByteOrder.littleEndian.read bytes.toList % parityWeight)
  parity : point.x ≠ 0 →
    (PrimeField.isOdd point.x = true ↔ parityWeight ≤ ByteOrder.littleEndian.read bytes.toList)

/-- The forms of a point. -/
inductive Denotes : List UInt8 → Point → Prop where
  /-- The 32 bytes alone. -/
  | raw {bytes : Bytes 32} {point : Point} (spelt : point.SpeltBy bytes) :
      Denotes bytes.toList point
  /-- The 32 bytes after the lead byte of a slot. -/
  | slot {bytes : Bytes 32} {point : Point} (spelt : point.SpeltBy bytes) :
      Denotes (slotLead :: bytes.toList) point

variable {bytes : Bytes 32} {point first second : Point}

/-- No bytes spell two points. -/
theorem SpeltBy.unique (first_spelt : first.SpeltBy bytes) (second_spelt : second.SpeltBy bytes) :
    first = second := by
  have y_eq := first_spelt.ordinate.trans second_spelt.ordinate.symm
  have square_eq := abscissa_mul_self_eq first_spelt.on second_spelt.on y_eq
  refine eq_of_coordinates ?_ y_eq
  by_cases zero : first.x = 0
  · rw [zero, mul_zero] at square_eq
    rw [zero, mul_self_eq_zero.mp square_eq.symm]
  · have second_ne : second.x ≠ 0 := by
      intro second_zero
      rw [second_zero, mul_zero] at square_eq
      exact zero (mul_self_eq_zero.mp square_eq)
    refine PrimeField.eq_of_mul_self_eq_of_isOdd_eq square_eq (Bool.eq_iff_iff.mpr ?_)
    exact (first_spelt.parity zero).trans (second_spelt.parity second_ne).symm

theorem Denotes.unique {bytes : List UInt8} (first_denotes : Denotes bytes first)
    (second_denotes : Denotes bytes second) : first = second := by
  cases first_denotes with
  | @raw body _ first_spelt =>
      generalize list_eq : body.toList = list at second_denotes
      cases second_denotes with
      | raw second_spelt =>
          obtain rfl := Bytes.ext list_eq
          exact first_spelt.unique second_spelt
      | @slot other _ second_spelt =>
          have length_eq := congrArg List.length list_eq
          rw [List.length_cons, body.length_toList, other.length_toList] at length_eq
          contradiction
  | @slot body _ first_spelt =>
      generalize list_eq : slotLead :: body.toList = list at second_denotes
      cases second_denotes with
      | @raw other _ second_spelt =>
          have length_eq := congrArg List.length list_eq
          rw [List.length_cons, body.length_toList, other.length_toList] at length_eq
          contradiction
      | slot second_spelt =>
          obtain rfl := Bytes.ext (List.cons.inj list_eq).2
          exact first_spelt.unique second_spelt

/-! ## Reading -/

/-- The highest bit of 32 bytes. -/
theorem highest_iff (bytes : Bytes 32) :
    ByteOrder.littleEndian.read bytes.toList / parityWeight % 2 = 1 ↔
      parityWeight ≤ ByteOrder.littleEndian.read bytes.toList := by
  have fits : ByteOrder.littleEndian.read bytes.toList < parityWeight * 2 :=
    ByteOrder.read_lt .littleEndian bytes
  have weight_pos : 0 < parityWeight := by decide
  have quotient_lt := Nat.div_lt_of_lt_mul fits
  have one_le_iff := @Nat.le_div_iff_mul_le parityWeight 1
    (ByteOrder.littleEndian.read bytes.toList) weight_pos
  rw [Nat.one_mul] at one_le_iff
  rw [Nat.mod_eq_of_lt quotient_lt, ← one_le_iff]
  omega

theorem speltBy_of_decompress? (decoded : decompress? bytes.toList = some point) :
    point.SpeltBy bytes := by
  have found := atOrdinate?_of_decompress? decoded
  obtain ⟨y_eq, parity_eq⟩ := coordinates_of_atOrdinate? found
  refine ⟨onCurve_of_atOrdinate? found, y_eq, ?_⟩
  intro x_ne
  rw [parity_eq x_ne, decide_eq_true_iff]
  exact highest_iff bytes

/-- What spells a point of the subgroup is read as it, unless it is the identity. -/
theorem decompress?_of_speltBy {element : Element} (spelt : element.point.SpeltBy bytes)
    (period : order • element = 0) (nonzero : element ≠ 0) :
    decompress? bytes.toList = some element.point := by
  have found := atOrdinate?_of_onCurve element.on
  have parity_iff := spelt.parity (abscissa_ne_zero period nonzero)
  have inside := element.inSubgroup_iff.mpr period
  have proper : element.point.isIdentity = false := by
    rw [isIdentity, beq_eq_false_iff_ne]
    exact fun identity_eq => nonzero (Element.ext identity_eq)
  have parity_eq : PrimeField.isOdd element.point.x =
      decide (ByteOrder.littleEndian.read bytes.toList / parityWeight % 2 = 1) := by
    rw [Bool.eq_iff_iff, parity_iff, decide_eq_true_iff, highest_iff]
  rw [decompress?]
  simp only [← parity_eq, ← spelt.ordinate, found, Option.bind_eq_bind, Option.bind_some, proper,
    inside]
  rfl

theorem denotes_of_decode? {bytes : List UInt8} (decoded : decode? bytes = some point) :
    Denotes bytes point := by
  cases bytes with
  | nil => contradiction
  | cons lead body =>
      rw [decode?] at decoded
      split at decoded
      · next length_eq =>
          have width_eq : (lead :: body).length = 32 := congrArg Nat.succ length_eq
          exact @Denotes.raw ⟨lead :: body, width_eq⟩ point (speltBy_of_decompress? decoded)
      · split at decoded
        · next tagged =>
            obtain ⟨length_eq, rfl⟩ := tagged
            exact @Denotes.slot ⟨body, length_eq⟩ point (speltBy_of_decompress? decoded)
        · contradiction

theorem decode?_of_denotes {bytes : List UInt8} {element : Element}
    (denotes : Denotes bytes element.point) (period : order • element = 0)
    (nonzero : element ≠ 0) : decode? bytes = some element.point := by
  cases denotes with
  | @raw body _ spelt =>
      have decompressed := decompress?_of_speltBy spelt period nonzero
      obtain ⟨list, length_eq⟩ := body
      cases list with
      | nil => contradiction
      | cons lead rest =>
          rw [decode?, if_pos (Nat.succ.inj length_eq)]
          exact decompressed
  | @slot body _ spelt =>
      have length_eq := body.length_toList
      rw [decode?, if_neg (by rw [length_eq]; decide), if_pos ⟨length_eq, rfl⟩]
      exact decompress?_of_speltBy spelt period nonzero

end Point

end KeyTree.Edwards

namespace KeyTree.Curve

theorem ed25519Group_reads : ed25519Group.Reads Edwards.Point.Denotes where
  decode?_iff := by
    intro bytes point
    rw [Edwards.generated_iff]
    constructor
    · intro decoded
      exact ⟨Edwards.Point.denotes_of_decode? decoded, Edwards.Point.exists_of_decode? decoded⟩
    · rintro ⟨denotes, element, rfl, period, nonzero⟩
      exact Edwards.Point.decode?_of_denotes denotes period nonzero
  unique := Edwards.Point.Denotes.unique

end KeyTree.Curve
