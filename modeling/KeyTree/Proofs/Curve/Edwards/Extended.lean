import KeyTree.Proofs.Curve.Edwards.Group

/-!
# Sums in extended coordinates

Extended coordinates stand for a point with a common denominator, and their sum stands for the sum
of the points.  Elements of the group are the points of the curve under this sum.
-/

namespace KeyTree.Edwards

open scoped PrimeField

namespace Extended

/-- Extended coordinates stand for a point. -/
structure Stands (coordinates : Extended) (point : Point) : Prop where
  z_ne : coordinates.z ≠ 0
  x_eq : coordinates.x = point.x * coordinates.z
  y_eq : coordinates.y = point.y * coordinates.z
  product_eq : coordinates.product = point.x * point.y * coordinates.z

theorem stands_ofPoint (point : Point) : (ofPoint point).Stands point where
  z_ne := one_ne_zero
  x_eq := (mul_one _).symm
  y_eq := (mul_one _).symm
  product_eq := (mul_one _).symm

theorem stands_identity : identity.Stands Point.identity where
  z_ne := one_ne_zero
  x_eq := (zero_mul _).symm
  y_eq := (mul_one _).symm
  product_eq := by simp [identity, Point.identity]

variable {coordinates left right : Extended} {point first second sum : Point}

theorem Stands.toPoint_eq (stands : coordinates.Stands point) : coordinates.toPoint = point := by
  have inverse_eq := PrimeField.mul_inverse stands.z_ne
  apply Point.eq_of_coordinates
  · simp only [toPoint, stands.x_eq]
    linear_combination point.x * inverse_eq
  · simp only [toPoint, stands.y_eq]
    linear_combination point.y * inverse_eq

theorem Stands.isIdentity_iff (stands : coordinates.Stands point) :
    coordinates.isIdentity = true ↔ point = Point.identity := by
  obtain ⟨z_ne, x_eq, y_eq, -⟩ := stands
  rw [isIdentity, Bool.and_eq_true, beq_iff_eq, beq_iff_eq, x_eq, y_eq]
  constructor
  · rintro ⟨x_zero, y_one⟩
    have point_x := (mul_eq_zero.mp x_zero).resolve_right z_ne
    have point_y := mul_right_cancel₀ z_ne (y_one.trans (one_mul coordinates.z).symm)
    exact Point.eq_of_coordinates point_x point_y
  · rintro rfl
    exact ⟨zero_mul coordinates.z, one_mul coordinates.z⟩

/-- The sum of extended coordinates stands for the sum of the points. -/
theorem Stands.add (left_stands : left.Stands first) (right_stands : right.Stands second)
    (first_on : first.OnCurve) (second_on : second.OnCurve) (sums : first.SumsTo second sum) :
    (Extended.add left right).Stands sum := by
  have plus_ne := Point.one_add_mixed_ne first_on second_on
  have minus_ne := Point.one_sub_mixed_ne first_on second_on
  have scale_ne :=
    mul_ne_zero (mul_ne_zero PrimeField.two_ne_zero left_stands.z_ne) right_stands.z_ne
  obtain ⟨abscissa, ordinate⟩ := sums
  obtain ⟨-, left_x, left_y, left_product⟩ := left_stands
  obtain ⟨-, right_x, right_y, right_product⟩ := right_stands
  have z_eq : (Extended.add left right).z =
      2 * left.z * right.z * (1 - Point.mixed first second) *
        (2 * left.z * right.z * (1 + Point.mixed first second)) := by
    simp only [Extended.add, left_product, right_product, Point.mixed, mixed]
    ring
  have x_eq : (Extended.add left right).x =
      2 * left.z * right.z * cross first.x first.y second.x second.y *
        (2 * left.z * right.z * (1 - Point.mixed first second)) := by
    simp only [Extended.add, left_x, left_y, right_x, right_y, left_product, right_product,
      Point.mixed, mixed, cross]
    ring
  have y_eq : (Extended.add left right).y =
      2 * left.z * right.z * dot first.x first.y second.x second.y *
        (2 * left.z * right.z * (1 + Point.mixed first second)) := by
    simp only [Extended.add, left_x, left_y, right_x, right_y, left_product, right_product,
      Point.mixed, mixed, dot]
    ring
  have product_eq : (Extended.add left right).product =
      2 * left.z * right.z * cross first.x first.y second.x second.y *
        (2 * left.z * right.z * dot first.x first.y second.x second.y) := by
    simp only [Extended.add, left_x, left_y, right_x, right_y, cross, dot]
    ring
  refine ⟨?_, ?_, ?_, ?_⟩
  · rw [z_eq]
    exact mul_ne_zero (mul_ne_zero scale_ne minus_ne) (mul_ne_zero scale_ne plus_ne)
  · rw [x_eq, z_eq, ← abscissa]
    ring
  · rw [y_eq, z_eq, ← ordinate]
    ring
  · rw [product_eq, z_eq, ← abscissa, ← ordinate]
    ring

end Extended

/-! ## The group -/

/-- The sum of two points is the one of the addition law. -/
theorem Point.sumsTo_add {first second : Point} (first_on : first.OnCurve)
    (second_on : second.OnCurve) : first.SumsTo second (first.add second) := by
  obtain ⟨sum, sums⟩ := exists_sumsTo first_on second_on
  have stands := (Extended.stands_ofPoint first).add (Extended.stands_ofPoint second)
    first_on second_on sums
  rw [add, stands.toPoint_eq]
  exact sums

theorem Point.identity_onCurve : identity.OnCurve := by
  simp only [OnCurve, Satisfies, identity]
  ring

theorem Point.identity_sumsTo (point : Point) : identity.SumsTo point point := by
  constructor
  · simp only [mixed, Edwards.mixed, cross, identity]
    ring
  · simp only [mixed, Edwards.mixed, dot, identity]
    ring

/-- The point with the opposite abscissa. -/
def Point.opposite (point : Point) : Point :=
  ⟨-point.x, point.y⟩

theorem Point.opposite_onCurve {point : Point} (on : point.OnCurve) : point.opposite.OnCurve := by
  simp only [OnCurve, Satisfies, opposite] at *
  linear_combination on

theorem Point.opposite_sumsTo {point : Point} (on : point.OnCurve) :
    point.opposite.SumsTo point identity := by
  simp only [OnCurve, Satisfies] at on
  constructor
  · simp only [mixed, Edwards.mixed, cross, identity, opposite]
    ring
  · simp only [mixed, Edwards.mixed, dot, identity, opposite]
    linear_combination -on

/-- A point of the curve. -/
@[ext]
structure Element where
  point : Point
  on : point.OnCurve

namespace Element

instance : Add Element where
  add first second :=
    ⟨first.point.add second.point,
      (Point.sumsTo_add first.on second.on).onCurve first.on second.on⟩

instance : Zero Element where
  zero := ⟨Point.identity, Point.identity_onCurve⟩

instance : Neg Element where
  neg element := ⟨element.point.opposite, Point.opposite_onCurve element.on⟩

theorem sumsTo (first second : Element) :
    first.point.SumsTo second.point (first + second).point :=
  Point.sumsTo_add first.on second.on

/-- The equations of a sum determine it. -/
theorem eq_of_sumsTo {first second sum other : Element}
    (sums : first.point.SumsTo second.point sum.point)
    (others : first.point.SumsTo second.point other.point) : sum = other :=
  Element.ext (sums.unique others first.on second.on)

protected theorem add_assoc (first second third : Element) :
    first + second + third = first + (second + third) :=
  Element.ext ((first.sumsTo second).assoc first.on second.on third.on
    ((first + second).sumsTo third) (second.sumsTo third) (first.sumsTo (second + third)))

protected theorem zero_add (element : Element) : 0 + element = element :=
  eq_of_sumsTo (sumsTo 0 element) (Point.identity_sumsTo element.point)

protected theorem neg_add_cancel (element : Element) : -element + element = 0 :=
  eq_of_sumsTo ((-element).sumsTo element) (Point.opposite_sumsTo element.on)

protected theorem add_comm (first second : Element) : first + second = second + first :=
  eq_of_sumsTo (first.sumsTo second) (second.sumsTo first).comm

instance : AddCommGroup Element :=
  { AddGroup.ofLeftAxioms Element.add_assoc Element.zero_add Element.neg_add_cancel with
    add_comm := Element.add_comm }

/-- The multiples that are worked out in extended coordinates are those of the group. -/
theorem stands_times (element : Element) (count : Nat) :
    (Point.times count element.point).Stands (count • element).point := by
  refine multiple_induction
    (motive := fun count (coordinates : Extended) => coordinates.Stands (count • element).point)
    ?_ ?_ ?_ count
  · rw [zero_nsmul]
    exact Extended.stands_identity
  · rw [one_nsmul]
    exact Extended.stands_ofPoint element.point
  · intro first second left right left_stands right_stands
    rw [add_nsmul]
    exact left_stands.add right_stands (first • element).on (second • element).on
      ((first • element).sumsTo (second • element))

/-- A point lies in the subgroup of prime order if the order takes it to zero. -/
theorem inSubgroup_iff (element : Element) :
    element.point.inSubgroup = true ↔ order • element = 0 := by
  rw [Point.inSubgroup, (element.stands_times order).isIdentity_iff, Element.ext_iff]
  rfl

end Element

end KeyTree.Edwards
