import KeyTree.Proofs.Curve.Edwards.Encoding
import KeyTree.Proofs.Group.Embedding

/-!
# The group of the Edwards curve is lawful

The base point generates the subgroup of prime order, and no other points are read.
-/

namespace KeyTree.Edwards

/-- The points that the order takes to zero. -/
def primeSubgroup : AddSubgroup Element :=
  (nsmulAddMonoidHom order).ker

theorem base_onCurve : Point.base.OnCurve := by
  simp only [Point.OnCurve, Satisfies]
  decide

theorem base_inSubgroup : Point.base.inSubgroup = true := by
  have times_eq : Point.times order Point.base =
      multipleWithin Extended.add Extended.identity (.ofPoint Point.base) 256 order :=
    multiple_eq_multipleWithin (by decide)
  rw [Point.inSubgroup, times_eq]
  decide +kernel

/-- The base point as an element of the subgroup. -/
def baseElement : primeSubgroup :=
  ⟨⟨Point.base, base_onCurve⟩,
    (Element.inSubgroup_iff ⟨Point.base, base_onCurve⟩).mp base_inSubgroup⟩

end KeyTree.Edwards

namespace KeyTree.Curve

open Edwards

theorem ed25519Group_embeds :
    ed25519Group.Embeds (fun element : primeSubgroup => element.val.point) baseElement where
  add_embed := fun _ _ => rfl
  baseMultiple_eq := fun count => (baseElement.val.stands_times count).toPoint_eq
  isIdentity_embed := by
    intro element
    change (element.val.point == Point.identity) = true ↔ element = 0
    rw [beq_iff_eq, Subtype.ext_iff, Element.ext_iff]
    rfl
  prime_order := prime_order
  order_nsmul := Subtype.ext baseElement.property
  base_ne := by
    intro zero
    have base_eq : Point.base = Point.identity :=
      congrArg (fun element : primeSubgroup => element.val.point) zero
    have x_ne : Point.base.x ≠ Point.identity.x := by decide
    exact x_ne (congrArg Point.x base_eq)
  exists_of_decode? := by
    intro bytes point decoded
    obtain ⟨element, rfl, period, nonzero⟩ := Point.exists_of_decode? decoded
    exact ⟨⟨element, period⟩, fun zero => nonzero (congrArg Subtype.val zero), rfl⟩
  decode?_encode := by
    intro element nonzero
    exact Point.decode?_encode element.property fun zero => nonzero (Subtype.ext zero)

theorem ed25519Group_lawful : ed25519Group.Lawful :=
  ed25519Group_embeds.lawful

end KeyTree.Curve
