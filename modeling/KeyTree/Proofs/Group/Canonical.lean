import KeyTree.Curve.Group

/-!
# The slot that is read and the slot that is written

A point is written in one slot, which is read as the point.  A Weierstrass curve reads one more slot
as a point, the one whose lead byte says that the abscissa stands alone.
-/

namespace KeyTree

namespace KeySlot

/-- The first byte of a slot. -/
def lead (slot : KeySlot) : UInt8 :=
  @Bytes.head 32 slot

/-- What follows the first byte of a slot. -/
def body (slot : KeySlot) : Bytes 32 :=
  @Bytes.dropLeft 1 32 slot

theorem toList_eq (slot : KeySlot) : slot.toList = slot.lead :: slot.body.toList := by
  have slot_eq := @Bytes.singleton_head_append_dropLeft 32 slot
  exact congrArg Bytes.toList slot_eq.symm

theorem eq_of_lead_of_body {first second : KeySlot} (lead_eq : first.lead = second.lead)
    (body_eq : first.body = second.body) : first = second := by
  ext1
  rw [toList_eq, toList_eq, lead_eq, body_eq]

end KeySlot

/-- The lead bytes of the points that are written for the curves of a family. -/
def Family.leads : Family → List UInt8
  | .weierstrass => [2, 3]
  | .edwards => [0]

/-- The lead byte of a point that is written as its abscissa alone. -/
def compactLead : UInt8 := 5

theorem Family.compactLead_not_mem (family : Family) : compactLead ∉ family.leads := by
  cases family <;> decide

namespace CurveGroup

/--
The slot that is written for a point is the one that the point was read from, except for the lead
byte if the abscissa stood alone.
-/
structure Canonical (group : CurveGroup) : Prop where
  lead_mem : ∀ {slot : KeySlot} {point : group.Point}, group.decode? slot.toList = some point →
    (group.encode point).lead ∈ group.curve.family.leads
  body_eq : ∀ {slot : KeySlot} {point : group.Point}, group.decode? slot.toList = some point →
    (group.encode point).body = slot.body
  lead_eq : ∀ {slot : KeySlot} {point : group.Point}, group.decode? slot.toList = some point →
    slot.lead = (group.encode point).lead ∨
      slot.lead = compactLead ∧ group.curve.family = .weierstrass

variable {group : CurveGroup} {slot : KeySlot} {point : group.Point}

/-- A point is written as it was read exactly if the abscissa did not stand alone. -/
theorem Canonical.encode_eq_iff (canonical : group.Canonical)
    (decoded : group.decode? slot.toList = some point) :
    group.encode point = slot ↔ slot.lead ≠ compactLead := by
  have lead_mem := canonical.lead_mem decoded
  constructor
  · rintro rfl compact
    rw [compact] at lead_mem
    exact Family.compactLead_not_mem _ lead_mem
  · intro extended
    have lead_eq := (canonical.lead_eq decoded).resolve_right fun compact => extended compact.1
    exact KeySlot.eq_of_lead_of_body lead_eq.symm (canonical.body_eq decoded)

end CurveGroup

end KeyTree
