import KeyTree.Derivation.Step
import KeyTree.Proofs.Curve.Standard
import KeyTree.Proofs.Derivation.Candidate
import KeyTree.Proofs.Derivation.FirstAccepted
import KeyTree.Proofs.Derivation.Message

/-!
# What a step of derivation does

Both steps search for the first accepted candidate, and end as `FirstAccepted` says for every keyed
hash.
-/

namespace KeyTree.Derivation

variable {state : Type} (group : CurveGroup)

/-- The private child that an accepted output makes. -/
def privateOutcome (parent : Nat) (index : ChildIndex) (output : Bytes 64) : PrivateStep where
  key := ⟨group.byteOrder.write 32 ((parent + group.tweakValue output) % group.order)⟩
  chainCode := CurveGroup.rightHalf output
  index := index

/-- The public child that an accepted output makes. -/
def publicOutcome (parent : group.Point) (index : ChildIndex) (output : Bytes 64) : PublicStep where
  slot := group.encode (group.add parent (group.baseMultiple (group.tweakValue output)))
  chainCode := CurveGroup.rightHalf output
  index := index
  offset := group.byteOrder.write 32 (group.tweakValue output % group.order)

variable {group}

theorem run_privateCandidate (hash : KeyedHash state) (parent : group.Scalar) (key : Secret 32)
    (slot : KeySlot) (chainCode : Bytes 32) (index : ChildIndex) (memory : state) :
    (privateCandidate group hash parent key slot chainCode index).run memory =
      let message := privateMessage group.curve.family key slot index
      let answer := (hash chainCode.toList message.toList).run memory
      ((group.childScalar? parent answer.1).map fun child =>
        ⟨⟨group.scalarToBytes child⟩, CurveGroup.rightHalf answer.1, index⟩, answer.2) := rfl

theorem run_publicCandidate (hash : KeyedHash state) (parent : group.Point) (slot : KeySlot)
    (chainCode : Bytes 32) (index : ChildIndex) (memory : state) :
    (publicCandidate group hash parent slot chainCode index).run memory =
      let message := normalMessage group.curve.family slot index
      let answer := (hash chainCode.toList message.toList).run memory
      ((group.childPoint? parent answer.1).map fun moved =>
        ⟨group.encode moved.1, CurveGroup.rightHalf answer.1, index,
          group.scalarToBytes moved.2⟩, answer.2) := rfl

theorem privateStep_of_scalar {key : Secret 32} {parent : group.Scalar}
    (parent_eq : group.privateScalar key = .ok parent) (hash : KeyedHash state) (slot : KeySlot)
    (chainCode : Bytes 32) (index : ChildIndex) :
    privateStep group hash key slot chainCode index =
      search (privateCandidate group hash parent key slot chainCode) index := by
  rw [privateStep, parent_eq]
  rfl

theorem publicStep_of_point {slot : KeySlot} {parent : group.Point}
    (parent_eq : group.decode? slot.toList = some parent) {index : ChildIndex}
    (normal : ChildIndex.isHardened index = false) (hash : KeyedHash state)
    (chainCode : Bytes 32) :
    publicStep group hash slot chainCode index =
      search (publicCandidate group hash parent slot chainCode) index := by
  rw [publicStep, normal, CurveGroup.publicPoint, parent_eq]
  rfl

theorem publicStep_of_hardened {index : ChildIndex}
    (hardened : ChildIndex.isHardened index = true) (hash : KeyedHash state) (slot : KeySlot)
    (chainCode : Bytes 32) (memory : state) :
    (publicStep group hash slot chainCode index).runFrom memory =
      (.error (.hardenedFromPublic index), memory) := by
  rw [publicStep, hardened]
  rfl

theorem privateStep_firstAccepted {key : Secret 32} {parent : group.Scalar}
    (parent_eq : group.privateScalar key = .ok parent) (hash : KeyedHash state) (slot : KeySlot)
    (chainCode : Bytes 32) (index : ChildIndex) (memory : state) :
    FirstAccepted hash chainCode (childMessage group.curve.family key slot)
      (group.AcceptsScalar parent.val) (privateOutcome group parent.val) index memory
      ((privateStep group hash key slot chainCode index).runFrom memory) := by
  rw [privateStep_of_scalar parent_eq]
  refine firstAccepted_search (fun index output =>
    (group.childScalar? parent output).map fun child =>
      ⟨⟨group.scalarToBytes child⟩, CurveGroup.rightHalf output, index⟩) ?_ ?_ ?_
  · intro index memory
    rw [← toList_privateMessage]
    exact run_privateCandidate hash parent key slot chainCode index memory
  · intro index output accepts
    rw [CurveGroup.childScalar?_of_accepts accepts]
    rfl
  · intro index output refuses
    rw [CurveGroup.childScalar?_of_refuses refuses]
    rfl

theorem publicStep_firstAccepted (lawful : group.Lawful) {slot : KeySlot} {parent : group.Point}
    (parent_eq : group.decode? slot.toList = some parent) {index : ChildIndex}
    (normal : ChildIndex.isHardened index = false) (hash : KeyedHash state)
    (chainCode : Bytes 32) (memory : state) :
    FirstAccepted hash chainCode (publicMessage group.curve.family slot)
      (group.AcceptsPoint parent) (publicOutcome group parent) index memory
      ((publicStep group hash slot chainCode index).runFrom memory) := by
  rw [publicStep_of_point parent_eq normal]
  refine firstAccepted_search (fun index output =>
    (group.childPoint? parent output).map fun moved =>
      ⟨group.encode moved.1, CurveGroup.rightHalf output, index, group.scalarToBytes moved.2⟩)
    ?_ ?_ ?_
  · intro index memory
    rw [← toList_normalMessage]
    exact run_publicCandidate hash parent slot chainCode index memory
  · intro index output accepts
    rw [CurveGroup.childPoint?_of_accepts lawful accepts]
    rfl
  · intro index output refuses
    rw [CurveGroup.childPoint?_of_refuses lawful refuses]
    rfl

/-- A public step never reaches a hardened index, nor one before the index that was asked for. -/
theorem index_of_publicStep (lawful : group.Lawful) {hash : KeyedHash state} {slot : KeySlot}
    {chainCode : Bytes 32} {index : ChildIndex} {memory after : state} {step : PublicStep}
    (run : (publicStep group hash slot chainCode index).runFrom memory = (.ok step, after)) :
    ChildIndex.isHardened step.index = false ∧ index ≤ step.index := by
  rcases hardened : ChildIndex.isHardened index with - | -
  · rcases decoded : group.decode? slot.toList with - | parent
    · rw [publicStep, hardened, CurveGroup.publicPoint, decoded] at run
      cases run
    · have ends := publicStep_firstAccepted lawful decoded hardened hash chainCode memory
      rw [run] at ends
      obtain ⟨current, output, rfl, half, later⟩ := ends.exists_of_ok
      exact ⟨half.trans hardened, later⟩
  · rw [publicStep_of_hardened hardened] at run
    cases run

/--
On every curve and for every keyed hash, both steps ask about the indices from the given one on,
once each, and end at the first output that is accepted or at the end of the half.  The public step
asks nothing under a hardened index.
-/
theorem steps_firstAccepted {curve : Curve} (hash : KeyedHash state) (chainCode : Bytes 32)
    (index : ChildIndex) (memory : state) :
    (∀ key slot, 0 < curve.group.byteOrder.read key.bytes.toList →
      curve.group.byteOrder.read key.bytes.toList < curve.group.order →
        FirstAccepted hash chainCode (childMessage curve.family key slot)
          (curve.group.AcceptsScalar (curve.group.byteOrder.read key.bytes.toList))
          (privateOutcome curve.group (curve.group.byteOrder.read key.bytes.toList)) index memory
          ((privateStep curve.group hash key slot chainCode index).runFrom memory)) ∧
      (ChildIndex.isHardened index = false → ∀ slot parent,
        curve.group.decode? slot.toList = some parent →
          FirstAccepted hash chainCode (publicMessage curve.family slot)
            (curve.group.AcceptsPoint parent) (publicOutcome curve.group parent) index memory
            ((publicStep curve.group hash slot chainCode index).runFrom memory)) ∧
      (ChildIndex.isHardened index = true → ∀ slot,
        (publicStep curve.group hash slot chainCode index).runFrom memory =
          (.error (.hardenedFromPublic index), memory)) ∧
      ∀ key slot tried, (childMessage curve.family key slot tried).length = 37 ∧
        (publicMessage curve.family slot tried).length = 37 := by
  have lawful := curve.group_lawful
  have family_eq : curve.group.curve.family = curve.family := by rw [Curve.curve_group]
  refine ⟨?_, ?_, ?_, ?_⟩
  · intro key slot positive small
    have parent_eq : curve.group.privateScalar key =
        .ok ⟨curve.group.byteOrder.read key.bytes.toList, small⟩ :=
      CurveGroup.privateScalar_eq_ok_iff.mpr ⟨rfl, positive⟩
    rw [← family_eq]
    exact privateStep_firstAccepted parent_eq hash slot chainCode index memory
  · intro normal slot parent decoded
    rw [← family_eq]
    exact publicStep_firstAccepted lawful decoded normal hash chainCode memory
  · exact fun hardened slot => publicStep_of_hardened hardened hash slot chainCode memory
  · exact fun key slot tried =>
      ⟨length_childMessage curve.family key slot tried,
        length_publicMessage curve.family slot tried⟩

/--
A keyed hash that answers the first question with an output that is out of range, and then with one.
-/
def refusedOnce : KeyedHash Nat := fun _ _ => do
  let count ← getModify (· + 1)
  return if count = 0 then ⟨List.replicate 64 255, rfl⟩
    else ⟨List.replicate 31 0 ++ 1 :: List.replicate 32 0, rfl⟩

/-- The steps from the private key one and from the base point. -/
theorem steps_firstAccepted_refusedOnce :
    ∃ key slot parent, 0 < Curve.secp256k1.group.byteOrder.read key.bytes.toList ∧
      Curve.secp256k1.group.byteOrder.read key.bytes.toList < Curve.secp256k1.group.order ∧
      Curve.secp256k1.group.decode? slot.toList = some parent ∧
      FirstAccepted refusedOnce (Bytes.zero 32) (childMessage .weierstrass key slot)
        (Curve.secp256k1.group.AcceptsScalar 1) (privateOutcome Curve.secp256k1.group 1) 0 0
        ((privateStep Curve.secp256k1.group refusedOnce key slot (Bytes.zero 32) 0).runFrom 0) ∧
      FirstAccepted refusedOnce (Bytes.zero 32) (publicMessage .weierstrass slot)
        (Curve.secp256k1.group.AcceptsPoint parent) (publicOutcome Curve.secp256k1.group parent)
        0 0 ((publicStep Curve.secp256k1.group refusedOnce slot (Bytes.zero 32) 0).runFrom 0) := by
  let one : Curve.secp256k1.group.Scalar := ⟨1, by decide⟩
  have lawful := Curve.secp256k1.group_lawful
  have decoded := lawful.decode?_encode_timesBase (by decide : one.val ≠ 0)
  have read_one := CurveGroup.read_scalarToBytes one
  have below : 1 < Curve.secp256k1.group.order := by decide
  obtain ⟨privately, publicly, -⟩ :=
    @steps_firstAccepted Nat .secp256k1 refusedOnce (Bytes.zero 32) 0 0
  have private_run := privately ⟨Curve.secp256k1.group.scalarToBytes one⟩
    (Curve.secp256k1.group.encode (Curve.secp256k1.group.timesBase one))
  simp only [read_one] at private_run
  refine ⟨_, _, _, ?_, ?_, decoded, private_run Nat.one_pos below, ?_⟩
  · simp only [read_one]
    exact Nat.one_pos
  · simp only [read_one]
    exact below
  · exact publicly rfl _ _ decoded

end KeyTree.Derivation
