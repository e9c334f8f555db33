import KeyTree.Proofs.Key.Reachable

/-!
# The index in the failure of a search

A search that finds no valid child fails with an index, and its wording says that there is no valid
child from this index on.  The index is the last one that was tried, which is the end of the half,
wherever the search began.
-/

namespace KeyTree.Key

open KeyTree.Derivation ChildIndex

variable {group : CurveGroup} {state : Type} {key : Key group} {index named : ChildIndex}
  {memory after : state} {error : Error}

/-! ## Children that are not found -/

theorem privateChild_eq_error_iff {scalar : group.Scalar} (holds : key.HoldsScalar scalar)
    (shallow : key.depth ≠ 255) (hash : KeyedHash state) :
    (key.privateChild hash index).runFrom memory = (.error error, after) ↔
      error = .rangeExhausted (lastOfHalf index) ∧
        Exhausts hash key.chainCode (childMessage group.curve.family
          ⟨group.scalarToBytes scalar⟩ (group.encode (group.timesBase scalar)))
          (group.AcceptsScalar scalar.val) index memory after := by
  have scalar_eq := CurveGroup.privateScalar_scalarToBytes holds.2
  rw [privateChild_of_shallow holds.private?_eq shallow holds.publicKey_eq,
    runFrom_bind_pure_eq_error_iff]
  exact (privateStep_firstAccepted scalar_eq hash _ key.chainCode index memory).eq_error_iff

/-- A private derivation finds no child exactly if the outputs for all its indices are refused. -/
theorem privateChild_exhausted_iff (valid : key.Valid) (hash : KeyedHash state) :
    (key.privateChild hash index).runFrom memory = (.error (.rangeExhausted named), after) ↔
      named = lastOfHalf index ∧ key.depth ≠ 255 ∧ ∃ scalar, key.HoldsScalar scalar ∧
        Exhausts hash key.chainCode (childMessage group.curve.family
          ⟨group.scalarToBytes scalar⟩ (group.encode (group.timesBase scalar)))
          (group.AcceptsScalar scalar.val) index memory after := by
  constructor
  · intro failed
    rcases owned : key.private? with - | secret
    · rw [privateChild_of_public owned] at failed
      cases failed
    · by_cases deep : key.depth = 255
      · rw [privateChild_of_deep owned deep] at failed
        cases failed
      · obtain ⟨scalar, holds⟩ := valid.holdsScalar owned
        obtain ⟨error_eq, exhausts⟩ := (privateChild_eq_error_iff holds deep hash).mp failed
        exact ⟨Error.rangeExhausted.inj error_eq, deep, scalar, holds, exhausts⟩
  · rintro ⟨rfl, shallow, scalar, holds, exhausts⟩
    exact (privateChild_eq_error_iff holds shallow hash).mpr ⟨rfl, exhausts⟩

theorem publicChild_eq_error_iff (lawful : group.Lawful) {point : group.Point}
    (has : key.HasPoint point) (shallow : key.depth ≠ 255) (normal : isHardened index = false)
    (hash : KeyedHash state) :
    (key.publicChild hash index).runFrom memory = (.error error, after) ↔
      error = .rangeExhausted (lastOfHalf index) ∧
        Exhausts hash key.chainCode (publicMessage group.curve.family (group.encode point))
          (group.AcceptsPoint point) index memory after := by
  obtain ⟨known, attainable, proper⟩ := has
  have decoded := lawful.decode?_encode attainable proper
  rw [publicChild_of_shallow shallow normal known, runFrom_bind_pure_eq_error_iff]
  exact (publicStep_firstAccepted lawful decoded normal hash key.chainCode memory).eq_error_iff

/-- A public derivation finds no child exactly if the outputs for all its indices are refused. -/
theorem publicChild_exhausted_iff (lawful : group.Lawful) (valid : key.Valid)
    (hash : KeyedHash state) :
    (key.publicChild hash index).runFrom memory = (.error (.rangeExhausted named), after) ↔
      named = lastOfHalf index ∧ key.depth ≠ 255 ∧ isHardened index = false ∧
        ∃ point, key.HasPoint point ∧
          Exhausts hash key.chainCode (publicMessage group.curve.family (group.encode point))
            (group.AcceptsPoint point) index memory after := by
  constructor
  · intro failed
    rcases hardened : isHardened index with - | -
    · by_cases deep : key.depth = 255
      · rw [publicChild_of_deep deep hardened] at failed
        cases failed
      · obtain ⟨point, has⟩ := valid.hasPoint lawful
        obtain ⟨error_eq, exhausts⟩ :=
          (publicChild_eq_error_iff lawful has deep hardened hash).mp failed
        exact ⟨Error.rangeExhausted.inj error_eq, deep, rfl, point, has, exhausts⟩
    · rw [publicChild_of_hardened hardened] at failed
      cases failed
  · rintro ⟨rfl, shallow, normal, point, has, exhausts⟩
    exact (publicChild_eq_error_iff lawful has shallow normal hash).mpr ⟨rfl, exhausts⟩

/--
When a derivation of a child tries all indices from the one asked for to the end of its half and
finds no child, it fails with the last of them.  That is the index asked for only if no other index
follows it.
-/
theorem rangeExhausted_names_last {curve : Curve} {key : Key curve.group} (valid : key.Valid)
    (hash : KeyedHash state) (index : ChildIndex) (memory : state) :
    (∀ named after,
      (key.privateChild hash index).runFrom memory = (.error (.rangeExhausted named), after) ↔
        named = lastOfHalf index ∧ key.depth ≠ 255 ∧ ∃ scalar, key.HoldsScalar scalar ∧
          Exhausts hash key.chainCode (childMessage curve.family
            ⟨curve.group.scalarToBytes scalar⟩ (curve.group.encode (curve.group.timesBase scalar)))
            (curve.group.AcceptsScalar scalar.val) index memory after) ∧
      (∀ named after,
        (key.publicChild hash index).runFrom memory = (.error (.rangeExhausted named), after) ↔
          named = lastOfHalf index ∧ key.depth ≠ 255 ∧ isHardened index = false ∧
            ∃ point, key.HasPoint point ∧
              Exhausts hash key.chainCode (publicMessage curve.family (curve.group.encode point))
                (curve.group.AcceptsPoint point) index memory after) ∧
      (lastOfHalf index = index ↔ following index = 0) := by
  have family_eq : curve.group.curve.family = curve.family := by rw [Curve.curve_group]
  rw [← family_eq]
  refine ⟨?_, ?_, lastOfHalf_eq_self_iff⟩
  · exact fun named after => privateChild_exhausted_iff valid hash
  · exact fun named after => publicChild_exhausted_iff curve.group_lawful valid hash

/-! ## A keyed hash that refuses everything -/

/-- The output that holds the largest number. -/
def refusedOutput : Bytes 64 := ⟨List.replicate 64 255, List.length_replicate⟩

/-- A keyed hash that answers every question with this output. -/
def refusing : KeyedHash Unit := fun _ _ => return refusedOutput

theorem refused_of_mem_questions {chainCode : Bytes 32} {message : ChildIndex → List UInt8}
    (indices : List ChildIndex) :
    ∀ output ∈ ((questions refusing chainCode message indices).run ()).1,
      output = refusedOutput := by
  induction indices with
  | nil => exact fun _ member => absurd member List.not_mem_nil
  | cons index indices ih =>
      rw [run_questions_cons]
      exact List.forall_mem_cons.mpr ⟨rfl, ih⟩

theorem not_tweakInRange_refusedOutput : ¬Curve.secp256k1.group.TweakInRange refusedOutput :=
  fun inRange => absurd (inRange rfl) (by decide)

/-- A search whose rule asks for outputs in range finds no child, wherever it begins. -/
theorem exhausts_refusing {accepts : Bytes 64 → Prop}
    (inRange : ∀ output, accepts output → Curve.secp256k1.group.TweakInRange output)
    (chainCode : Bytes 32) (message : ChildIndex → List UInt8) (index : ChildIndex) :
    Exhausts refusing chainCode message accepts index () () := by
  have all_equal := @refused_of_mem_questions chainCode message
    (consecutive (following index + 1) index)
  rcases asked : (questions refusing chainCode message
    (consecutive (following index + 1) index)).run () with ⟨outputs, after⟩
  rw [asked] at all_equal
  refine ⟨outputs, asked, fun output member accepted => ?_⟩
  rw [all_equal output member] at accepted
  exact not_tweakInRange_refusedOutput (inRange refusedOutput accepted)

theorem holdsScalar_generatorKey : generatorKey.HoldsScalar ⟨1, by decide⟩ :=
  ⟨rfl, by decide⟩

/-- From the last index but one of the normal half, both derivations name the last. -/
theorem rangeExhausted_names_last_generatorKey :
    generatorKey.Valid ∧
      (generatorKey.privateChild refusing 0x7ffffffe).runFrom () =
        (.error (.rangeExhausted (lastOfHalf 0x7ffffffe)), ()) ∧
      (generatorKey.publicChild refusing 0x7ffffffe).runFrom () =
        (.error (.rangeExhausted (lastOfHalf 0x7ffffffe)), ()) := by
  have holds := holdsScalar_generatorKey
  have has := holds.hasPoint Curve.secp256k1.group_lawful
  obtain ⟨privately, publicly, -⟩ := rangeExhausted_names_last holds.valid refusing 0x7ffffffe ()
  refine ⟨holds.valid, (privately _ ()).mpr ⟨rfl, by decide, _, holds, ?_⟩,
    (publicly _ ()).mpr ⟨rfl, by decide, by decide, _, has, ?_⟩⟩
  · exact exhausts_refusing (fun _ accepted => accepted.1) _ _ _
  · exact exhausts_refusing (fun _ accepted => accepted.1) _ _ _

/-- The index that is named is not the one that was asked for. -/
theorem rangeExhausted_names_other :
    generatorKey.Valid ∧
      (∃ named, (generatorKey.privateChild refusing 0x7ffffffe).runFrom () =
        (.error (.rangeExhausted named), ()) ∧ named ≠ 0x7ffffffe) ∧
      ∃ named, (generatorKey.publicChild refusing 0x7ffffffe).runFrom () =
        (.error (.rangeExhausted named), ()) ∧ named ≠ 0x7ffffffe := by
  have holds := holdsScalar_generatorKey
  have has := holds.hasPoint Curve.secp256k1.group_lawful
  have private_failed := (privateChild_eq_error_iff holds (by decide) refusing).mpr
    ⟨rfl, exhausts_refusing (fun _ accepted => accepted.1) _ _ 0x7ffffffe⟩
  have public_failed := (publicChild_eq_error_iff Curve.secp256k1.group_lawful has (by decide)
    (by decide) refusing).mpr
      ⟨rfl, exhausts_refusing (fun _ accepted => accepted.1) _ _ 0x7ffffffe⟩
  exact ⟨holds.valid, ⟨_, private_failed, by decide⟩, _, public_failed, by decide⟩

end KeyTree.Key
