import KeyTree.Key.Child
import KeyTree.Key.Extended
import KeyTree.Proofs.Derivation.Step

/-!
# What the operations on a key come down to

The equations of the derivations of a key: what is checked, in which order, and which step is taken
once the checks have passed.  The failure of a derivation of one child is a function of the key and
the index alone.
-/

namespace KeyTree.Key

open KeyTree.Derivation ChildIndex

variable {group : CurveGroup} {state : Type}

/--
Why a private derivation fails if it does: no private key, else no depth left, else no candidate.
-/
def privateFailure (key : Key group) (index : ChildIndex) : Error :=
  if key.private? = none then .missingPrivateKey
  else if key.depth = 255 then .depthOverflow
  else .rangeExhausted (lastOfHalf index)

/--
Why a public derivation fails if it does: a hardened index, else no depth left, else no candidate.
-/
def publicFailure (key : Key group) (index : ChildIndex) : Error :=
  if isHardened index then .hardenedFromPublic index
  else if key.depth = 255 then .depthOverflow
  else .rangeExhausted (lastOfHalf index)

/-- The key with a private key, in the position of its parent's child. -/
def privateChildAt (depth : UInt8) (slot : KeySlot) (step : PrivateStep) : Key group where
  depth := depth
  parentFingerprint := Hash.fingerprint slot.toList
  childIndex := step.index
  chainCode := step.chainCode
  material := .privateKey step.key

/-- The public child, in the position of its parent's child. -/
def publicChildAt (depth : UInt8) (slot : KeySlot) (step : PublicStep) : PublicChild group where
  key :=
    { depth := depth
      parentFingerprint := Hash.fingerprint slot.toList
      childIndex := step.index
      chainCode := step.chainCode
      material := .publicKey step.slot }
  offset := step.offset

theorem material_of_private? {key : Key group} {secret : Secret 32}
    (holds : key.private? = some secret) : key.material = .privateKey secret := by
  rw [private?] at holds
  split at holds
  · next stored => rw [stored, Option.some.inj holds]
  · contradiction

theorem publicKey_of_private? {key : Key group} {secret : Secret 32}
    (holds : key.private? = some secret) : key.publicKey = group.slotOfPrivate secret := by
  rw [publicKey, material_of_private? holds]

@[simp]
theorem publicKey_withSlot (key : Key group) (slot : KeySlot) :
    (key.withSlot slot).publicKey = .ok slot := rfl

@[simp]
theorem depth_withSlot (key : Key group) (slot : KeySlot) :
    (key.withSlot slot).depth = key.depth := rfl

theorem neuter_of_publicKey {key : Key group} {slot : KeySlot}
    (known : key.publicKey = .ok slot) : key.neuter = .ok (key.withSlot slot) := by
  rw [neuter, known]
  rfl

theorem extendedPublic_of_publicKey {key : Key group} {slot : KeySlot}
    (known : key.publicKey = .ok slot) :
    key.extendedPublic = .ok (key.extendedPublicOf slot) := by
  rw [extendedPublic, known]
  rfl

theorem childDepth_of_shallow {key : Key group} (shallow : key.depth ≠ 255) :
    key.childDepth = .ok (key.depth + 1) := by
  rw [childDepth, if_neg shallow]

theorem childDepth_of_deep {key : Key group} (deep : key.depth = 255) :
    key.childDepth = .error .depthOverflow := by
  rw [childDepth, if_pos deep]

/-! ## Private children -/

theorem privateChild_of_public {key : Key group} (watched : key.private? = none)
    (hash : KeyedHash state) (index : ChildIndex) :
    key.privateChild hash index = throw .missingPrivateKey := by
  rw [privateChild, readyForPrivate, requirePrivate, watched]
  rfl

theorem privateChild_of_deep {key : Key group} {secret : Secret 32}
    (holds : key.private? = some secret) (deep : key.depth = 255) (hash : KeyedHash state)
    (index : ChildIndex) : key.privateChild hash index = throw .depthOverflow := by
  rw [privateChild, readyForPrivate, requirePrivate, holds, childDepth_of_deep deep]
  rfl

theorem privateChild_of_shallow {key : Key group} {secret : Secret 32}
    (holds : key.private? = some secret) (shallow : key.depth ≠ 255) {slot : KeySlot}
    (known : key.publicKey = .ok slot) (hash : KeyedHash state) (index : ChildIndex) :
    key.privateChild hash index = do
      let step ← privateStep group hash secret slot key.chainCode index
      return privateChildAt (key.depth + 1) slot step := by
  rw [privateChild, readyForPrivate, requirePrivate, holds, childDepth_of_shallow shallow, known]
  rfl

/-! ## Public children -/

theorem publicChild_of_hardened {index : ChildIndex} (hardened : isHardened index = true)
    (key : Key group) (hash : KeyedHash state) :
    key.publicChild hash index = throw (.hardenedFromPublic index) := by
  rw [publicChild, readyForPublic, hardened]
  rfl

theorem publicChild_of_deep {key : Key group} (deep : key.depth = 255) {index : ChildIndex}
    (normal : isHardened index = false) (hash : KeyedHash state) :
    key.publicChild hash index = throw .depthOverflow := by
  rw [publicChild, readyForPublic, normal, childDepth_of_deep deep]
  rfl

theorem publicChild_of_shallow {key : Key group} (shallow : key.depth ≠ 255)
    {index : ChildIndex} (normal : isHardened index = false) {slot : KeySlot}
    (known : key.publicKey = .ok slot) (hash : KeyedHash state) :
    key.publicChild hash index = do
      let step ← publicStep group hash slot key.chainCode index
      return publicChildAt (key.depth + 1) slot step := by
  rw [publicChild, readyForPublic, normal, childDepth_of_shallow shallow, known]
  rfl

/-! ## Descendants -/

theorem derivePrivate_append (hash : KeyedHash state) (key : Key group) (path later : Path) :
    key.derivePrivate hash ⟨path.indices ++ later.indices⟩ =
      key.derivePrivate hash path >>= fun middle => middle.derivePrivate hash later :=
  List.foldlM_append

theorem requireHardenedFree_of_free {path : Path} (free : path.firstHardened? = none) :
    requireHardenedFree path = .ok () := by
  rw [requireHardenedFree, free]

theorem firstHardened?_eq_none_iff {path : Path} :
    path.firstHardened? = none ↔ ∀ index ∈ path.indices, isHardened index = false := by
  simp [Path.firstHardened?]

theorem isHardenedFree_iff {path : Path} :
    path.isHardenedFree = true ↔ path.firstHardened? = none := by
  simp [Path.isHardenedFree, firstHardened?_eq_none_iff]

theorem derivePublic_of_hardened {path : Path} {index : ChildIndex}
    (first : path.firstHardened? = some index) (key : Key group) (hash : KeyedHash state) :
    key.derivePublic hash path = throw (.hardenedFromPublic index) := by
  rw [derivePublic, requireHardenedFree, first]
  rfl

theorem derivePublic_of_free {path : Path} (free : path.firstHardened? = none) {key : Key group}
    {slot : KeySlot} (known : key.publicKey = .ok slot) (hash : KeyedHash state) :
    key.derivePublic hash path = derivePublicFrom hash (key.withSlot slot) path := by
  rw [derivePublic, requireHardenedFree_of_free free, neuter_of_publicKey known]
  rfl

end KeyTree.Key
