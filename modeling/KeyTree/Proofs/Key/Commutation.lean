import KeyTree.Proofs.Key.Reachable

/-!
# Private and public derivation commute

Along a path without hardened indices it makes no difference whether the private key is dropped
before or after the derivation.  The private and the public search ask the same questions, and an
output makes a child of the scalar exactly if it makes one of the point; `Mirrors` is what they keep
up from step to step.
-/

namespace KeyTree.Key

open KeyTree.Derivation ChildIndex

variable {group : CurveGroup} {state : Type}

/-- A private and a public step reach the same child of a scalar. -/
structure SameStep (parent : group.Scalar) (step : PrivateStep) (counterpart : PublicStep)
    (tweak : group.Scalar) : Prop where
  nonzero : (parent + tweak).val ≠ 0
  /-- The private step has moved the scalar. -/
  key_eq : step.key = ⟨group.scalarToBytes (parent + tweak)⟩
  /-- The public step has moved the point as far. -/
  slot_eq : counterpart.slot = group.encode (group.timesBase (parent + tweak))
  /-- The public step tells how far. -/
  offset_eq : counterpart.offset = group.scalarToBytes tweak
  chainCode_eq : counterpart.chainCode = step.chainCode
  index_eq : counterpart.index = step.index

/-- A private key holds the scalar of a public descendant, and the offset leads to it. -/
def Mirrors (start : group.Scalar) (child : Key group) (counterpart : PublicChild group) : Prop :=
  ∃ sum : group.Scalar, child.HoldsScalar (start + sum) ∧
    counterpart.offset = group.scalarToBytes sum ∧
    counterpart.key = child.withSlot (group.encode (group.timesBase (start + sum)))

/-- An output makes a child of a scalar exactly if it makes one of the point. -/
theorem rel_children (lawful : group.Lawful) (parent : group.Scalar) (output : Bytes 64) :
    Option.Rel (fun child moved => child.val ≠ 0 ∧ child = parent + moved.2 ∧
        moved.1 = group.timesBase child)
      (group.childScalar? parent output) (group.childPoint? (group.timesBase parent) output) := by
  rw [CurveGroup.childScalar?, CurveGroup.childPoint?]
  rcases group.tweak? (CurveGroup.leftHalf output) with - | tweak
  · exact .none
  · have moved : group.add (group.timesBase parent) (group.timesBase tweak) =
        group.timesBase (parent + tweak) := (lawful.timesBase_add parent tweak).symm
    have identity := lawful.isIdentity_timesBase (parent + tweak)
    by_cases zero : (parent + tweak).val = 0
    · simp [moved, zero, identity.mpr zero]
    · have proper := lawful.isIdentity_timesBase_of_ne_zero zero
      simp [moved, zero, proper]

/-- Under an index that is not hardened, the private and the public step are in lockstep. -/
theorem lockstep_step (lawful : group.Lawful) {parent : group.Scalar} (nonzero : parent.val ≠ 0)
    (hash : KeyedHash state) (chainCode : Bytes 32) {index : ChildIndex}
    (normal : isHardened index = false) :
    Lockstep (fun step counterpart => ∃ tweak, SameStep parent step counterpart tweak)
      (privateStep group hash ⟨group.scalarToBytes parent⟩
        (group.encode (group.timesBase parent)) chainCode index)
      (publicStep group hash (group.encode (group.timesBase parent)) chainCode index) := by
  have parent_eq := CurveGroup.privateScalar_scalarToBytes nonzero
  have decoded := lawful.decode?_encode_timesBase nonzero
  rw [privateStep_of_scalar parent_eq, publicStep_of_point decoded normal]
  refine lockstep_search index fun current memory same_half => ?_
  have message_eq := privateMessage_eq_normalMessage (same_half.trans normal)
    group.curve.family ⟨group.scalarToBytes parent⟩ (group.encode (group.timesBase parent))
  simp only [run_privateCandidate, run_publicCandidate, message_eq, and_true]
  -- Both candidates got the same output; what is left is whether both accept it.
  generalize (StateT.run (hash _ _) memory).1 = output
  have children := rel_children lawful parent output
  generalize group.childScalar? parent output = child at children ⊢
  generalize group.childPoint? (group.timesBase parent) output = moved at children ⊢
  cases children with
  | none => exact .none
  | @some child moved children =>
      obtain ⟨child_nonzero, child_eq, point_eq⟩ := children
      obtain ⟨point, tweak⟩ := moved
      obtain rfl : child = parent + tweak := child_eq
      obtain rfl : point = group.timesBase (parent + tweak) := point_eq
      exact .some ⟨tweak, child_nonzero, rfl, rfl, rfl, rfl, rfl⟩

/-- The children of a private key and of its public key are in lockstep. -/
theorem lockstep_child (lawful : group.Lawful) (hash : KeyedHash state) {key : Key group}
    {scalar : group.Scalar} (holds : key.HoldsScalar scalar) {index : ChildIndex}
    (normal : isHardened index = false) :
    Lockstep (Mirrors scalar) (key.privateChild hash index)
      ((key.withSlot (group.encode (group.timesBase scalar))).publicChild hash index) := by
  have same_depth := depth_withSlot key (group.encode (group.timesBase scalar))
  by_cases deep : key.depth = 255
  · rw [privateChild_of_deep holds.private?_eq deep,
      publicChild_of_deep (same_depth.trans deep) normal]
    exact .throw .depthOverflow
  · rw [privateChild_of_shallow holds.private?_eq deep holds.publicKey_eq,
      publicChild_of_shallow (same_depth ▸ deep) normal (publicKey_withSlot key _)]
    refine .bind (lockstep_step lawful holds.2 hash key.chainCode normal) ?_
    rintro step counterpart ⟨tweak, same⟩
    refine .pure ⟨tweak, ⟨?_, same.nonzero⟩, same.offset_eq, ?_⟩
    · rw [privateChildAt, same.key_eq]
    · rw [publicChildAt, privateChildAt, same.slot_eq, same.chainCode_eq, same.index_eq]
      rfl

/-- One more step keeps a public descendant the mirror of the private one. -/
theorem lockstep_extend (lawful : group.Lawful) (hash : KeyedHash state) {start : group.Scalar}
    {parent : Key group} {counterpart : PublicChild group}
    (mirrors : Mirrors start parent counterpart) {index : ChildIndex}
    (normal : isHardened index = false) :
    Lockstep (Mirrors start) (parent.privateChild hash index) (extend hash counterpart index) := by
  obtain ⟨sum, holds, offset_eq, key_eq⟩ := mirrors
  have padded : parent.privateChild hash index = parent.privateChild hash index >>= pure := by
    rw [bind_pure]
  rw [padded, extend, key_eq]
  refine .bind (lockstep_child lawful hash holds normal) ?_
  rintro child publicChild ⟨tweak, child_holds, tweak_eq, child_eq⟩
  rw [offset_eq, tweak_eq, addOffsets_scalarToBytes]
  refine .pure ⟨sum + tweak, ?_, rfl, ?_⟩
  · rwa [← CurveGroup.scalar_add_assoc]
  · rwa [← CurveGroup.scalar_add_assoc]

/-- Along a path without hardened indices, private and public derivation are in lockstep. -/
theorem lockstep_derive (lawful : group.Lawful) (hash : KeyedHash state) {key : Key group}
    {scalar : group.Scalar} (holds : key.HoldsScalar scalar) {path : Path}
    (free : path.firstHardened? = none) :
    Lockstep (Mirrors scalar) (key.derivePrivate hash path) (key.derivePublic hash path) := by
  rw [derivePublic_of_free free holds.publicKey_eq]
  have start : Mirrors scalar key
      ⟨key.withSlot (group.encode (group.timesBase scalar)), Bytes.zero 32⟩ := by
    have unmoved : scalar + ⟨0, group.order_pos⟩ = scalar := CurveGroup.scalar_add_zero scalar
    exact ⟨⟨0, group.order_pos⟩, unmoved.symm ▸ holds,
      (ByteOrder.write_zero group.byteOrder 32).symm, by rw [unmoved]⟩
  exact .foldlM start fun parent counterpart mirrors index member =>
    lockstep_extend lawful hash mirrors (firstHardened?_eq_none_iff.mp free index member)

/-- A key that has dropped its private key derives what it derived before. -/
theorem derivePublic_withSlot {key : Key group} {slot : KeySlot}
    (known : key.publicKey = .ok slot) (hash : KeyedHash state) (path : Path) :
    (key.withSlot slot).derivePublic hash path = key.derivePublic hash path := by
  rw [derivePublic, derivePublic, neuter_of_publicKey known,
    neuter_of_publicKey (publicKey_withSlot key slot)]
  rfl

/-- Dropping the private key before or after a derivation gives the same, failures included. -/
theorem derivePublic_commutes {curve : Curve} {key : Key curve.group}
    (reachable : key.Reachable) {secret : Secret 32} (holds : key.private? = some secret)
    (hash : KeyedHash state) {path : Path} (free : path.isHardenedFree = true)
    (memory : state) :
    ∃ watched, key.neuter = .ok watched ∧
      watched.derivePublic hash path = key.derivePublic hash path ∧
      ((∃ error after, (key.derivePrivate hash path).runFrom memory = (.error error, after) ∧
          (watched.derivePublic hash path).runFrom memory = (.error error, after)) ∨
        ∃ child publicChild text after,
          (key.derivePrivate hash path).runFrom memory = (.ok child, after) ∧
          (watched.derivePublic hash path).runFrom memory = (.ok publicChild, after) ∧
          child.neuter = .ok publicChild.key ∧
          child.extendedPublic = .ok text ∧ publicChild.key.extendedPublic = .ok text) := by
  have lawful := curve.group_lawful
  obtain ⟨scalar, holdsScalar⟩ := (reachable.valid lawful).holdsScalar holds
  have known := holdsScalar.publicKey_eq
  have same := derivePublic_withSlot known hash path
  refine ⟨_, neuter_of_publicKey known, same, ?_⟩
  rw [same]
  have lockstep := lockstep_derive lawful hash holdsScalar (isHardenedFree_iff.mp free)
  rcases lockstep.both memory with failed | ⟨child, publicChild, after, left, right, mirrors⟩
  · exact .inl failed
  · obtain ⟨sum, child_holds, -, key_eq⟩ := mirrors
    have child_known := child_holds.publicKey_eq
    have dropped := neuter_of_publicKey child_known
    refine .inr ⟨child, publicChild, _, after, left, right, ?_,
      extendedPublic_of_publicKey child_known, ?_⟩
    · rw [dropped, key_eq]
    · rw [key_eq]
      exact extendedPublic_of_publicKey (publicKey_withSlot child _)

/-- Both derivations of a grandchild succeed, the first of whose candidates is refused. -/
theorem derivePublic_commutes_generatorKey :
    ∃ watched child publicChild after, generatorKey.neuter = .ok watched ∧
      (generatorKey.derivePrivate refusedOnce ⟨[0, 7]⟩).runFrom 0 = (.ok child, after) ∧
      (watched.derivePublic refusedOnce ⟨[0, 7]⟩).runFrom 0 = (.ok publicChild, after) ∧
      child.neuter = .ok publicChild.key := by
  have succeeds := isOk_derivePrivate_generatorKey
  obtain ⟨watched, dropped, -, outcome⟩ := derivePublic_commutes reachable_generatorKey rfl
    refusedOnce (by decide : (⟨[0, 7]⟩ : Path).isHardenedFree = true) 0
  rcases outcome with
    ⟨error, after, failed, -⟩ | ⟨child, publicChild, -, after, left, right, same, -⟩
  · rw [failed] at succeeds
    contradiction
  · exact ⟨watched, child, publicChild, after, dropped, left, right, same⟩

end KeyTree.Key
