import KeyTree.Proofs.Key.Commutation

/-!
# The offset from a key to its public descendant

The offset that a public derivation returns is the sum of the offsets of its steps.  It leads from
the public key of the ancestor to that of the descendant, and from the one private key to the other.
-/

namespace KeyTree.Key

open KeyTree.Derivation ChildIndex

variable {group : CurveGroup} {state : Type}

/-- Public steps from one key to another, one for each index, and the offset of each step. -/
inductive PublicWalk (hash : KeyedHash state) :
    List ChildIndex → Key group → state → List (Bytes 32) → Key group → state → Prop where
  | stay (key : Key group) (memory : state) : PublicWalk hash [] key memory [] key memory
  | step {index : ChildIndex} {indices : List ChildIndex} {key last : Key group}
      {child : PublicChild group} {memory between after : state} {offsets : List (Bytes 32)}
      (first : (key.publicChild hash index).runFrom memory = (.ok child, between))
      (rest : PublicWalk hash indices child.key between offsets last after) :
      PublicWalk hash (index :: indices) key memory (child.offset :: offsets) last after

/-- The numbers that offsets hold, added up. -/
def totalOffset (group : CurveGroup) (offsets : List (Bytes 32)) : Nat :=
  (offsets.map fun offset => group.byteOrder.read offset.toList).sum

theorem read_of_addOffsets {first second total : Bytes 32}
    (added : group.addOffsets first second = .ok total) :
    group.byteOrder.read total.toList =
      (group.byteOrder.read first.toList + group.byteOrder.read second.toList) % group.order := by
  rw [CurveGroup.addOffsets] at added
  rcases first_eq : group.scalarOfBytes? first with - | firstScalar
  · rw [first_eq] at added
    contradiction
  · rcases second_eq : group.scalarOfBytes? second with - | secondScalar
    · rw [first_eq, second_eq] at added
      contradiction
    · rw [first_eq, second_eq] at added
      obtain rfl := Except.ok.inj added
      rw [CurveGroup.scalarOfBytes?_eq_some_iff.mp first_eq,
        CurveGroup.scalarOfBytes?_eq_some_iff.mp second_eq]
      simp only [CurveGroup.read_scalarToBytes, Fin.val_add]

/-- A public derivation walks along its path and adds up the offsets of the steps. -/
theorem publicWalk_of_run {hash : KeyedHash state} {indices : List ChildIndex}
    {parent child : PublicChild group} {memory after : state}
    (canonical : group.byteOrder.read parent.offset.toList < group.order)
    (run : (indices.foldlM (extend hash) parent).runFrom memory = (.ok child, after)) :
    ∃ offsets, PublicWalk hash indices parent.key memory offsets child.key after ∧
      group.byteOrder.read child.offset.toList =
        (group.byteOrder.read parent.offset.toList + totalOffset group offsets) % group.order := by
  -- The offset so far stays canonical, so each sum modulo the order extends the last one.
  induction indices generalizing parent memory with
  | nil =>
      rw [List.foldlM_nil, runFrom_pure] at run
      obtain ⟨rfl, rfl⟩ : parent = child ∧ memory = after := by simpa using run
      refine ⟨[], .stay parent.key memory, ?_⟩
      rw [totalOffset, List.map_nil, List.sum_nil, Nat.add_zero, Nat.mod_eq_of_lt canonical]
  | cons index indices ih =>
      rw [List.foldlM_cons] at run
      obtain ⟨middle, between, first, rest⟩ := ok_of_runFrom_bind run
      obtain ⟨step, stepped, stepRun, added⟩ := ok_of_runFrom_bind first
      obtain ⟨total, unmoved, total_run, done⟩ := ok_of_runFrom_bind added
      rw [runFrom_lift] at total_run
      obtain ⟨total_eq, rfl⟩ : group.addOffsets parent.offset step.offset = .ok total ∧
          stepped = unmoved := by simpa using total_run
      rw [runFrom_pure] at done
      obtain ⟨rfl, rfl⟩ : { step with offset := total } = middle ∧ stepped = between := by
        simpa using done
      have middle_read := read_of_addOffsets total_eq
      have middle_canonical : group.byteOrder.read total.toList < group.order := by
        rw [middle_read]
        exact Nat.mod_lt _ group.order_pos
      obtain ⟨offsets, walk, sum_eq⟩ := ih middle_canonical rest
      refine ⟨step.offset :: offsets, .step stepRun walk, ?_⟩
      rw [sum_eq, middle_read, Nat.mod_add_mod, totalOffset, totalOffset, List.map_cons,
        List.sum_cons, Nat.add_assoc]

/-- A public derivation that succeeds has met no hardened index. -/
theorem free_of_run {hash : KeyedHash state} {path : Path} {key : Key group}
    {child : PublicChild group} {memory after : state}
    (run : (key.derivePublic hash path).runFrom memory = (.ok child, after)) :
    path.firstHardened? = none := by
  rcases first : path.firstHardened? with - | index
  · rfl
  · rw [derivePublic_of_hardened first, runFrom_throw] at run
    simp at run

/-- A public derivation walks from the key without its private key. -/
theorem publicWalk_of_derivePublic {hash : KeyedHash state} {path : Path} {key : Key group}
    {slot : KeySlot} (known : key.publicKey = .ok slot) {child : PublicChild group}
    {memory after : state}
    (run : (key.derivePublic hash path).runFrom memory = (.ok child, after)) :
    ∃ offsets, PublicWalk hash path.indices (key.withSlot slot) memory offsets child.key after ∧
      group.byteOrder.read child.offset.toList = totalOffset group offsets % group.order := by
  rw [derivePublic_of_free (free_of_run run) known] at run
  have zero_eq : group.byteOrder.read (Bytes.zero 32).toList = 0 := by
    rw [← ByteOrder.write_zero group.byteOrder]
    exact ByteOrder.read_write _ (by decide)
  obtain ⟨offsets, walk, sum_eq⟩ :=
    publicWalk_of_run (by simp only [zero_eq, group.order_pos]) run
  simp only [zero_eq, Nat.zero_add] at sum_eq
  exact ⟨offsets, walk, sum_eq⟩

/-- Where a public derivation succeeds, the private one does, and the offset leads to its scalar. -/
theorem derivePrivate_of_derivePublic (lawful : group.Lawful) {hash : KeyedHash state}
    {path : Path} {key : Key group} {scalar : group.Scalar} (holds : key.HoldsScalar scalar)
    {child : PublicChild group} {memory after : state}
    (run : (key.derivePublic hash path).runFrom memory = (.ok child, after)) :
    ∃ descendant sum, (key.derivePrivate hash path).runFrom memory = (.ok descendant, after) ∧
      descendant.HoldsScalar (scalar + sum) ∧ child.offset = group.scalarToBytes sum := by
  have lockstep := lockstep_derive lawful hash holds (free_of_run run)
  rcases lockstep.both memory with
    ⟨error, stop, -, failed⟩ | ⟨descendant, same, stop, left, right, mirrors⟩
  · rw [run] at failed
    simp at failed
  · rw [run] at right
    obtain ⟨rfl, rfl⟩ : child = same ∧ after = stop := by simpa using right
    obtain ⟨sum, descendant_holds, offset_eq, -⟩ := mirrors
    exact ⟨descendant, sum, left, descendant_holds, offset_eq⟩

/-- A key is moved by a multiple of the base point, unless that leads to the identity. -/
theorem offset_of_hasPoint (lawful : group.Lawful) {key : Key group} {point : group.Point}
    (has : key.HasPoint point) (scalar : group.Scalar) :
    key.offset (group.scalarToBytes scalar) =
      if group.isIdentity (group.add point (group.timesBase scalar)) then .error .offsetToIdentity
      else .ok (group.encode (group.add point (group.timesBase scalar))) := by
  obtain ⟨known, attainable, proper⟩ := has
  have decoded := lawful.decode?_encode attainable proper
  rw [offset, known]
  change group.offsetSlot _ _ = _
  rw [CurveGroup.offsetSlot, CurveGroup.publicPoint, decoded,
    CurveGroup.scalarOfBytes?_scalarToBytes]
  rfl

/-- The offset of a public descendant leads to its public key. -/
theorem offset_of_liesFrom (lawful : group.Lawful) {key : Key group} {point : group.Point}
    (has : key.HasPoint point) {child : PublicChild group} (lies : LiesFrom point child) :
    key.offset child.offset = child.key.publicKey := by
  obtain ⟨sum, offset_eq, -, known, -, proper⟩ := lies
  rw [known, offset_eq, offset_of_hasPoint lawful has, proper]
  rfl

/--
The offset of a public derivation is the sum of those of its steps, and leads to the descendant.
-/
theorem derivePublic_offset {curve : Curve} {key : Key curve.group} (reachable : key.Reachable)
    {hash : KeyedHash state} {path : Path} {memory after : state}
    {child : PublicChild curve.group}
    (run : (key.derivePublic hash path).runFrom memory = (.ok child, after)) :
    ∃ watched offsets slot, key.neuter = .ok watched ∧
      PublicWalk hash path.indices watched memory offsets child.key after ∧
      curve.group.byteOrder.read child.offset.toList < curve.group.order ∧
      curve.group.byteOrder.read child.offset.toList =
        totalOffset curve.group offsets % curve.group.order ∧
      key.offset child.offset = .ok slot ∧ child.key.publicKey = .ok slot ∧
      ∀ secret, key.private? = some secret → ∃ descendant,
        (key.derivePrivate hash path).runFrom memory = (.ok descendant, after) ∧
        descendant.private? = some ⟨curve.group.byteOrder.write 32
          ((curve.group.byteOrder.read secret.bytes.toList +
            curve.group.byteOrder.read child.offset.toList) % curve.group.order)⟩ := by
  have lawful := curve.group_lawful
  have valid := reachable.valid lawful
  obtain ⟨point, has⟩ := valid.hasPoint lawful
  have lies := (ensures_derivePublic lawful hash has path).of_ok run
  have same_slot := offset_of_liesFrom lawful has lies
  obtain ⟨sum, -, -, known, -, -⟩ := lies
  rw [known] at same_slot
  obtain ⟨offsets, walk, sum_eq⟩ := publicWalk_of_derivePublic has.1 run
  refine ⟨_, offsets, _, neuter_of_publicKey has.1, walk, ?_, sum_eq, same_slot, known, ?_⟩
  · rw [sum_eq]
    exact Nat.mod_lt _ curve.group.order_pos
  · intro secret holds
    obtain ⟨scalar, holdsScalar⟩ := valid.holdsScalar holds
    obtain rfl : secret = ⟨curve.group.scalarToBytes scalar⟩ :=
      Option.some.inj (holds.symm.trans holdsScalar.private?_eq)
    obtain ⟨descendant, sum, derived, descendant_holds, offset_eq⟩ :=
      derivePrivate_of_derivePublic lawful holdsScalar run
    refine ⟨descendant, derived, ?_⟩
    rw [descendant_holds.private?_eq, offset_eq, CurveGroup.read_scalarToBytes,
      CurveGroup.read_scalarToBytes]
    rfl

/-- The offset of a grandchild, the first of whose candidates is refused. -/
theorem derivePublic_offset_generatorKey :
    ∃ child after slot,
      (generatorKey.derivePublic refusedOnce ⟨[0, 7]⟩).runFrom 0 = (.ok child, after) ∧
      generatorKey.offset child.offset = .ok slot ∧ child.key.publicKey = .ok slot := by
  have lawful := Curve.secp256k1.group_lawful
  have succeeds := isOk_derivePrivate_generatorKey
  obtain ⟨scalar, holds⟩ := (reachable_generatorKey.valid lawful).holdsScalar rfl
  have lockstep := lockstep_derive lawful refusedOnce holds
    (by decide : (⟨[0, 7]⟩ : Path).firstHardened? = none)
  rcases lockstep.both 0 with ⟨error, after, failed, -⟩ | ⟨-, child, after, -, run, -⟩
  · rw [failed] at succeeds
    contradiction
  · obtain ⟨-, -, slot, -, -, -, -, moved, known, -⟩ :=
      derivePublic_offset reachable_generatorKey run
    exact ⟨child, after, slot, run, moved, known⟩

end KeyTree.Key
