import KeyTree.Proofs.Key.Offset

/-!
# One path after another

A derivation along two paths in a row is the derivation along both at once, and fails where that one
fails.  Public derivation adds up the offsets of the two parts.  Each step goes down by one, names
the parent by its fingerprint, and stops where a byte cannot tell the depth.
-/

namespace KeyTree.Key

open KeyTree.Derivation ChildIndex

variable {group : CurveGroup} {state : Type}

/--
Goes on from a public descendant, and adds the offset so far to that of the rest, modulo the order.
-/
def PublicChild.goOn (hash : KeyedHash state) (first : PublicChild group) (later : Path) :
    Derivation state (PublicChild group) := do
  let second ← first.key.derivePublic hash later
  let sum := group.byteOrder.read first.offset.toList + group.byteOrder.read second.offset.toList
  return { second with offset := group.byteOrder.write 32 (sum % group.order) }

/-! ## Going on from a descendant -/

theorem firstHardened?_append_eq_none_iff {path later : Path} :
    (⟨path.indices ++ later.indices⟩ : Path).firstHardened? = none ↔
      path.firstHardened? = none ∧ later.firstHardened? = none := by
  simp only [firstHardened?_eq_none_iff, List.forall_mem_append]

/-- The steps of a second path extend the descendant along the first. -/
theorem derivePublic_split {key : Key group} {slot : KeySlot} (known : key.publicKey = .ok slot)
    (hash : KeyedHash state) {path later : Path}
    (free : (⟨path.indices ++ later.indices⟩ : Path).firstHardened? = none) :
    key.derivePublic hash ⟨path.indices ++ later.indices⟩ =
      key.derivePublic hash path >>= later.indices.foldlM (extend hash) := by
  have path_free := (firstHardened?_append_eq_none_iff.mp free).1
  rw [derivePublic_of_free free known, derivePublic_of_free path_free known]
  exact List.foldlM_append

/-- The same public descendant, with an offset from a key further up. -/
def FurtherFrom (sum : group.Scalar) (child counterpart : PublicChild group) : Prop :=
  child.key = counterpart.key ∧ (∃ point, counterpart.key.HasPoint point) ∧
    ∃ tail, counterpart.offset = group.scalarToBytes tail ∧
      child.offset = group.scalarToBytes (sum + tail)

/-- One more step keeps the distance between two offsets to the same key. -/
theorem lockstep_further (lawful : group.Lawful) (hash : KeyedHash state) {sum : group.Scalar}
    {child counterpart : PublicChild group} (further : FurtherFrom sum child counterpart)
    (index : ChildIndex) :
    Lockstep (FurtherFrom sum) (extend hash child index) (extend hash counterpart index) := by
  obtain ⟨key_eq, ⟨point, has⟩, tail, counterpart_eq, child_eq⟩ := further
  rw [extend, extend, key_eq]
  refine .bind (ensures_publicChild lawful hash has index).lockstep ?_
  rintro step _ ⟨rfl, tweak, tweak_eq, -, step_has⟩
  rw [child_eq, counterpart_eq, tweak_eq, addOffsets_scalarToBytes, addOffsets_scalarToBytes]
  refine .pure ⟨rfl, ⟨_, step_has⟩, tail + tweak, rfl, ?_⟩
  rw [CurveGroup.scalar_add_assoc]

/-- A key without a private key is the one that it is without its private key. -/
theorem withSlot_eq_self {key : Key group} (watched : key.private? = none) {slot : KeySlot}
    (known : key.publicKey = .ok slot) : key.withSlot slot = key := by
  obtain ⟨position, material⟩ := key
  cases material with
  | privateKey secret => contradiction
  | publicKey stored =>
      obtain rfl : stored = slot := Except.ok.inj known
      rfl

/-- Going on with the offset so far, and going on from zero and adding the offset so far. -/
theorem foldlM_extend_eq_goOn (lawful : group.Lawful) (hash : KeyedHash state)
    {start : group.Point} {first : PublicChild group} (lies : LiesFrom start first) {later : Path}
    (free : later.firstHardened? = none) :
    later.indices.foldlM (extend hash) first = first.goOn hash later := by
  obtain ⟨sum, offset_eq, watched, has⟩ := lies
  have fold_eq : later.indices.foldlM (extend hash) first =
      later.indices.foldlM (extend hash) first >>= pure := (bind_pure _).symm
  rw [fold_eq, PublicChild.goOn, derivePublic_of_free free has.1, withSlot_eq_self watched has.1,
    derivePublicFrom]
  have begins : FurtherFrom sum first ⟨first.key, Bytes.zero 32⟩ := by
    refine ⟨rfl, ⟨_, has⟩, ⟨0, group.order_pos⟩, (ByteOrder.write_zero group.byteOrder 32).symm, ?_⟩
    rw [offset_eq, CurveGroup.scalar_add_zero]
  apply Lockstep.eq
  refine .bind (.foldlM begins fun _ _ further index _ =>
    lockstep_further lawful hash further index) ?_
  rintro child counterpart ⟨key_eq, -, tail, counterpart_eq, child_eq⟩
  apply Lockstep.pure
  obtain ⟨key, offset⟩ := child
  obtain rfl : key = counterpart.key := key_eq
  obtain rfl : offset = group.scalarToBytes (sum + tail) := child_eq
  rw [offset_eq, counterpart_eq, CurveGroup.read_scalarToBytes, CurveGroup.read_scalarToBytes]
  rfl

theorem derivePublic_append (lawful : group.Lawful) (hash : KeyedHash state) {key : Key group}
    {point : group.Point} (has : key.HasPoint point) {path later : Path}
    (path_free : path.firstHardened? = none) (later_free : later.firstHardened? = none) :
    key.derivePublic hash ⟨path.indices ++ later.indices⟩ =
      key.derivePublic hash path >>= fun middle => middle.goOn hash later := by
  rw [derivePublic_split has.1 hash
    (firstHardened?_append_eq_none_iff.mpr ⟨path_free, later_free⟩)]
  apply Lockstep.eq
  refine .bind (ensures_derivePublic lawful hash has path).lockstep ?_
  rintro middle _ ⟨rfl, lies⟩
  rw [foldlM_extend_eq_goOn lawful hash lies later_free]
  exact .refl _

/-! ## What a descendant tells of its parent -/

/-- The child lies one step below the parent, and names it by its fingerprint. -/
structure IsChildOf (child parent : Key group) : Prop where
  depth_eq : child.depth.toNat = parent.depth.toNat + 1
  fingerprint_eq : parent.fingerprint = .ok child.parentFingerprint

theorem toNat_of_childDepth {key : Key group} {depth : UInt8} (room : key.childDepth = .ok depth) :
    depth.toNat = key.depth.toNat + 1 := by
  by_cases deep : key.depth = 255
  · rw [childDepth_of_deep deep] at room
    contradiction
  · rw [childDepth_of_shallow deep] at room
    obtain rfl := Except.ok.inj room
    have depth_lt := key.depth.toNat_lt
    have depth_ne : key.depth.toNat ≠ 255 := fun same => deep (UInt8.toNat_inj.mp same)
    rw [UInt8.toNat_add]
    simp only [UInt8.reduceToNat]
    omega

theorem fingerprint_of_publicKey {key : Key group} {slot : KeySlot}
    (known : key.publicKey = .ok slot) :
    key.fingerprint = .ok (Hash.fingerprint slot.toList) := by
  rw [fingerprint, known]
  rfl

theorem ensures_privateChild_isChildOf (hash : KeyedHash state) (key : Key group)
    (index : ChildIndex) :
    (key.privateChild hash index).Ensures (·.IsChildOf key) (fun _ => True) := by
  refine .bind ((Ensures.lift _).mono fun _ _ => trivial) fun (secret, depth) ready => ?_
  have room : key.childDepth = .ok depth := by
    obtain ⟨_, -, ready⟩ := ok_of_bind ready
    obtain ⟨_, room, ready⟩ := ok_of_bind ready
    cases ready
    exact room
  refine .bind ((Ensures.lift _).mono fun _ _ => trivial) fun slot known => ?_
  refine .bind (.anything _) fun step _ => .pure ?_
  exact ⟨toNat_of_childDepth room, fingerprint_of_publicKey known⟩

theorem ensures_publicChild_isChildOf (hash : KeyedHash state) (key : Key group)
    (index : ChildIndex) :
    (key.publicChild hash index).Ensures (·.key.IsChildOf key) (fun _ => True) := by
  refine .bind ((Ensures.lift _).mono fun _ _ => trivial) fun depth ready => ?_
  have room : key.childDepth = .ok depth := by
    rw [readyForPublic] at ready
    split at ready
    · contradiction
    · exact ready
  refine .bind ((Ensures.lift _).mono fun _ _ => trivial) fun slot known => ?_
  refine .bind (.anything _) fun step _ => .pure ?_
  exact ⟨toNat_of_childDepth room, fingerprint_of_publicKey known⟩

theorem ensures_extend_isChildOf (hash : KeyedHash state) (parent : PublicChild group)
    (index : ChildIndex) :
    (extend hash parent index).Ensures (·.key.IsChildOf parent.key) (fun _ => True) := by
  refine .bind (ensures_publicChild_isChildOf hash parent.key index) fun child isChild => ?_
  exact .bind (.anything _) fun offset _ => .pure ⟨isChild.depth_eq, isChild.fingerprint_eq⟩

/--
The descendants that a derivation gives tell how many steps it took, and name their parents, which
the derivation gives along all steps but the last.  It fails where the depth would not fit into a
byte.
-/
structure Descends (key : Key group) (derive : Path → Derivation state (Key group)) : Prop where
  depth_eq : ∀ {path memory after child}, (derive path).runFrom memory = (.ok child, after) →
    child.depth.toNat = key.depth.toNat + path.length ∧ key.depth.toNat + path.length ≤ 255
  parent : ∀ {path index memory after child},
    (derive (path.child index)).runFrom memory = (.ok child, after) →
      ∃ parent between, (derive path).runFrom memory = (.ok parent, between) ∧
        parent.fingerprint = .ok child.parentFingerprint
  fails : ∀ path memory, 255 < key.depth.toNat + path.length →
    ∃ error after, (derive path).runFrom memory = (.error error, after)

theorem descends_of_ensures {key : Key group} {derive : Path → Derivation state (Key group)}
    (counts : ∀ path, (derive path).Ensures
      (fun child => child.depth.toNat = key.depth.toNat + path.length) (fun _ => True))
    (parent : ∀ {path index memory after child},
      (derive (path.child index)).runFrom memory = (.ok child, after) →
        ∃ parent between, (derive path).runFrom memory = (.ok parent, between) ∧
          parent.fingerprint = .ok child.parentFingerprint) : Descends key derive where
  depth_eq := by
    intro path memory after child run
    have depth_eq := (counts path).of_ok run
    have depth_lt := child.depth.toNat_lt
    exact ⟨depth_eq, by omega⟩
  parent := parent
  fails := by
    intro path memory deep
    rcases run : (derive path).runFrom memory with ⟨error | child, after⟩
    · exact ⟨error, after, rfl⟩
    · have depth_eq := (counts path).of_ok run
      have depth_lt := child.depth.toNat_lt
      omega

theorem descends_derivePrivate (hash : KeyedHash state) (key : Key group) :
    Descends key (key.derivePrivate hash) := by
  apply descends_of_ensures
  · intro path
    refine .foldlM_count (fun child => child.depth.toNat) (fun parent index => ?_) path.indices key
    exact (ensures_privateChild_isChildOf hash parent index).imp fun _ isChild => isChild.depth_eq
  · intro path index memory after child run
    obtain ⟨parent, between, parent_run, step_run⟩ := ok_of_runFrom_foldlM_concat run
    have isChild := (ensures_privateChild_isChildOf hash parent index).of_ok step_run
    exact ⟨parent, between, parent_run, isChild.fingerprint_eq⟩

theorem ensures_derivePublic_depth {key : Key group} {slot : KeySlot}
    (known : key.publicKey = .ok slot) (hash : KeyedHash state) (path : Path) :
    (key.derivePublic hash path).Ensures
      (fun child => child.key.depth.toNat = key.depth.toNat + path.length) (fun _ => True) := by
  rcases first : path.firstHardened? with - | index
  · rw [derivePublic_of_free first known]
    refine .foldlM_count (fun child : PublicChild group => child.key.depth.toNat)
      (fun parent index => ?_) path.indices ⟨key.withSlot slot, Bytes.zero 32⟩
    exact (ensures_extend_isChildOf hash parent index).imp fun _ isChild => isChild.depth_eq
  · rw [derivePublic_of_hardened first]
    exact .throw trivial

theorem descends_derivePublic {key : Key group} {slot : KeySlot}
    (known : key.publicKey = .ok slot) (hash : KeyedHash state) :
    Descends key fun path => do return (← key.derivePublic hash path).key := by
  apply descends_of_ensures
  · intro path
    exact (ensures_derivePublic_depth known hash path).bind fun child depth_eq => .pure depth_eq
  · intro path index memory after child run
    obtain ⟨last, _, run, done⟩ := ok_of_runFrom_bind run
    rw [runFrom_pure] at done
    cases done
    have free := free_of_run run
    have path_free := (@firstHardened?_append_eq_none_iff path ⟨[index]⟩).mp free |>.1
    rw [derivePublic_of_free free known] at run
    obtain ⟨parent, between, parent_run, step_run⟩ := ok_of_runFrom_foldlM_concat run
    have isChild := (ensures_extend_isChildOf hash parent index).of_ok step_run
    refine ⟨parent.key, between, ?_, isChild.fingerprint_eq⟩
    rw [derivePublic_of_free path_free known, derivePublicFrom, runFrom_bind, parent_run]
    rfl

/--
Derivation along one path and then along another is derivation along both, as a result or as an
error.  Whatever is derived privately or publicly tells its depth and its parent truly.
-/
theorem derive_composes {curve : Curve} {key : Key curve.group} (reachable : key.Reachable)
    (hash : KeyedHash state) :
    (∀ path later : Path, key.derivePrivate hash ⟨path.indices ++ later.indices⟩ =
      key.derivePrivate hash path >>= fun middle => middle.derivePrivate hash later) ∧
    (∀ path later : Path, path.isHardenedFree = true → later.isHardenedFree = true →
      key.derivePublic hash ⟨path.indices ++ later.indices⟩ =
        key.derivePublic hash path >>= fun middle => middle.goOn hash later) ∧
    Descends key (key.derivePrivate hash) ∧
    Descends key fun path => do return (← key.derivePublic hash path).key := by
  have lawful := curve.group_lawful
  obtain ⟨point, has⟩ := (reachable.valid lawful).hasPoint lawful
  refine ⟨derivePrivate_append hash key, ?_, descends_derivePrivate hash key,
    descends_derivePublic has.1 hash⟩
  intro path later path_free later_free
  exact derivePublic_append lawful hash has (isHardenedFree_iff.mp path_free)
    (isHardenedFree_iff.mp later_free)

/-- A grandchild is derived at once and in two parts, the first of whose candidates is refused. -/
theorem derive_composes_generatorKey :
    generatorKey.Reachable ∧ ∃ middle between child after,
      (generatorKey.derivePrivate refusedOnce ⟨[0]⟩).runFrom 0 = (.ok middle, between) ∧
      (middle.derivePrivate refusedOnce ⟨[7]⟩).runFrom between = (.ok child, after) ∧
      (generatorKey.derivePrivate refusedOnce ⟨[0, 7]⟩).runFrom 0 = (.ok child, after) ∧
      child.depth.toNat = 2 ∧ middle.fingerprint = .ok child.parentFingerprint := by
  have succeeds := isOk_derivePrivate_generatorKey
  obtain ⟨composes, -, descends, -⟩ := derive_composes reachable_generatorKey refusedOnce
  rcases run : (generatorKey.derivePrivate refusedOnce ⟨[0, 7]⟩).runFrom 0 with
    ⟨error | child, after⟩
  · rw [run] at succeeds
    contradiction
  · have depth_eq := (descends.depth_eq run).1
    obtain ⟨parent, before, parent_run, fingerprint_eq⟩ := @descends.parent ⟨[0]⟩ 7 _ _ _ run
    have parts := run
    rw [show (⟨[0, 7]⟩ : Path) = ⟨[0] ++ [7]⟩ from rfl, composes ⟨[0]⟩ ⟨[7]⟩] at parts
    obtain ⟨middle, between, first_run, second_run⟩ := ok_of_runFrom_bind parts
    rw [first_run] at parent_run
    cases parent_run
    exact ⟨reachable_generatorKey, parent, before, child, after, first_run, second_run, rfl,
      depth_eq, fingerprint_eq⟩

end KeyTree.Key
