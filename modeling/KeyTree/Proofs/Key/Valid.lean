import KeyTree.Key.Extended
import KeyTree.Proofs.Key.Child

/-!
# Valid keys

A key is valid if its private key is a scalar that is not zero, or its slot is the written form of a
point that is read back from it.  Every way to make a key makes a valid one, and every derivation of
a valid key gives a valid one or fails for a cause that lies in the depth, the index or the keyed
hash.
-/

namespace KeyTree.Key

open KeyTree.Derivation ChildIndex

variable {group : CurveGroup} {state : Type}

/-- A private key is a scalar that is not zero, a slot the written form of a point that is read. -/
def Valid (key : Key group) : Prop :=
  match key.material with
  | .privateKey secret =>
      0 < group.byteOrder.read secret.bytes.toList ∧
        group.byteOrder.read secret.bytes.toList < group.order
  | .publicKey slot => ∃ point, group.decode? slot.toList = some point ∧ group.encode point = slot

/-! ## Two forms of validity -/

/-- The key holds the private key of a scalar that is not zero. -/
def HoldsScalar (key : Key group) (scalar : group.Scalar) : Prop :=
  key.material = .privateKey ⟨group.scalarToBytes scalar⟩ ∧ scalar.val ≠ 0

/-- The public key is the written form of a point that comes up and is not the identity. -/
def HasPoint (key : Key group) (point : group.Point) : Prop :=
  key.publicKey = .ok (group.encode point) ∧ group.Attainable point ∧
    group.isIdentity point = false

theorem HoldsScalar.private?_eq {key : Key group} {scalar : group.Scalar}
    (holds : key.HoldsScalar scalar) : key.private? = some ⟨group.scalarToBytes scalar⟩ := by
  rw [private?, holds.1]

theorem HoldsScalar.publicKey_eq {key : Key group} {scalar : group.Scalar}
    (holds : key.HoldsScalar scalar) :
    key.publicKey = .ok (group.encode (group.timesBase scalar)) := by
  rw [publicKey_of_private? holds.private?_eq, CurveGroup.slotOfPrivate,
    CurveGroup.privateScalar_scalarToBytes holds.2]
  rfl

theorem HoldsScalar.hasPoint (lawful : group.Lawful) {key : Key group} {scalar : group.Scalar}
    (holds : key.HoldsScalar scalar) : key.HasPoint (group.timesBase scalar) :=
  ⟨holds.publicKey_eq, .timesBase scalar, lawful.isIdentity_timesBase_of_ne_zero holds.2⟩

theorem HoldsScalar.valid {key : Key group} {scalar : group.Scalar}
    (holds : key.HoldsScalar scalar) : key.Valid := by
  rw [Valid, holds.1]
  simp only [CurveGroup.read_scalarToBytes]
  exact ⟨Nat.pos_of_ne_zero holds.2, scalar.isLt⟩

theorem HasPoint.valid (lawful : group.Lawful) {key : Key group} {slot : KeySlot}
    (stored : key.material = .publicKey slot) {point : group.Point} (has : key.HasPoint point) :
    key.Valid := by
  obtain ⟨known, attainable, proper⟩ := has
  have slot_eq : slot = group.encode point := by
    rw [publicKey, stored] at known
    exact Except.ok.inj known
  rw [Valid, stored, slot_eq]
  exact ⟨point, lawful.decode?_encode attainable proper, rfl⟩

theorem Valid.holdsScalar {key : Key group} (valid : key.Valid) {secret : Secret 32}
    (holds : key.private? = some secret) : ∃ scalar, key.HoldsScalar scalar := by
  have stored := material_of_private? holds
  rw [Valid, stored] at valid
  have scalar_eq : group.privateScalar secret =
      .ok ⟨group.byteOrder.read secret.bytes.toList, valid.2⟩ :=
    CurveGroup.privateScalar_eq_ok_iff.mpr ⟨rfl, valid.1⟩
  refine ⟨⟨group.byteOrder.read secret.bytes.toList, valid.2⟩, ?_, Nat.ne_of_gt valid.1⟩
  rw [stored, ← CurveGroup.key_eq_of_privateScalar scalar_eq]

theorem Valid.hasPoint (lawful : group.Lawful) {key : Key group} (valid : key.Valid) :
    ∃ point, key.HasPoint point := by
  rcases stored : key.material with secret | slot
  · have holds : key.private? = some secret := by rw [private?, stored]
    obtain ⟨scalar, holdsScalar⟩ := valid.holdsScalar holds
    exact ⟨group.timesBase scalar, holdsScalar.hasPoint lawful⟩
  · rw [Valid, stored] at valid
    obtain ⟨point, decoded, encoded⟩ := valid
    refine ⟨point, ?_, .read decoded, lawful.isIdentity_of_decode? decoded⟩
    rw [publicKey, stored, encoded]

/-- A key with the same public key in a public-only form has the same point. -/
theorem HasPoint.withSlot {key : Key group} {point : group.Point} (has : key.HasPoint point) :
    (key.withSlot (group.encode point)).HasPoint point :=
  ⟨rfl, has.2⟩

/-! ## Making keys -/

theorem valid_of_privateKey {position : Position} {bytes : List UInt8} {key : Key group}
    (made : ofPrivate position bytes = .ok key) : key.Valid := by
  obtain ⟨secret, checked, made⟩ := ok_of_bind made
  obtain rfl := Except.ok.inj made
  rw [CurveGroup.privateKey] at checked
  split at checked
  · next raw _ =>
      obtain ⟨scalar, scalar_eq, rfl⟩ := ok_of_map checked
      obtain ⟨value_eq, positive⟩ := CurveGroup.privateScalar_eq_ok_iff.mp scalar_eq
      simp only [Valid, value_eq]
      exact ⟨positive, scalar.isLt⟩
  · cases checked

theorem valid_of_publicKey (lawful : group.Lawful) {position : Position} {bytes : List UInt8}
    {key : Key group} (made : ofPublic position bytes = .ok key) : key.Valid := by
  obtain ⟨slot, checked, made⟩ := ok_of_bind made
  obtain rfl := Except.ok.inj made
  obtain ⟨point, read_eq, rfl⟩ := ok_of_map checked
  rw [CurveGroup.publicPoint] at read_eq
  split at read_eq
  · next decodedPoint decoded =>
      obtain rfl := Except.ok.inj read_eq
      have proper := lawful.isIdentity_of_decode? decoded
      exact ⟨decodedPoint, lawful.decode?_encode (.read decoded) proper, rfl⟩
  · cases read_eq

theorem valid_of_extendedPrivate {text : String} {key : Key group}
    (made : ofExtendedPrivate group text = .ok key) : key.Valid := by
  obtain ⟨record, -, made⟩ := ok_of_bind made
  obtain ⟨-, -, made⟩ := ok_of_bind made
  simp only at made
  split at made
  · exact valid_of_privateKey made
  · cases made

theorem valid_of_extendedPublic (lawful : group.Lawful) {text : String} {key : Key group}
    (made : ofExtendedPublic group text = .ok key) : key.Valid := by
  obtain ⟨record, -, made⟩ := ok_of_bind made
  obtain ⟨-, -, made⟩ := ok_of_bind made
  exact valid_of_publicKey lawful made

theorem valid_of_neuter (lawful : group.Lawful) {key watched : Key group} (valid : key.Valid)
    (made : key.neuter = .ok watched) : watched.Valid := by
  obtain ⟨point, has⟩ := valid.hasPoint lawful
  rw [neuter_of_publicKey has.1] at made
  obtain rfl := Except.ok.inj made
  exact has.withSlot.valid lawful rfl

/-- A seed gives a private key, or none. -/
theorem ensures_ofSeed_holdsScalar (hash : KeyedHash state) (seed : List UInt8) :
    (ofSeed hash seed : Derivation state (Key group)).Ensures
      (fun key => ∃ scalar, key.HoldsScalar scalar) (· = .invalidSeed) := by
  intro memory
  rw [ofSeed, master, runFrom_bind, runFrom_bind, runFrom_liftState]
  simp only
  rcases made : group.masterScalar? ((hash masterHashKey seed).run memory).1 with - | scalar
  · rfl
  · exact ⟨scalar, rfl, CurveGroup.masterScalar?_ne_zero made⟩

theorem ensures_ofSeed (hash : KeyedHash state) (seed : List UInt8) :
    (ofSeed hash seed : Derivation state (Key group)).Ensures Valid (· = .invalidSeed) :=
  (ensures_ofSeed_holdsScalar hash seed).imp fun _ ⟨_, holds⟩ => holds.valid

/-! ## Deriving keys -/

theorem ensures_privateStep {key : Secret 32} {parent : group.Scalar}
    (parent_eq : group.privateScalar key = .ok parent) (hash : KeyedHash state) (slot : KeySlot)
    (chainCode : Bytes 32) (index : ChildIndex) :
    (privateStep group hash key slot chainCode index).Ensures
      (fun step => ∃ scalar : group.Scalar, scalar.val ≠ 0 ∧
        step.key = ⟨group.scalarToBytes scalar⟩)
      (· = .rangeExhausted (lastOfHalf index)) := by
  rw [privateStep_of_scalar parent_eq]
  refine ensures_search index fun current memory _ step made => ?_
  obtain ⟨scalar, accepted, rfl⟩ := Option.map_eq_some_iff.mp made
  exact ⟨scalar, CurveGroup.childScalar?_ne_zero accepted, rfl⟩

theorem ensures_publicStep {slot : KeySlot} {parent : group.Point}
    (decoded : group.decode? slot.toList = some parent) (hash : KeyedHash state)
    (chainCode : Bytes 32) {index : ChildIndex} (normal : isHardened index = false) :
    (publicStep group hash slot chainCode index).Ensures
      (fun step => ∃ tweak : group.Scalar, step.offset = group.scalarToBytes tweak ∧
        step.slot = group.encode (group.add parent (group.timesBase tweak)) ∧
        group.isIdentity (group.add parent (group.timesBase tweak)) = false)
      (· = .rangeExhausted (lastOfHalf index)) := by
  rw [publicStep_of_point decoded normal]
  refine ensures_search index fun current memory _ step made => ?_
  obtain ⟨⟨child, tweak⟩, accepted, rfl⟩ := Option.map_eq_some_iff.mp made
  obtain ⟨rfl, proper⟩ := CurveGroup.childPoint?_eq_some accepted
  exact ⟨tweak, rfl, rfl, proper⟩

/-- A child of a private key is a private key, unless the derivation fails. -/
theorem ensures_privateChild_of_holdsScalar (hash : KeyedHash state) {key : Key group}
    {scalar : group.Scalar} (holds : key.HoldsScalar scalar) (index : ChildIndex) :
    (key.privateChild hash index).Ensures
      (fun child => ∃ childScalar, child.HoldsScalar childScalar)
      (· = key.privateFailure index) := by
  by_cases deep : key.depth = 255
  · rw [privateChild_of_deep holds.private?_eq deep]
    exact .throw (by simp [privateFailure, holds.private?_eq, deep])
  · have failure : key.privateFailure index = .rangeExhausted (lastOfHalf index) := by
      simp [privateFailure, holds.private?_eq, deep]
    rw [privateChild_of_shallow holds.private?_eq deep holds.publicKey_eq, failure]
    have scalar_eq := CurveGroup.privateScalar_scalarToBytes holds.2
    refine (ensures_privateStep scalar_eq hash _ key.chainCode index).bind ?_
    rintro step ⟨child, nonzero, key_eq⟩
    exact .pure ⟨child, by rw [privateChildAt, key_eq], nonzero⟩

/-- A private derivation of a child gives a valid key, or fails as `privateFailure` says. -/
theorem ensures_privateChild (hash : KeyedHash state) {key : Key group} (valid : key.Valid)
    (index : ChildIndex) :
    (key.privateChild hash index).Ensures Valid (· = key.privateFailure index) := by
  rcases holds : key.private? with - | secret
  · rw [privateChild_of_public holds]
    exact .throw (by simp [privateFailure, holds])
  · obtain ⟨scalar, holdsScalar⟩ := valid.holdsScalar holds
    exact (ensures_privateChild_of_holdsScalar hash holdsScalar index).imp
      fun child ⟨childScalar, childHolds⟩ => childHolds.valid

/--
The offset of a public descendant is a scalar, and its point lies that multiple of the base point
away from the one where the derivation began.
-/
def LiesFrom (start : group.Point) (child : PublicChild group) : Prop :=
  ∃ sum : group.Scalar, child.offset = group.scalarToBytes sum ∧ child.key.private? = none ∧
    child.key.HasPoint (group.add start (group.timesBase sum))

/-- A public derivation of a child moves the point of the key, or fails as `publicFailure` says. -/
theorem ensures_publicChild (lawful : group.Lawful) (hash : KeyedHash state) {key : Key group}
    {point : group.Point} (has : key.HasPoint point) (index : ChildIndex) :
    (key.publicChild hash index).Ensures (LiesFrom point) (· = key.publicFailure index) := by
  rcases hardened : isHardened index with - | -
  · by_cases deep : key.depth = 255
    · rw [publicChild_of_deep deep hardened]
      exact .throw (by simp [publicFailure, hardened, deep])
    · obtain ⟨known, attainable, proper⟩ := has
      have failure : key.publicFailure index = .rangeExhausted (lastOfHalf index) := by
        simp [publicFailure, hardened, deep]
      rw [publicChild_of_shallow deep hardened known, failure]
      have decoded := lawful.decode?_encode attainable proper
      refine (ensures_publicStep decoded hash key.chainCode hardened).bind ?_
      rintro step ⟨tweak, offset_eq, slot_eq, child_proper⟩
      refine .pure ⟨tweak, offset_eq, rfl, ?_, .add attainable (.timesBase tweak), child_proper⟩
      rw [← slot_eq]
      rfl
  · rw [publicChild_of_hardened hardened]
    exact .throw (by simp [publicFailure, hardened])

/-! ## Deriving along a path -/

/-- The causes for which a private derivation along a path may fail. -/
def PrivatePathFailure (path : Path) (error : Error) : Prop :=
  error = .missingPrivateKey ∨ error = .depthOverflow ∨
    ∃ index ∈ path.indices, error = .rangeExhausted (lastOfHalf index)

/-- The causes for which a public derivation along a path may fail. -/
def PublicPathFailure (path : Path) (error : Error) : Prop :=
  path.firstHardened?.map Error.hardenedFromPublic = some error ∨
    path.firstHardened? = none ∧ (error = .depthOverflow ∨ error = .rangeExhausted 0x7fffffff)

/-- Two offsets that are scalars always have a sum. -/
theorem addOffsets_scalarToBytes (first second : group.Scalar) :
    group.addOffsets (group.scalarToBytes first) (group.scalarToBytes second) =
      .ok (group.scalarToBytes (first + second)) := by
  rw [CurveGroup.addOffsets, CurveGroup.scalarOfBytes?_scalarToBytes,
    CurveGroup.scalarOfBytes?_scalarToBytes]
  rfl

/-- A public descendant is where it begins before the first step. -/
theorem liesFrom_start (lawful : group.Lawful) {key : Key group} {point : group.Point}
    (has : key.HasPoint point) :
    LiesFrom point ⟨key.withSlot (group.encode point), Bytes.zero 32⟩ := by
  have unmoved : group.add point (group.timesBase ⟨0, group.order_pos⟩) = point :=
    lawful.add_zero has.2.1
  refine ⟨⟨0, group.order_pos⟩, ?_, rfl, ?_⟩
  · exact (ByteOrder.write_zero group.byteOrder 32).symm
  · rw [unmoved]
    exact has.withSlot

/-- One more step adds to the offset what it adds to the point. -/
theorem ensures_extend (lawful : group.Lawful) (hash : KeyedHash state) {start : group.Point}
    (attainable : group.Attainable start) {parent : PublicChild group}
    (lies : LiesFrom start parent) (index : ChildIndex) :
    (extend hash parent index).Ensures (LiesFrom start)
      (· = parent.key.publicFailure index) := by
  obtain ⟨sum, offset_eq, -, has⟩ := lies
  refine (ensures_publicChild lawful hash has index).bind ?_
  rintro child ⟨tweak, tweak_eq, watched, child_has⟩
  have total := addOffsets_scalarToBytes sum tweak
  rw [offset_eq, tweak_eq, total]
  refine .pure ⟨sum + tweak, rfl, watched, ?_⟩
  rw [lawful.timesBase_add, ← lawful.add_assoc attainable (.timesBase sum) (.timesBase tweak)]
  exact child_has

/--
A public derivation along a path moves the point of the key, or fails as `PublicPathFailure` says.
-/
theorem ensures_derivePublic (lawful : group.Lawful) (hash : KeyedHash state) {key : Key group}
    {point : group.Point} (has : key.HasPoint point) (path : Path) :
    (key.derivePublic hash path).Ensures (LiesFrom point) (PublicPathFailure path) := by
  rcases first : path.firstHardened? with - | index
  · rw [derivePublic_of_free first has.1]
    refine .foldlM (liesFrom_start lawful has) fun parent lies index member => ?_
    refine (ensures_extend lawful hash has.2.1 lies index).mono ?_
    rintro error rfl
    have normal := firstHardened?_eq_none_iff.mp first index member
    by_cases deep : parent.key.depth = 255
    · exact .inr ⟨first, .inl (by simp [publicFailure, normal, deep])⟩
    · exact .inr ⟨first, .inr (by simp [publicFailure, normal, deep, lastOfHalf])⟩
  · rw [derivePublic_of_hardened first]
    exact .throw (.inl (by rw [first]; rfl))

/-- A private derivation along a path gives a valid key, or fails as `PrivatePathFailure` says. -/
theorem ensures_derivePrivate (hash : KeyedHash state) {key : Key group} (valid : key.Valid)
    (path : Path) :
    (key.derivePrivate hash path).Ensures Valid (PrivatePathFailure path) := by
  refine .foldlM valid fun parent parent_valid index member => ?_
  refine (ensures_privateChild hash parent_valid index).mono ?_
  rintro error rfl
  by_cases watched : parent.private? = none
  · exact .inl (by simp [privateFailure, watched])
  · by_cases deep : parent.depth = 255
    · exact .inr (.inl (by simp [privateFailure, watched, deep]))
    · exact .inr (.inr ⟨index, member, by simp [privateFailure, watched, deep]⟩)

/-- Along a path a private key has private keys as descendants. -/
theorem ensures_derivePrivate_of_holdsScalar (hash : KeyedHash state) {key : Key group}
    {scalar : group.Scalar} (holds : key.HoldsScalar scalar) (path : Path) :
    (key.derivePrivate hash path).Ensures
      (fun descendant => ∃ descendantScalar, descendant.HoldsScalar descendantScalar)
      (fun _ => True) :=
  .foldlM ⟨scalar, holds⟩ fun _ ⟨_, parentHolds⟩ index _ =>
    (ensures_privateChild_of_holdsScalar hash parentHolds index).mono fun _ _ => trivial

theorem LiesFrom.valid (lawful : group.Lawful) {start : group.Point} {child : PublicChild group}
    (lies : LiesFrom start child) : child.key.Valid := by
  obtain ⟨sum, -, watched, has⟩ := lies
  rcases stored : child.key.material with secret | slot
  · rw [private?, stored] at watched
    contradiction
  · exact has.valid lawful stored

end KeyTree.Key
