import KeyTree.Proofs.Key.Commutation
import KeyTree.Proofs.Key.Extended
import KeyTree.Report.Derived
import KeyTree.Report.Inspected

/-!
# Reports on one key agree

A key that is derived from a seed is reported with its extended public key.  What is derived from
that public key, and what is derived further from the seed, are reports on one and the same public
key or fail for the same cause; and the extended public key holds what was reported with it.
-/

namespace KeyTree

open KeyTree.Derivation

/-! ## Extended keys as arguments -/

/-- The text of a record has no hyphen and no blank. -/
theorem Record.solid_of_mem_text {record : Record} {character : Char}
    (member : character ∈ record.text.toList) :
    character ≠ '-' ∧ Blank.isBlank character = false := by
  have solid : Base58.alphabet.all (fun character => character ≠ '-' ∧
      Blank.isBlank character = false) = true := by decide
  exact of_decide_eq_true
    (List.all_eq_true.mp solid character (Base58.mem_alphabet_of_mem_encodeCheck member))

theorem Record.trim_text (record : Record) : Blank.trim record.text = record.text :=
  Blank.trim_eq_self fun _ member => (solid_of_mem_text member).2

namespace DerivedReport

variable {group : CurveGroup}

/-- Two reports tell the same about the public key and its place in the tree. -/
structure SameKey (report other : DerivedReport) : Prop where
  depth_eq : report.depth = other.depth
  childIndex_eq : report.childIndex = other.childIndex
  parentFingerprint_eq : report.parentFingerprint = other.parentFingerprint
  fingerprint_eq : report.fingerprint = other.fingerprint
  extendedPublic_eq : report.extendedPublic = other.extendedPublic
  slot_eq : report.slot = other.slot

/-- A report on a public key, with the offset to it, and a report on the private key to it. -/
structure Mirrors (watched owned : DerivedReport) : Prop where
  sameKey : watched.SameKey owned
  offset_isSome : watched.offset?.isSome
  extendedPrivate_eq : watched.extendedPrivate? = none

/-- Two reports mirror each other, or there are none because of the same failure. -/
inductive Agree : Except Failure DerivedReport → Except Failure DerivedReport → Prop where
  | reports {watched owned : DerivedReport} (mirrors : watched.Mirrors owned) :
      Agree (.ok watched) (.ok owned)
  | failures {first second : Failure} {cause : Cause} (first_cause : first.cause? = some cause)
      (second_cause : second.cause? = some cause) : Agree (.error first) (.error second)

/-- The report on a key with a known public key. -/
def ofSlot (path : Path) (offset? : Option (Bytes 32)) (key : Key group) (slot : KeySlot) :
    DerivedReport where
  curve := group.curve
  path := path
  depth := key.depth
  childIndex := key.childIndex
  parentFingerprint := key.parentFingerprint
  fingerprint := Hash.fingerprint slot.toList
  extendedPrivate? := key.extendedPrivate.toOption
  extendedPublic := key.extendedPublicOf slot
  slot := slot
  offset? := offset?

theorem ofKey_of_publicKey {key : Key group} {slot : KeySlot} (known : key.publicKey = .ok slot)
    (path : Path) (offset? : Option (Bytes 32)) :
    ofKey path offset? key = .ok (ofSlot path offset? key slot) := by
  rw [ofKey, known]
  rfl

/-- A private descendant and its public counterpart are reported alike. -/
theorem exists_mirrors {start : group.Scalar} {child : Key group}
    {counterpart : Key.PublicChild group} (mirrors : Key.Mirrors start child counterpart)
    (watchedPath ownedPath : Path) :
    ∃ watched owned,
      ofKey watchedPath (some counterpart.offset) counterpart.key = .ok watched ∧
        ofKey ownedPath none child = .ok owned ∧ watched.Mirrors owned := by
  obtain ⟨watchedKey, offset⟩ := counterpart
  obtain ⟨sum, holds, -, rfl⟩ := mirrors
  refine ⟨_, _, ofKey_of_publicKey (Key.publicKey_withSlot child _) watchedPath _,
    ofKey_of_publicKey holds.publicKey_eq ownedPath none, ?_⟩
  exact ⟨⟨rfl, rfl, rfl, rfl, rfl, rfl⟩, rfl, rfl⟩

/-! ## Reports from a seed -/

/-- The report on a descendant of the master key of a seed. -/
theorem ofSeed_of_master {seedText : String} {seed : List UInt8} {master : Key group}
    (decoded : Hexadecimal.decode (Blank.trim seedText) = .ok seed)
    (made : (Key.ofSeed KeyedHash.hmac seed).outcome = .ok master) (path : Path) :
    ofSeed group seedText path =
      ((master.derivePrivate KeyedHash.hmac path).outcome >>= ofKey path none).mapError
        (.derivation path) := by
  simp only [ofSeed, decoded, made, bind, Except.bind, Except.mapError]

/-- A report from a seed is about a private key on the way down from a master key. -/
theorem exists_of_ofSeed {seedText : String} {path : Path} {report : DerivedReport}
    (reported : ofSeed group seedText path = .ok report) :
    ∃ seed, ∃ master key : Key group, ∃ scalar,
      Hexadecimal.decode (Blank.trim seedText) = .ok seed ∧
      (Key.ofSeed KeyedHash.hmac seed).outcome = .ok master ∧
      (master.derivePrivate KeyedHash.hmac path).outcome = .ok key ∧
      key.HoldsScalar scalar ∧
      report = ofSlot path none key (group.encode (group.timesBase scalar)) := by
  obtain ⟨seed, decoded, made⟩ := ok_of_bind reported
  replace decoded := ok_of_mapError decoded
  obtain ⟨master, made, -⟩ := ok_of_bind made
  replace made := ok_of_mapError made
  rw [ofSeed_of_master decoded made] at reported
  obtain ⟨key, derived, told⟩ := ok_of_bind (ok_of_mapError reported)
  obtain ⟨masterScalar, masterHolds⟩ :=
    (Key.ensures_ofSeed_holdsScalar KeyedHash.hmac seed).of_outcome made
  obtain ⟨scalar, holds⟩ :=
    (Key.ensures_derivePrivate_of_holdsScalar KeyedHash.hmac masterHolds path).of_outcome derived
  rw [ofKey_of_publicKey holds.publicKey_eq] at told
  exact ⟨seed, master, key, scalar, decoded, made, derived, holds, (Except.ok.inj told).symm⟩

theorem exists_record_of_ofSeed {seedText : String} {path : Path} {report : DerivedReport}
    (reported : ofSeed group seedText path = .ok report) :
    ∃ record : Record, report.extendedPublic = record.text := by
  obtain ⟨seed, master, key, scalar, -, -, -, -, rfl⟩ := exists_of_ofSeed reported
  exact ⟨_, rfl⟩

theorem curve_of_ofSeed {curve : Curve} {seedText : String} {path : Path} {report : DerivedReport}
    (reported : ofSeed curve.group seedText path = .ok report) : report.curve = curve := by
  obtain ⟨seed, master, key, scalar, -, -, -, -, rfl⟩ := exists_of_ofSeed reported
  exact curve.curve_group

theorem path_of_ofSeed {seedText : String} {path : Path} {report : DerivedReport}
    (reported : ofSeed group seedText path = .ok report) : report.path = path := by
  obtain ⟨seed, master, key, scalar, -, -, -, -, rfl⟩ := exists_of_ofSeed reported
  rfl

/-! ## Reports from an extended public key -/

/-- The report on a public descendant of a key, from the extended public key of that key. -/
theorem ofExtendedPublic_of_holdsScalar (lawful : group.Lawful) {key : Key group}
    {scalar : group.Scalar} (holds : key.HoldsScalar scalar) (path : Path) :
    ofExtendedPublic group (key.extendedPublicOf (group.encode (group.timesBase scalar))) path =
      ((key.derivePublic KeyedHash.hmac path).outcome >>= fun child =>
        ofKey path (some child.offset) child.key).mapError (.derivation path) := by
  have read := Key.ofExtendedPublic_extendedPublicOf lawful (holds.hasPoint lawful)
  rw [ofExtendedPublic, Key.extendedPublicOf, Record.trim_text, ← Key.extendedPublicOf, read,
    ← Key.derivePublic_withSlot holds.publicKey_eq]
  rfl

/-- Along a path without hardened indices, the two ways to report a descendant agree. -/
theorem agree_of_holdsScalar (lawful : group.Lawful) {key : Key group} {scalar : group.Scalar}
    (holds : key.HoldsScalar scalar) {path : Path} (free : path.isHardenedFree = true)
    (wholePath : Path) :
    Agree
      (((key.derivePublic KeyedHash.hmac path).outcome >>= fun child =>
        ofKey path (some child.offset) child.key).mapError (.derivation path))
      (((key.derivePrivate KeyedHash.hmac path).outcome >>= ofKey wholePath none).mapError
        (.derivation wholePath)) := by
  have lockstep := Key.lockstep_derive lawful KeyedHash.hmac holds (Key.isHardenedFree_iff.mp free)
  rw [outcome_eq, outcome_eq]
  rcases lockstep.both () with
    ⟨error, after, left, right⟩ | ⟨child, publicChild, after, left, right, mirrors⟩
  · rw [left, right]
    exact .failures rfl rfl
  · obtain ⟨watched, owned, watched_eq, owned_eq, both⟩ := exists_mirrors mirrors path wholePath
    rw [left, right]
    simp only [bind, Except.bind, watched_eq, owned_eq]
    exact .reports both

/--
What lies further down is reported alike from the extended public key in a report and from the seed.
-/
theorem agree_of_ofSeed {curve : Curve} {seedText : String} {path rest : Path}
    {report : DerivedReport} (reported : ofSeed curve.group seedText path = .ok report)
    (free : rest.isHardenedFree = true) :
    Agree (ofExtendedPublic curve.group report.extendedPublic rest)
      (ofSeed curve.group seedText ⟨path.indices ++ rest.indices⟩) := by
  obtain ⟨seed, master, key, scalar, decoded, made, derived, holds, rfl⟩ :=
    exists_of_ofSeed reported
  have whole := Key.derivePrivate_append KeyedHash.hmac master path rest
  have watched := ofExtendedPublic_of_holdsScalar curve.group_lawful holds rest
  rw [ofSeed_of_master decoded made, whole, outcome_bind, derived]
  exact watched ▸ agree_of_holdsScalar curve.group_lawful holds free _

end DerivedReport

namespace InspectedReport

/-- A report on an extended public key tells what the report on the derived key has told. -/
structure Describes (inspected : InspectedReport) (report : DerivedReport) : Prop where
  keyClass_eq : inspected.keyClass? = some ⟨report.curve.family, .publicKey⟩
  validFor_eq : inspected.validFor? = some report.curve
  depth_eq : inspected.depth = report.depth
  childIndex_eq : inspected.childIndex = report.childIndex
  hardened_mem : ("hardened", .boolean (ChildIndex.isHardened report.childIndex)) ∈
    inspected.members
  parentFingerprint_eq : inspected.parentFingerprint = report.parentFingerprint
  slot_eq : inspected.slot? = some report.slot

theorem hardened_mem_members (inspected : InspectedReport) :
    ("hardened", .boolean (ChildIndex.isHardened inspected.childIndex)) ∈ inspected.members := by
  simp [members]

variable {group : CurveGroup}

theorem keyClass?_record (key : Key group) (kind : KeyKind) (field : Bytes 33) :
    (key.record kind field).keyClass? = some ⟨group.curve.family, kind⟩ :=
  KeyClass.ofVersion?_version (Key.keyClass group kind)

/-- The text of a public key passes the check of its group. -/
theorem ofText_extendedPublicOf (lawful : group.Lawful) {key : Key group} {point : group.Point}
    (has : key.HasPoint point) :
    ofText (key.extendedPublicOf (group.encode point)) (some group) =
      .ok (ofRecord (key.record .publicKey (group.encode point)) (some group.curve)) := by
  have valid := Key.ofExtendedPublic_extendedPublicOf lawful has
  have read := Record.ofText_eq_ok_iff.mpr
    (rfl : (key.record .publicKey (group.encode point)).text = _)
  rw [Key.extendedPublicOf] at valid ⊢
  simp only [ofText, Record.trim_text, read, Except.mapError, bind, Except.bind, validate,
    keyClass?_record, ne_eq, not_true_eq_false, ↓reduceIte, valid, Except.map]
  rfl

theorem describes_ofSlot (path : Path) (offset? : Option (Bytes 32)) (key : Key group)
    (slot : KeySlot) :
    (ofRecord (key.record .publicKey slot) (some group.curve)).Describes
      (.ofSlot path offset? key slot) where
  keyClass_eq := keyClass?_record key .publicKey slot
  validFor_eq := rfl
  depth_eq := rfl
  childIndex_eq := rfl
  hardened_mem := hardened_mem_members _
  parentFingerprint_eq := rfl
  slot_eq := by simp only [ofRecord, publicField?, keyClass?_record]; rfl

/-- The extended public key in a report from a seed is reported on as that report says. -/
theorem exists_describes {curve : Curve} {seedText : String} {path : Path}
    {report : DerivedReport}
    (reported : DerivedReport.ofSeed curve.group seedText path = .ok report) :
    ∃ inspected, ofText report.extendedPublic (some curve.group) = .ok inspected ∧
      inspected.Describes report := by
  obtain ⟨seed, master, key, scalar, -, -, -, holds, rfl⟩ :=
    DerivedReport.exists_of_ofSeed reported
  have lawful := curve.group_lawful
  exact ⟨_, ofText_extendedPublicOf lawful (holds.hasPoint lawful),
    describes_ofSlot path none key _⟩

end InspectedReport

end KeyTree
