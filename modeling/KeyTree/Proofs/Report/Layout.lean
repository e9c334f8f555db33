import KeyTree.Proofs.Path.Canonical
import KeyTree.Proofs.Report.Agreement
import KeyTree.Proofs.Text.Hexadecimal
import Mathlib

/-!
# Both layouts tell what is compared

Two reports on derived keys tell the same about the public key exactly if the lines about it are the
same, and exactly if the members about it are.  A report on an extended key describes a derived key
exactly if its lines say so, and exactly if its members do.
-/

namespace KeyTree

/-! ## Names -/

theorem Curve.name_inj {curve other : Curve} : curve.name = other.name ↔ curve = other := by
  refine ⟨fun same => ?_, congrArg name⟩
  have found := ofName?_name curve
  rw [same, ofName?_name, Option.some.injEq] at found
  exact found.symm

theorem Family.name_inj {family other : Family} : family.name = other.name ↔ family = other := by
  cases family <;> cases other <;> decide

theorem Family.name_ne_unknown (family : Family) : family.name ≠ "unknown" := by
  cases family <;> decide

theorem KeyKind.name_inj {kind other : KeyKind} : kind.name = other.name ↔ kind = other := by
  cases kind <;> cases other <;> decide

theorem KeyKind.name_ne_unknown (kind : KeyKind) : kind.name ≠ "unknown" := by
  cases kind <;> decide

/-- A class is told by the names of its family and its kind. -/
theorem KeyClass.names_eq_iff {keyClass? : Option KeyClass} {keyClass : KeyClass} :
    (keyClass?.map fun keyClass => keyClass.family.name) = some keyClass.family.name ∧
        (keyClass?.map fun keyClass => keyClass.kind.name) = some keyClass.kind.name ↔
      keyClass? = some keyClass := by
  cases keyClass? with
  | none => simp
  | some other =>
      rw [Option.map_some, Option.map_some, Option.some.injEq, Option.some.injEq, Family.name_inj,
        KeyKind.name_inj, Option.some.injEq]
      exact (KeyClass.mk.injEq ..).symm.to_iff

/-! ## Entries that may be absent -/

/-- An entry that may be absent is found under its own label only. -/
theorem lookup_toList_map {item shown : Type} (label : String) (present? : Option item)
    (entry : item → String × shown) :
    (present?.map entry).toList.lookup label =
      present?.bind fun present =>
        if label = (entry present).1 then some (entry present).2 else none := by
  cases present? with
  | none => rfl
  | some present =>
      by_cases same : label = (entry present).1
      · simp [List.lookup, same]
      · simp [List.lookup, beq_false_of_ne same, same]

namespace DerivedReport

variable {report other : DerivedReport}

/-- The labels of the lines about the public key and its place in the tree. -/
def keyLabels : List String :=
  ["depth", "child index", "parent fingerprint", "fingerprint", "public", "public key"]

/-- The names of the members about the public key and its place in the tree. -/
def keyNames : List String :=
  ["depth", "child_index", "parent_fingerprint", "fingerprint", "extended_public_key", "public_key"]

theorem sameKey_iff :
    report.SameKey other ↔ report.depth = other.depth ∧ report.childIndex = other.childIndex ∧
      report.parentFingerprint = other.parentFingerprint ∧
      report.fingerprint = other.fingerprint ∧ report.extendedPublic = other.extendedPublic ∧
      report.slot = other.slot := by
  constructor
  · rintro ⟨depth_eq, index_eq, parent_eq, fingerprint_eq, public_eq, slot_eq⟩
    exact ⟨depth_eq, index_eq, parent_eq, fingerprint_eq, public_eq, slot_eq⟩
  · rintro ⟨depth_eq, index_eq, parent_eq, fingerprint_eq, public_eq, slot_eq⟩
    exact ⟨depth_eq, index_eq, parent_eq, fingerprint_eq, public_eq, slot_eq⟩

theorem map_lookup_lines (report : DerivedReport) :
    keyLabels.map (fun label => report.lines.lookup label) =
      [some (toString report.depth.toNat), some (toString report.childIndex.toNat),
        some (Hexadecimal.ofUInt32 report.parentFingerprint),
        some (Hexadecimal.ofUInt32 report.fingerprint), some report.extendedPublic,
        some (Hexadecimal.encode report.slot.toList)] := by
  simp [keyLabels, lines, List.lookup_append, List.lookup_cons, lookup_toList_map]

theorem map_lookup_members (report : DerivedReport) :
    keyNames.map (fun name => report.members.lookup name) =
      [some (.number report.depth.toNat), some (.number report.childIndex.toNat),
        some (.text (Hexadecimal.ofUInt32 report.parentFingerprint)),
        some (.text (Hexadecimal.ofUInt32 report.fingerprint)), some (.text report.extendedPublic),
        some (.text (Hexadecimal.encode report.slot.toList))] := by
  simp [keyNames, members, List.lookup_append, List.lookup_cons, lookup_toList_map]

/-- Two reports tell the same key exactly if their lines about it are the same. -/
theorem sameKey_iff_lines :
    report.SameKey other ↔
      ∀ label ∈ keyLabels, report.lines.lookup label = other.lines.lookup label := by
  rw [sameKey_iff, ← List.map_inj_left, map_lookup_lines, map_lookup_lines]
  simp only [List.cons.injEq, Option.some.injEq, Nat.toString_eq_repr, Nat.repr_inj,
    UInt8.toNat_inj, UInt32.toNat_inj, Hexadecimal.ofUInt32_inj, Hexadecimal.encode_inj,
    Bytes.ext_iff, and_true]

/-- Two reports tell the same key exactly if their members about it are the same. -/
theorem sameKey_iff_members :
    report.SameKey other ↔
      ∀ name ∈ keyNames, report.members.lookup name = other.members.lookup name := by
  rw [sameKey_iff, ← List.map_inj_left, map_lookup_members, map_lookup_members]
  simp only [List.cons.injEq, Option.some.injEq, JsonObject.Value.number.injEq,
    JsonObject.Value.text.injEq, UInt8.toNat_inj, UInt32.toNat_inj, Hexadecimal.ofUInt32_inj,
    Hexadecimal.encode_inj, Bytes.ext_iff, and_true]

end DerivedReport

namespace InspectedReport

variable {inspected : InspectedReport} {report : DerivedReport}

/-- The labels under which lines of both kinds of reports show the same. -/
def sharedLabels : List String :=
  ["depth", "parent fingerprint", "public key"]

/-- The names under which members of both kinds of reports hold the same. -/
def sharedNames : List String :=
  ["child_index", "depth", "parent_fingerprint", "public_key"]

/-- What is shown of an unknown name is not the name of anything. -/
theorem nameOrUnknown_eq_iff {name? : Option String} {name : String} (known : name ≠ "unknown") :
    nameOrUnknown name? = name ↔ name? = some name := by
  cases name? with
  | none => simp [nameOrUnknown, Ne.symm known]
  | some other => simp [nameOrUnknown]

theorem nameOrNull_eq_iff {name? : Option String} {name : String} :
    nameOrNull name? = .text name ↔ name? = some name := by
  cases name? <;> simp [nameOrNull]

theorem describes_iff :
    inspected.Describes report ↔
      inspected.keyClass? = some ⟨report.curve.family, .publicKey⟩ ∧
      inspected.validFor? = some report.curve ∧ inspected.childIndex = report.childIndex ∧
      inspected.depth = report.depth ∧ inspected.parentFingerprint = report.parentFingerprint ∧
      inspected.slot? = some report.slot := by
  constructor
  · rintro ⟨class_eq, curve_eq, depth_eq, index_eq, -, parent_eq, slot_eq⟩
    exact ⟨class_eq, curve_eq, index_eq, depth_eq, parent_eq, slot_eq⟩
  · rintro ⟨class_eq, curve_eq, index_eq, depth_eq, parent_eq, slot_eq⟩
    exact ⟨class_eq, curve_eq, depth_eq, index_eq, index_eq ▸ hardened_mem_members inspected,
      parent_eq, slot_eq⟩

theorem shared_lines_iff :
    (∀ label ∈ sharedLabels, inspected.lines.lookup label = report.lines.lookup label) ↔
      inspected.depth = report.depth ∧ inspected.parentFingerprint = report.parentFingerprint ∧
        inspected.slot? = some report.slot := by
  simp [sharedLabels, lines, DerivedReport.lines, List.lookup_append, List.lookup_cons,
    lookup_toList_map, Option.bind_eq_some_iff, UInt8.toNat_inj, Hexadecimal.ofUInt32_inj,
    Hexadecimal.encode_inj, ← Bytes.ext_iff]

theorem shared_members_iff :
    (∀ name ∈ sharedNames, inspected.members.lookup name = report.members.lookup name) ↔
      inspected.childIndex = report.childIndex ∧ inspected.depth = report.depth ∧
        inspected.parentFingerprint = report.parentFingerprint ∧
        inspected.slot? = some report.slot := by
  simp [sharedNames, members, DerivedReport.members, List.lookup_append, List.lookup_cons,
    lookup_toList_map, Option.bind_eq_some_iff, UInt8.toNat_inj, UInt32.toNat_inj,
    Hexadecimal.ofUInt32_inj, Hexadecimal.encode_inj, ← Bytes.ext_iff]

/-- A report describes a derived key exactly if its lines do, which show the index as paths do. -/
theorem describes_iff_lines :
    inspected.Describes report ↔
      inspected.lines.lookup "family" = some report.curve.family.name ∧
      inspected.lines.lookup "kind" = some KeyKind.publicKey.name ∧
      inspected.lines.lookup "valid for" = report.lines.lookup "curve" ∧
      inspected.lines.lookup "child index" =
        some (String.ofList (Path.segmentText report.childIndex)) ∧
      ∀ label ∈ sharedLabels, inspected.lines.lookup label = report.lines.lookup label := by
  rw [describes_iff, shared_lines_iff, ← KeyClass.names_eq_iff, and_assoc,
    ← nameOrUnknown_eq_iff report.curve.family.name_ne_unknown,
    ← nameOrUnknown_eq_iff KeyKind.publicKey.name_ne_unknown]
  simp [lines, DerivedReport.lines, List.lookup_append, List.lookup_cons, lookup_toList_map,
    Option.bind_eq_some_iff, Curve.name_inj, String.ofList_inj, Path.segmentText_inj]

/-- A report describes a derived key exactly if its members do, which tell the half of the index. -/
theorem describes_iff_members :
    inspected.Describes report ↔
      inspected.members.lookup "family" = some (.text report.curve.family.name) ∧
      inspected.members.lookup "kind" = some (.text KeyKind.publicKey.name) ∧
      inspected.members.lookup "valid_for" = report.members.lookup "curve" ∧
      inspected.members.lookup "hardened" =
        some (.boolean (ChildIndex.isHardened report.childIndex)) ∧
      ∀ name ∈ sharedNames, inspected.members.lookup name = report.members.lookup name := by
  rw [describes_iff, shared_members_iff, ← KeyClass.names_eq_iff, and_assoc, ← nameOrNull_eq_iff,
    ← nameOrNull_eq_iff]
  -- The half follows from the index, so it is compared where the indices are known to be equal.
  simp +contextual [members, DerivedReport.members, List.lookup_append, List.lookup_cons,
    lookup_toList_map, Option.bind_eq_some_iff, Curve.name_inj]

end InspectedReport

end KeyTree
