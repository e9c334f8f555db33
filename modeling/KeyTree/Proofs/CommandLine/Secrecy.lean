import KeyTree.CommandLine.Outcome
import KeyTree.Keyring.Diagnostic
import KeyTree.Proofs.Report.Inspection
import KeyTree.Record.Diagnostic

/-!
# What is printed does not depend on private keys

Two keys that differ in nothing but the private key have one diagnostic, and two records that differ
in nothing but the key field have one diagnostic and one report, unless the version says that the
key field is public.  An unknown version counts as that of a private key.
-/

namespace KeyTree

namespace Keyring.Entry

variable {group : CurveGroup} {first second : Entry group}

/-- Two entries hold private keys, and differ in nothing else. -/
structure SameButSecret (first second : Entry group) : Prop where
  position_eq : first.key.toPosition = second.key.toPosition
  first_owned : ∃ secret, first.key.private? = some secret
  second_owned : ∃ secret, second.key.private? = some secret
  /-- The public key is remembered in both or in neither. -/
  known_eq : first.known = second.known

/-- Each private key is shown as the same text. -/
theorem SameButSecret.secretDiagnostic_eq (same : first.SameButSecret second) :
    first.key.private?.map Secret.diagnostic = second.key.private?.map Secret.diagnostic := by
  obtain ⟨secret, first_eq⟩ := same.first_owned
  obtain ⟨other, second_eq⟩ := same.second_owned
  rw [first_eq, second_eq]
  rfl

theorem SameButSecret.nodeDiagnostic_eq (same : first.SameButSecret second) :
    first.nodeDiagnostic = second.nodeDiagnostic := by
  rw [nodeDiagnostic, nodeDiagnostic, same.position_eq, same.secretDiagnostic_eq, same.known_eq]

theorem SameButSecret.diagnostic_eq (same : first.SameButSecret second) :
    first.diagnostic = second.diagnostic := by
  rw [diagnostic, diagnostic, same.nodeDiagnostic_eq, same.position_eq]

end Keyring.Entry

namespace Record

variable {first second record : Record}

/-- Two records differ in the key field at most. -/
structure SameButKey (first second : Record) : Prop where
  position_eq : first.toPosition = second.toPosition
  version_eq : first.version = second.version

/-- The version is none of those for public keys; it may be unknown. -/
def Confidential (record : Record) : Prop :=
  ∀ family : Family, record.version ≠ KeyClass.version ⟨family, .publicKey⟩

theorem SameButKey.confidential (same : first.SameButKey second)
    (confidential : first.Confidential) : second.Confidential := by
  rw [Confidential, ← same.version_eq]
  exact confidential

theorem Confidential.keyClass?_ne (confidential : record.Confidential) (family : Family) :
    record.keyClass? ≠ some ⟨family, .publicKey⟩ :=
  fun found => confidential family (keyClass?_eq_some_iff.mp found)

theorem Confidential.keyDiagnostic_eq (confidential : record.Confidential) :
    record.keyDiagnostic = (Secret.mk record.key).diagnostic := by
  rw [keyDiagnostic]
  split
  · next family found => exact absurd found (confidential.keyClass?_ne family)
  · rfl

theorem Confidential.publicField?_eq (confidential : record.Confidential) :
    InspectedReport.publicField? record = none := by
  rw [InspectedReport.publicField?]
  split
  · next family found => exact absurd found (confidential.keyClass?_ne family)
  · rfl

theorem SameButKey.diagnostic_eq (same : first.SameButKey second)
    (confidential : first.Confidential) : first.diagnostic = second.diagnostic := by
  have key_eq : first.keyDiagnostic = second.keyDiagnostic :=
    confidential.keyDiagnostic_eq.trans (same.confidential confidential).keyDiagnostic_eq.symm
  rw [diagnostic, diagnostic, key_eq, same.position_eq, same.version_eq]

theorem SameButKey.ofRecord_eq (same : first.SameButKey second)
    (confidential : first.Confidential) (validFor? : Option Curve) :
    InspectedReport.ofRecord first validFor? = InspectedReport.ofRecord second validFor? := by
  have first_hidden := confidential.publicField?_eq
  have second_hidden := (same.confidential confidential).publicField?_eq
  have class_eq : first.keyClass? = second.keyClass? := by
    rw [keyClass?, keyClass?, same.version_eq]
  simp only [InspectedReport.ofRecord, first_hidden, second_hidden, class_eq, same.position_eq,
    same.version_eq]

end Record

namespace InspectedReport

variable {record : Record}

theorem ofText_text_none (record : Record) : ofText record.text none = .ok (ofRecord record none) :=
  ofText_none_eq_ok_iff.mpr ⟨record, record.trim_text, rfl⟩

theorem eq_ofRecord_of_ofText {group : CurveGroup} {report : InspectedReport}
    (reported : ofText record.text (some group) = .ok report) :
    report = ofRecord record (some group.curve) := by
  obtain ⟨found, _, _, text_eq, -, -, rfl⟩ := ofText_some_eq_ok_iff.mp reported
  rw [record.trim_text] at text_eq
  rw [Record.text_inj.mp text_eq]

end InspectedReport

namespace CommandLine

/-- An inspection ends with exit code 0 only if it prints a report. -/
theorem exists_report_of_inspect {layout : Layout} {text : String} {curve : Curve}
    (success : (Outcome.ofCall ⟨.inspect text (some curve), layout⟩).exitCode = 0) :
    ∃ report, InspectedReport.ofText text (some curve.group) = .ok report ∧
      Outcome.ofCall ⟨.inspect text (some curve), layout⟩ = .printed (report.text layout) := by
  rcases reported : InspectedReport.ofText text (some curve.group) with failure | report
  · simp [Outcome.ofCall, Command.report, reported, Except.map] at success
  · refine ⟨report, rfl, ?_⟩
    simp only [Outcome.ofCall, Command.report, Option.map_some, reported, Except.map]

/--
The diagnostics of two entries that differ in the private key alone are equal.  So are those of two
records that differ in the key field alone, unless their version is one for public keys, and so is
what an inspection of them tells and prints; with a curve, if both are valid there.
-/
theorem diagnostics_keep_secrets :
    (∀ {group : CurveGroup} (first second : Keyring.Entry group), first.SameButSecret second →
      first.nodeDiagnostic = second.nodeDiagnostic ∧ first.diagnostic = second.diagnostic) ∧
    ∀ first second : Record, first.SameButKey second → first.Confidential →
      first.diagnostic = second.diagnostic ∧
      (∃ report, InspectedReport.ofText first.text none = .ok report ∧
        InspectedReport.ofText second.text none = .ok report) ∧
      (∀ (curve : Curve) (report other : InspectedReport),
        InspectedReport.ofText first.text (some curve.group) = .ok report →
          InspectedReport.ofText second.text (some curve.group) = .ok other → report = other) ∧
      ∀ layout : Layout,
        Outcome.ofCall ⟨.inspect first.text none, layout⟩ =
          Outcome.ofCall ⟨.inspect second.text none, layout⟩ ∧
        ∀ curve : Curve,
          (Outcome.ofCall ⟨.inspect first.text (some curve), layout⟩).exitCode = 0 →
            (Outcome.ofCall ⟨.inspect second.text (some curve), layout⟩).exitCode = 0 →
              Outcome.ofCall ⟨.inspect first.text (some curve), layout⟩ =
                Outcome.ofCall ⟨.inspect second.text (some curve), layout⟩ := by
  refine ⟨fun first second same => ⟨same.nodeDiagnostic_eq, same.diagnostic_eq⟩, ?_⟩
  intro first second same confidential
  have told_eq := same.ofRecord_eq confidential
  have first_told := InspectedReport.ofText_text_none first
  have second_told := InspectedReport.ofText_text_none second
  rw [← told_eq] at second_told
  have alike : ∀ (curve : Curve) (report other : InspectedReport),
      InspectedReport.ofText first.text (some curve.group) = .ok report →
        InspectedReport.ofText second.text (some curve.group) = .ok other → report = other := by
    intro curve report other reported other_reported
    rw [InspectedReport.eq_ofRecord_of_ofText reported,
      InspectedReport.eq_ofRecord_of_ofText other_reported, told_eq]
  refine ⟨same.diagnostic_eq confidential, ⟨_, first_told, second_told⟩, alike, ?_⟩
  refine fun layout => ⟨?_, ?_⟩
  · simp only [Outcome.ofCall, Command.report, Option.map_none, first_told, second_told]
  · intro curve first_success second_success
    obtain ⟨report, reported, first_printed⟩ := exists_report_of_inspect first_success
    obtain ⟨other, other_reported, second_printed⟩ := exists_report_of_inspect second_success
    rw [first_printed, second_printed, alike curve report other reported other_reported]

/-! ## Private keys in one position -/

section Position

variable {curve : Curve}

/-- The key in a position that holds the private key of a scalar. -/
def keyAt (position : Position) (scalar : curve.group.Scalar) : Key curve.group :=
  { position with material := .privateKey ⟨curve.group.scalarToBytes scalar⟩ }

/-- The record of its extended private key. -/
def recordAt (position : Position) (scalar : curve.group.Scalar) : Record :=
  (keyAt position scalar).record .privateKey
    (Key.privateField ⟨curve.group.scalarToBytes scalar⟩)

theorem toPosition_keyAt (position : Position) (scalar : curve.group.Scalar) :
    (keyAt position scalar).toPosition = position := rfl

theorem toPosition_recordAt (position : Position) (scalar : curve.group.Scalar) :
    (recordAt position scalar).toPosition = position := rfl

theorem version_recordAt (position : Position) (scalar : curve.group.Scalar) :
    (recordAt position scalar).version = (Key.keyClass curve.group .privateKey).version := rfl

theorem sameButSecret_keyAt (position : Position) (first second : curve.group.Scalar) :
    (Keyring.Entry.ofKey (keyAt position first)).SameButSecret
      (Keyring.Entry.ofKey (keyAt position second)) where
  position_eq := (toPosition_keyAt position first).trans (toPosition_keyAt position second).symm
  first_owned := ⟨_, rfl⟩
  second_owned := ⟨_, rfl⟩
  known_eq := (rfl : _ = none).trans rfl

theorem sameButKey_recordAt (position : Position) (first second : curve.group.Scalar) :
    (recordAt position first).SameButKey (recordAt position second) where
  position_eq :=
    (toPosition_recordAt position first).trans (toPosition_recordAt position second).symm
  version_eq := (version_recordAt position first).trans (version_recordAt position second).symm

theorem confidential_recordAt (position : Position) (scalar : curve.group.Scalar) :
    (recordAt position scalar).Confidential := by
  intro family version_eq
  rw [version_recordAt] at version_eq
  have found := KeyClass.ofVersion?_version (Key.keyClass curve.group .privateKey)
  rw [version_eq, KeyClass.ofVersion?_version] at found
  cases (KeyClass.mk.inj (Option.some.inj found)).2

theorem exitCode_recordAt (position : Position) {scalar : curve.group.Scalar}
    (nonzero : scalar.val ≠ 0) (layout : Layout) :
    (Outcome.ofCall ⟨.inspect (recordAt position scalar).text (some curve), layout⟩).exitCode =
      0 := by
  have holds : (keyAt position scalar).HoldsScalar scalar := ⟨rfl, nonzero⟩
  have written : (keyAt position scalar).extendedPrivate = .ok (recordAt position scalar).text :=
    Key.extendedPrivate_of_private holds.private?_eq
  have read : Key.ofExtended curve.group .privateKey (Blank.trim (recordAt position scalar).text) =
      .ok (keyAt position scalar) := by
    rw [Record.trim_text]
    exact Key.ofExtendedPrivate_eq_ok_iff.mpr ⟨holds.valid, written⟩
  obtain ⟨report, reported⟩ := InspectedReport.exists_ofText_some_iff.mpr
    ⟨.privateKey, ⟨_, read⟩, fun kind ⟨_, other_read⟩ => Key.kind_unique other_read read⟩
  simp only [Outcome.ofCall, Command.report, Option.map_some, reported, Except.map]
  rfl

end Position

/-- The private key one of secp256k1. -/
def scalarOne : Curve.secp256k1.group.Scalar := ⟨1, by decide⟩

/-- The private key two of secp256k1. -/
def scalarTwo : Curve.secp256k1.group.Scalar := ⟨2, by decide⟩

/-- The private keys one and two are not told apart. -/
theorem diagnostics_keep_secrets_one_two :
    let position := Position.master (Bytes.zero 32)
    (Keyring.Entry.ofKey (keyAt position scalarOne)).diagnostic =
        (Keyring.Entry.ofKey (keyAt position scalarTwo)).diagnostic ∧
      (recordAt position scalarOne).key ≠ (recordAt position scalarTwo).key ∧
      (recordAt position scalarOne).diagnostic = (recordAt position scalarTwo).diagnostic ∧
      (Outcome.ofCall ⟨.inspect (recordAt position scalarOne).text (some .secp256k1),
        .lines⟩).exitCode = 0 ∧
      Outcome.ofCall ⟨.inspect (recordAt position scalarOne).text (some .secp256k1), .lines⟩ =
        Outcome.ofCall ⟨.inspect (recordAt position scalarTwo).text (some .secp256k1), .lines⟩ := by
  intro position
  obtain ⟨entries, records⟩ := diagnostics_keep_secrets
  have one_success := exitCode_recordAt position (by decide : scalarOne.val ≠ 0) .lines
  have two_success := exitCode_recordAt position (by decide : scalarTwo.val ≠ 0) .lines
  obtain ⟨diagnostic_eq, -, -, outcomes⟩ := records _ _
    (sameButKey_recordAt position scalarOne scalarTwo) (confidential_recordAt position scalarOne)
  exact ⟨(entries _ _ (sameButSecret_keyAt position scalarOne scalarTwo)).2, by decide +kernel,
    diagnostic_eq, one_success, (outcomes .lines).2 .secp256k1 one_success two_success⟩

end CommandLine

end KeyTree
