import KeyTree.Proofs.CommandLine.Reading

/-!
# The commands agree

The extended public key that a derivation prints can be given to the other commands.  Deriving from
it and deriving further from the seed print the same public key or fail for the same cause, and its
inspection finds what was printed.
-/

namespace KeyTree.CommandLine

/-- What a call leaves behind that derives a key and prints a report on it. -/
def Outcome.ofDerived (layout : Layout) : Except Failure DerivedReport → Outcome
  | .ok report => printed (report.text layout)
  | .error failure => ⟨1, "", failure.text⟩

theorem outcome_derive (layout : Layout) (curve : Curve) {seed pathText : String} {path : Path}
    (plain : Argument.ofText seed = .plain seed) (parsed : Path.ofText pathText = .ok path) :
    Outcome.ofArguments (deriveArguments layout curve seed pathText) =
      .ofDerived layout (DerivedReport.ofSeed curve.group seed path) := by
  rw [Outcome.ofArguments, ofArguments_derive layout curve plain parsed]
  simp only [Outcome.ofCall, Command.report]
  cases DerivedReport.ofSeed curve.group seed path <;> rfl

theorem outcome_public (layout : Layout) (curve : Curve) (record : Record) {pathText : String}
    {path : Path} (parsed : Path.ofText pathText = .ok path) :
    Outcome.ofArguments (publicArguments layout curve record.text pathText) =
      .ofDerived layout (DerivedReport.ofExtendedPublic curve.group record.text path) := by
  rw [Outcome.ofArguments, ofArguments_public layout curve record parsed]
  simp only [Outcome.ofCall, Command.report]
  cases DerivedReport.ofExtendedPublic curve.group record.text path <;> rfl

theorem outcome_inspect (layout : Layout) (curve : Curve) {record : Record}
    {report : InspectedReport}
    (reported : InspectedReport.ofText record.text (some curve.group) = .ok report) :
    Outcome.ofArguments (inspectArguments layout curve record.text) =
      .printed (report.text layout) := by
  rw [Outcome.ofArguments, ofArguments_inspect layout curve record]
  simp only [Outcome.ofCall, Command.report, Option.map_some, reported, Except.map]

/-- A derivation from a seed ends with exit code 0 only if it prints its report. -/
theorem exists_report_of_exitCode {layout : Layout} {curve : Curve} {seed pathText : String}
    {path : Path} (parsed : Path.ofText pathText = .ok path)
    (success : (Outcome.ofArguments (deriveArguments layout curve seed pathText)).exitCode = 0) :
    Argument.ofText seed = .plain seed ∧
      ∃ report, DerivedReport.ofSeed curve.group seed path = .ok report := by
  by_cases plain : Argument.ofText seed = .plain seed
  · refine ⟨plain, ?_⟩
    rw [outcome_derive layout curve plain parsed] at success
    rcases reported : DerivedReport.ofSeed curve.group seed path with failure | report
    · rw [reported] at success
      exact absurd success (by decide : (1 : UInt8) ≠ 0)
    · exact ⟨report, rfl⟩
  · rw [Outcome.ofArguments, ofArguments_derive_of_ne layout curve pathText plain] at success
    contradiction

/--
If a derivation from a seed succeeds, then what is derived further from the extended public key that
it prints, and what is derived further from the seed, are reported alike or fail for the same cause,
and the inspection of that key tells what was printed with it.
-/
theorem commands_agree (curve : Curve) (layout : Layout) {seed pathText : String} {path : Path}
    (parsed : Path.ofText pathText = .ok path)
    (success : (Outcome.ofArguments (deriveArguments layout curve seed pathText)).exitCode = 0) :
    ∃ report, DerivedReport.ofSeed curve.group seed path = .ok report ∧
      report.curve = curve ∧ report.path = path ∧
      Outcome.ofArguments (deriveArguments layout curve seed pathText) =
        .printed (report.text layout) ∧
      (∀ restText rest wholeText, Path.ofText restText = .ok rest → rest.isHardenedFree = true →
        Path.ofText wholeText = .ok ⟨path.indices ++ rest.indices⟩ →
        ∃ watched owned,
          DerivedReport.ofExtendedPublic curve.group report.extendedPublic rest = watched ∧
          DerivedReport.ofSeed curve.group seed ⟨path.indices ++ rest.indices⟩ = owned ∧
          Outcome.ofArguments (publicArguments layout curve report.extendedPublic restText) =
            .ofDerived layout watched ∧
          Outcome.ofArguments (deriveArguments layout curve seed wholeText) =
            .ofDerived layout owned ∧
          DerivedReport.Agree watched owned) ∧
      ∃ inspected,
        InspectedReport.ofText report.extendedPublic (some curve.group) = .ok inspected ∧
        Outcome.ofArguments (inspectArguments layout curve report.extendedPublic) =
          .printed (inspected.text layout) ∧
        inspected.Describes report := by
  obtain ⟨plain, report, reported⟩ := exists_report_of_exitCode parsed success
  obtain ⟨record, text_eq⟩ := DerivedReport.exists_record_of_ofSeed reported
  obtain ⟨inspected, inspected_eq, describes⟩ := InspectedReport.exists_describes reported
  refine ⟨report, reported, DerivedReport.curve_of_ofSeed reported,
    DerivedReport.path_of_ofSeed reported, ?_, ?_, inspected, inspected_eq, ?_, describes⟩
  · rw [outcome_derive layout curve plain parsed, reported]
    rfl
  · intro restText rest wholeText rest_parsed free whole_parsed
    refine ⟨_, _, rfl, rfl, ?_, outcome_derive layout curve plain whole_parsed,
      DerivedReport.agree_of_ofSeed reported free⟩
    rw [text_eq]
    exact outcome_public layout curve record rest_parsed
  · rw [text_eq] at inspected_eq ⊢
    exact outcome_inspect layout curve inspected_eq

/-- The master key of a zero byte on the Edwards curve, and its first child. -/
theorem commands_agree_zeroSeed :
    (Outcome.ofArguments (deriveArguments .lines .ed25519 "00" "m")).exitCode = 0 ∧
      ∃ report, DerivedReport.ofSeed Curve.ed25519.group "00" ⟨[]⟩ = .ok report ∧
        DerivedReport.Agree
          (DerivedReport.ofExtendedPublic Curve.ed25519.group report.extendedPublic ⟨[0]⟩)
          (DerivedReport.ofSeed Curve.ed25519.group "00" ⟨[0]⟩) := by
  have success :
      (Outcome.ofArguments (deriveArguments .lines .ed25519 "00" "m")).exitCode = 0 := by
    decide +kernel
  obtain ⟨report, reported, -, -, -, further, -⟩ :=
    commands_agree .ed25519 .lines (by decide : Path.ofText "m" = .ok ⟨[]⟩) success
  obtain ⟨watched, owned, rfl, rfl, -, -, agree⟩ :=
    further "m/0" ⟨[0]⟩ "m/0" (by decide) (by decide) (by decide)
  exact ⟨success, report, reported, agree⟩

end KeyTree.CommandLine
