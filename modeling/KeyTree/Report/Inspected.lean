import KeyTree.Key.Extended
import KeyTree.Report.Failure
import KeyTree.Report.Layout
import KeyTree.Text.Blank

/-!
# Reports on extended keys

An extended key is decoded and its fields are reported; the private key never is.  Given a group,
the key must also be valid there.
-/

namespace KeyTree

/-- What is told about an extended key. -/
structure InspectedReport extends Position where
  version : UInt32
  /-- The class of the key, unless the version is unknown. -/
  keyClass? : Option KeyClass
  /-- The key field, if it holds a public key. -/
  slot? : Option (Bytes 33)
  /-- The curve for which the key was found valid. -/
  validFor? : Option Curve
  deriving DecidableEq

namespace InspectedReport

/-- The key field of a record, if its version says that it holds a public key. -/
def publicField? (record : Record) : Option (Bytes 33) :=
  match record.keyClass? with
  | some ⟨_, .publicKey⟩ => some record.key
  | _ => none

/-- The report on a record. -/
def ofRecord (record : Record) (validFor? : Option Curve) : InspectedReport :=
  { record.toPosition with
    version := record.version
    keyClass? := record.keyClass?
    slot? := publicField? record
    validFor? := validFor? }

/-- Fails unless the text of a record holds a key that is valid in a group. -/
def validate (group : CurveGroup) (text : String) (record : Record) : Except Failure Unit :=
  match record.keyClass? with
  | none => .error (.unknownVersion record.version)
  | some ⟨family, kind⟩ =>
      if family ≠ group.curve.family then .error (.otherFamily group.curve record.version)
      else
        let key := match kind with
          | .privateKey => Key.ofExtendedPrivate group text
          | .publicKey => Key.ofExtendedPublic group text
        (key.mapError (.invalidKey group.curve kind)).map fun _ => ()

/-- The report on an extended key, which must be valid in the group if one is given. -/
def ofText (keyText : String) (group? : Option CurveGroup) : Except Failure InspectedReport := do
  let text := Blank.trim keyText
  let record ← (Record.ofText text).mapError .extendedKey
  match group? with
  | some group =>
      validate group text record
      return ofRecord record (some group.curve)
  | none => return ofRecord record none

/-- How a name is shown that may be unknown. -/
def nameOrUnknown (name? : Option String) : String :=
  name?.getD "unknown"

/-- The lines of a report. -/
def lines (report : InspectedReport) : List (String × String) :=
  [("version", Hexadecimal.markedUInt32 report.version),
    ("family", nameOrUnknown (report.keyClass?.map fun keyClass => keyClass.family.name)),
    ("kind", nameOrUnknown (report.keyClass?.map fun keyClass => keyClass.kind.name)),
    ("depth", toString report.depth.toNat),
    ("parent fingerprint", Hexadecimal.ofUInt32 report.parentFingerprint),
    ("child index", String.ofList (Path.segmentText report.childIndex)),
    ("chain code", Hexadecimal.encode report.chainCode.toList)] ++
  (report.slot?.map fun slot => ("public key", Hexadecimal.encode slot.toList)).toList ++
  (report.validFor?.map fun curve => ("valid for", curve.name)).toList

/-- The JSON member for a name that may be unknown. -/
def nameOrNull (name? : Option String) : JsonObject.Value :=
  (name?.map JsonObject.Value.text).getD .null

/-- The JSON members of a report. -/
def members (report : InspectedReport) : List (String × JsonObject.Value) :=
  [("version", .text (Hexadecimal.markedUInt32 report.version)),
    ("family", nameOrNull (report.keyClass?.map fun keyClass => keyClass.family.name)),
    ("kind", nameOrNull (report.keyClass?.map fun keyClass => keyClass.kind.name)),
    ("depth", .number report.depth.toNat),
    ("parent_fingerprint", .text (Hexadecimal.ofUInt32 report.parentFingerprint)),
    ("child_index", .number report.childIndex.toNat),
    ("hardened", .boolean (ChildIndex.isHardened report.childIndex)),
    ("chain_code", .text (Hexadecimal.encode report.chainCode.toList))] ++
  (report.slot?.map fun slot =>
    ("public_key", .text (Hexadecimal.encode slot.toList))).toList ++
  (report.validFor?.map fun curve => ("valid_for", .text curve.name)).toList

/-- The text of a report. -/
def text (layout : Layout) (report : InspectedReport) : String :=
  layout.render report.lines report.members

end InspectedReport

end KeyTree
