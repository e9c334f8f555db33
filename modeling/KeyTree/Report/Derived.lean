import KeyTree.Key.Child
import KeyTree.Key.Extended
import KeyTree.Report.Failure
import KeyTree.Report.Layout
import KeyTree.Text.Blank

/-!
# Reports on derived keys

A key is derived from a seed, or from an extended public key, and is reported with its extended
keys. Blanks around the seed or the extended key do not count.
-/

namespace KeyTree

/-- What is told about a derived key. -/
structure DerivedReport where
  curve : Curve
  path : Path
  depth : UInt8
  childIndex : ChildIndex
  parentFingerprint : UInt32
  fingerprint : UInt32
  /-- The extended private key, if the key holds a private key. -/
  extendedPrivate? : Option String
  extendedPublic : String
  slot : KeySlot
  /-- How far the public key lies from the one that it was derived from. -/
  offset? : Option (Bytes 32)
  deriving DecidableEq

namespace DerivedReport

variable {group : CurveGroup}

/-- The report on a key that was derived along a path. -/
def ofKey (path : Path) (offset? : Option (Bytes 32)) (key : Key group) :
    Except Error DerivedReport := do
  let slot ← key.publicKey
  return {
    curve := group.curve
    path := path
    depth := key.depth
    childIndex := key.childIndex
    parentFingerprint := key.parentFingerprint
    fingerprint := Hash.fingerprint slot.toList
    extendedPrivate? := key.extendedPrivate.toOption
    extendedPublic := key.extendedPublicOf slot
    slot := slot
    offset? := offset? }

/-- The report on the descendant along a path of the master key of a seed in hexadecimal. -/
def ofSeed (group : CurveGroup) (seedText : String) (path : Path) :
    Except Failure DerivedReport := do
  let seed ← (Hexadecimal.decode (Blank.trim seedText)).mapError .seedText
  let master : Key group ← (Key.ofSeed KeyedHash.hmac seed).outcome.mapError .seed
  let descendant := do ofKey path none (← (master.derivePrivate KeyedHash.hmac path).outcome)
  descendant.mapError (.derivation path)

/-- The report on the public descendant along a path of an extended public key. -/
def ofExtendedPublic (group : CurveGroup) (keyText : String) (path : Path) :
    Except Failure DerivedReport := do
  let read := Key.ofExtendedPublic group (Blank.trim keyText)
  let key ← read.mapError (.extendedPublic group.curve)
  let descendant := do
    let child ← (key.derivePublic KeyedHash.hmac path).outcome
    ofKey path (some child.offset) child.key
  descendant.mapError (.derivation path)

/-- The lines of a report. -/
def lines (report : DerivedReport) : List (String × String) :=
  [("curve", report.curve.name),
    ("path", report.path.text),
    ("depth", toString report.depth.toNat),
    ("child index", toString report.childIndex.toNat),
    ("parent fingerprint", Hexadecimal.ofUInt32 report.parentFingerprint),
    ("fingerprint", Hexadecimal.ofUInt32 report.fingerprint)] ++
  (report.extendedPrivate?.map (Prod.mk "private")).toList ++
  [("public", report.extendedPublic),
    ("public key", Hexadecimal.encode report.slot.toList)] ++
  (report.offset?.map fun offset => ("delta", Hexadecimal.encode offset.toList)).toList

/-- The JSON members of a report; what is absent has no member. -/
def members (report : DerivedReport) : List (String × JsonObject.Value) :=
  [("curve", .text report.curve.name),
    ("path", .text report.path.text),
    ("depth", .number report.depth.toNat),
    ("child_index", .number report.childIndex.toNat),
    ("parent_fingerprint", .text (Hexadecimal.ofUInt32 report.parentFingerprint)),
    ("fingerprint", .text (Hexadecimal.ofUInt32 report.fingerprint))] ++
  (report.extendedPrivate?.map fun key => ("extended_private_key", .text key)).toList ++
  [("extended_public_key", .text report.extendedPublic),
    ("public_key", .text (Hexadecimal.encode report.slot.toList))] ++
  (report.offset?.map fun offset =>
    ("delta", .text (Hexadecimal.encode offset.toList))).toList

/-- The text of a report. -/
def text (layout : Layout) (report : DerivedReport) : String :=
  layout.render report.lines report.members

end DerivedReport

end KeyTree
