import KeyTree.Error
import KeyTree.Record.Version

/-!
# Why a report cannot be given

A failure says what was being done, and names the cause if that is a failure of its own.
-/

namespace KeyTree

/-- What lies behind a failure. -/
inductive Cause where
  | hexadecimal (defect : Hexadecimal.Defect)
  | key (error : Error)
  deriving DecidableEq

/-- The wording of a cause. -/
def Cause.message : Cause → String
  | hexadecimal defect => defect.message
  | key error => error.message

/-- The ways in which a report fails. -/
inductive Failure where
  | seedText (defect : Hexadecimal.Defect)
  /-- The seed has no master key. -/
  | seed (error : Error)
  /-- A key has no descendant along a path. -/
  | derivation (path : Path) (error : Error)
  /-- A text is not an extended public key of a curve. -/
  | extendedPublic (curve : Curve) (error : Error)
  /-- A text is not an extended key. -/
  | extendedKey (error : Error)
  /-- An extended key has the version of another family of curves. -/
  | otherFamily (curve : Curve) (version : UInt32)
  /-- An extended key has a version of no curve. -/
  | unknownVersion (version : UInt32)
  /-- The key in an extended key is not valid for a curve. -/
  | invalidKey (curve : Curve) (kind : KeyKind) (error : Error)
  deriving DecidableEq

namespace Failure

/-- What was being done. -/
def headline : Failure → String
  | seedText _ => "seed must be hex"
  | seed _ => "seed does not produce a valid master key"
  | derivation path _ => s!"failed to derive {path.text}"
  | extendedPublic curve _ => s!"not a valid {curve.name} extended public key"
  | extendedKey _ => "not a valid extended key"
  | otherFamily curve version =>
      s!"{curve.name} keys use a different version than {Hexadecimal.markedUInt32 version}"
  | unknownVersion version => s!"unknown version {Hexadecimal.markedUInt32 version}"
  | invalidKey curve kind _ => s!"invalid {curve.name} {kind.name} key"

/-- The cause, unless the failure is one by itself. -/
def cause? : Failure → Option Cause
  | seedText defect => some (.hexadecimal defect)
  | seed error | derivation _ error | extendedPublic _ error | extendedKey error
  | invalidKey _ _ error => some (.key error)
  | otherFamily _ _ | unknownVersion _ => none

/-- The text in which a failure is reported. -/
def text (failure : Failure) : String :=
  match failure.cause? with
  | some cause => s!"Error: {failure.headline}\n\nCaused by:\n    {cause.message}\n"
  | none => s!"Error: {failure.headline}\n"

end Failure

end KeyTree
