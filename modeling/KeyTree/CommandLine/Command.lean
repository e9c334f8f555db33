import KeyTree.CommandLine.Settings
import KeyTree.Curve.Standard
import KeyTree.Report.Derived
import KeyTree.Report.Inspected

/-!
# Commands

There are three commands.  Each has a name, the options that it takes, and values for those that may
be left out.
-/

namespace KeyTree.CommandLine

/-- The names of the commands. -/
inductive Verb where
  /-- Derive from a seed. -/
  | derive
  /-- Derive from an extended public key. -/
  | derivePublic
  /-- Tell what an extended key holds. -/
  | inspect
  deriving DecidableEq

namespace Verb

/-- All commands. -/
def all : List Verb := [derive, derivePublic, inspect]

/-- The word for a command. -/
def word : Verb → String
  | derive => "derive"
  | derivePublic => "public"
  | inspect => "inspect"

end Verb

/-- A command with all that it needs. -/
inductive Command where
  /-- Derive along a path from a seed in hexadecimal. -/
  | derive (curve : Curve) (seed : String) (path : Path)
  /-- Derive along a path from an extended public key. -/
  | derivePublic (curve : Curve) (key : String) (path : Path)
  /-- Tell what an extended key holds, and check it against a curve if one is named. -/
  | inspect (key : String) (curve? : Option Curve)
  deriving DecidableEq

namespace Command

/-- The curve of a derivation that names none. -/
def usualCurve : Curve := .secp256k1

/-- The command with this name and these settings. -/
def ofSettings (given : Settings) : Verb → Except Stop Command
  | .derive => do
      let seed ← Settings.require .seed given.seed?
      return .derive (given.curve?.getD usualCurve) seed (given.path?.getD .master)
  | .derivePublic => do
      let key ← Settings.require .key given.key?
      let path ← Settings.require .path given.path?
      return .derivePublic (given.curve?.getD usualCurve) key path
  | .inspect => do
      let key ← Settings.require .key given.key?
      return .inspect key given.curve?

/-- The report that a command prints. -/
def report (layout : Layout) : Command → Except Failure String
  | derive curve seed path =>
      (DerivedReport.ofSeed curve.group seed path).map (DerivedReport.text layout)
  | derivePublic curve key path =>
      (DerivedReport.ofExtendedPublic curve.group key path).map (DerivedReport.text layout)
  | inspect key curve? =>
      (InspectedReport.ofText key (curve?.map Curve.group)).map (InspectedReport.text layout)

end Command

end KeyTree.CommandLine
