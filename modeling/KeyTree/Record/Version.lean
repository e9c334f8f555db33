import KeyTree.Curve.Basic

/-!
# Versions of extended keys

The first four bytes of an extended key tell the family of its curve, and whether its key is
private. The two Weierstrass curves share their versions.
-/

namespace KeyTree

/-- What kind of key an extended key holds. -/
inductive KeyKind where
  | privateKey
  | publicKey
  deriving DecidableEq

/-- The name of a kind of key. -/
def KeyKind.name : KeyKind → String
  | privateKey => "private"
  | publicKey => "public"

/-- A family of curves and a kind of key. -/
structure KeyClass where
  family : Family
  kind : KeyKind
  deriving DecidableEq

namespace KeyClass

/-- All classes of extended keys. -/
def all : List KeyClass :=
  [⟨.weierstrass, .privateKey⟩, ⟨.weierstrass, .publicKey⟩,
    ⟨.edwards, .privateKey⟩, ⟨.edwards, .publicKey⟩]

/-- The version of the extended keys of a class. -/
def version : KeyClass → UInt32
  | ⟨.weierstrass, .privateKey⟩ => 0x0488ade4
  | ⟨.weierstrass, .publicKey⟩ => 0x0488b21e
  | ⟨.edwards, .privateKey⟩ => 0x03126f7c
  | ⟨.edwards, .publicKey⟩ => 0x031273b8

/-- The class with this version. -/
def ofVersion? (version : UInt32) : Option KeyClass :=
  all.find? fun keyClass => keyClass.version == version

@[simp]
theorem ofVersion?_version (keyClass : KeyClass) :
    ofVersion? keyClass.version = some keyClass := by
  obtain ⟨family, kind⟩ := keyClass
  cases family <;> cases kind <;> decide

theorem version_eq_of_ofVersion? {version : UInt32} {keyClass : KeyClass}
    (found : ofVersion? version = some keyClass) : keyClass.version = version := by
  simpa using List.find?_some found

end KeyClass

end KeyTree
