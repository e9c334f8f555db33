import KeyTree.Path.Index
import KeyTree.Text.Decimal

/-!
# Derivation paths

A path lists the indices of the children on the way down from a key.  Its text starts at `m`; each
index follows a slash, a hardened one by its place and a quote.
-/

namespace KeyTree

/-- The indices from a key down to one of its descendants. -/
structure Path where
  /-- The indices in the order of derivation. -/
  indices : List ChildIndex
  deriving DecidableEq

namespace Path

/-- The path of a key to itself. -/
def master : Path := ⟨[]⟩

/-- The path to a child of the key at the end of a path. -/
def child (path : Path) (index : ChildIndex) : Path :=
  ⟨path.indices ++ [index]⟩

/-- The number of steps. -/
def length (path : Path) : Nat := path.indices.length

/-- The first hardened index of a path. -/
def firstHardened? (path : Path) : Option ChildIndex :=
  path.indices.find? ChildIndex.isHardened

/-- No index of the path is hardened, so that it can be followed without a private key. -/
def isHardenedFree (path : Path) : Bool :=
  path.indices.all fun index => !ChildIndex.isHardened index

/-- The text of one index: its place, and a quote if it is hardened. -/
def segmentText (index : ChildIndex) : List Char :=
  Decimal.ofNat (ChildIndex.place index).toNat ++
    if ChildIndex.isHardened index then ['\''] else []

/-- The characters of the text of a path. -/
def characters (path : Path) : List Char :=
  'm' :: path.indices.flatMap fun index => '/' :: segmentText index

/-- The text of a path. -/
def text (path : Path) : String :=
  String.ofList path.characters

end Path

end KeyTree
