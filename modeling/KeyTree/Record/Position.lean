import KeyTree.Bytes.Integer
import KeyTree.Path.Index

/-!
# Positions in a tree of keys
-/

namespace KeyTree

/-- Where a key stands in its tree, and the chain code with which its children are derived. -/
@[ext]
structure Position where
  /-- The number of steps from the master key. -/
  depth : UInt8
  /-- The fingerprint of the parent key, zero for a master key. -/
  parentFingerprint : UInt32
  /-- The index under which the key was derived. -/
  childIndex : ChildIndex
  chainCode : Bytes 32
  deriving DecidableEq

/-- The position of a master key. -/
def Position.master (chainCode : Bytes 32) : Position where
  depth := 0
  parentFingerprint := 0
  childIndex := 0
  chainCode := chainCode

end KeyTree
