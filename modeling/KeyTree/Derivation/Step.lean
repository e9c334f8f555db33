import KeyTree.Derivation.Candidate
import KeyTree.Derivation.Message
import KeyTree.Derivation.Search

/-!
# Steps of derivation

A step goes from a key to one of its children.  The private step works on the scalar and the public
step on the point; under an index that is not hardened both ask the keyed hash the same questions.
-/

namespace KeyTree.Derivation

variable {state : Type}

/-- The outcome of a private step. -/
structure PrivateStep where
  key : Secret 32
  chainCode : Bytes 32
  /-- The index of the child, which may come after the one asked for. -/
  index : ChildIndex

/-- The outcome of a public step. -/
structure PublicStep where
  slot : KeySlot
  chainCode : Bytes 32
  /-- The index of the child, which may come after the one asked for. -/
  index : ChildIndex
  /-- The scalar by which the public key was moved. -/
  offset : Bytes 32

/-- The key under which the hash of a seed is taken. -/
def masterHashKey : List UInt8 := "Bitcoin seed".toUTF8.toList

/-- The private key and the chain code of the master key of a seed. -/
def master (group : CurveGroup) (hash : KeyedHash state) (seed : List UInt8) :
    Derivation state (Secret 32 × Bytes 32) := do
  let output ← hash masterHashKey seed
  match group.masterScalar? output with
  | some scalar => return (⟨group.scalarToBytes scalar⟩, CurveGroup.rightHalf output)
  | none => throw .invalidSeed

/-- What a private step tries at an index. -/
def privateCandidate (group : CurveGroup) (hash : KeyedHash state) (parent : group.Scalar)
    (key : Secret 32) (slot : KeySlot) (chainCode : Bytes 32) (index : ChildIndex) :
    StateM state (Option PrivateStep) := do
  let message := privateMessage group.curve.family key slot index
  let output ← hash chainCode.toList message.toList
  return (group.childScalar? parent output).map fun child =>
    { key := ⟨group.scalarToBytes child⟩
      chainCode := CurveGroup.rightHalf output
      index := index }

/-- What a public step tries at an index. -/
def publicCandidate (group : CurveGroup) (hash : KeyedHash state) (parent : group.Point)
    (slot : KeySlot) (chainCode : Bytes 32) (index : ChildIndex) :
    StateM state (Option PublicStep) := do
  let message := normalMessage group.curve.family slot index
  let output ← hash chainCode.toList message.toList
  return (group.childPoint? parent output).map fun (child, tweak) =>
    { slot := group.encode child
      chainCode := CurveGroup.rightHalf output
      index := index
      offset := group.scalarToBytes tweak }

/-- The step from a private key to a child. -/
def privateStep (group : CurveGroup) (hash : KeyedHash state) (key : Secret 32) (slot : KeySlot)
    (chainCode : Bytes 32) (index : ChildIndex) : Derivation state PrivateStep := do
  let parent ← group.privateScalar key
  search (privateCandidate group hash parent key slot chainCode) index

/-- The step from a public key to a child. -/
def publicStep (group : CurveGroup) (hash : KeyedHash state) (slot : KeySlot)
    (chainCode : Bytes 32) (index : ChildIndex) : Derivation state PublicStep := do
  if ChildIndex.isHardened index then throw (.hardenedFromPublic index)
  let parent ← group.publicPoint slot.toList
  search (publicCandidate group hash parent slot chainCode) index

end KeyTree.Derivation
