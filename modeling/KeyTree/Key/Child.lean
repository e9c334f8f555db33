import KeyTree.Key.Basic

/-!
# Children and descendants

A private key gives all of its children with their private keys.  A public key gives the public keys
of those children that are not hardened, each with the offset that leads to it.
-/

namespace KeyTree.Key

variable {group : CurveGroup} {state : Type}

/-- A public key that was derived, and how far it lies from the one it was derived from. -/
structure PublicChild (group : CurveGroup) where
  key : Key group
  /-- The scalar by which the public key was moved. -/
  offset : Bytes 32

/-- The depth of the children of a key. -/
def childDepth (key : Key group) : Except Error UInt8 :=
  if key.depth = 255 then .error .depthOverflow else .ok (key.depth + 1)

/-- What a private derivation needs of the key: its private key, and room for a child. -/
def readyForPrivate (key : Key group) : Except Error (Secret 32 × UInt8) := do
  let secret ← key.requirePrivate
  let depth ← key.childDepth
  return (secret, depth)

/-- What a public derivation needs: an index that is not hardened, and room for a child. -/
def readyForPublic (key : Key group) (index : ChildIndex) : Except Error UInt8 :=
  if ChildIndex.isHardened index then .error (.hardenedFromPublic index) else key.childDepth

/-- The child of a key with this private key and this public key. -/
def privateChildOf (hash : KeyedHash state) (key : Key group) (secret : Secret 32) (depth : UInt8)
    (slot : KeySlot) (index : ChildIndex) : Derivation state (Key group) := do
  let step ← Derivation.privateStep group hash secret slot key.chainCode index
  return {
    depth := depth
    parentFingerprint := Hash.fingerprint slot.toList
    childIndex := step.index
    chainCode := step.chainCode
    material := .privateKey step.key }

/-- The public child of a key with this public key. -/
def publicChildOf (hash : KeyedHash state) (key : Key group) (depth : UInt8) (slot : KeySlot)
    (index : ChildIndex) : Derivation state (PublicChild group) := do
  let step ← Derivation.publicStep group hash slot key.chainCode index
  let child : Key group := {
    depth := depth
    parentFingerprint := Hash.fingerprint slot.toList
    childIndex := step.index
    chainCode := step.chainCode
    material := .publicKey step.slot }
  return { key := child, offset := step.offset }

/-- The child of a private key. -/
def privateChild (hash : KeyedHash state) (key : Key group) (index : ChildIndex) :
    Derivation state (Key group) := do
  let (secret, depth) ← key.readyForPrivate
  let slot ← key.publicKey
  key.privateChildOf hash secret depth slot index

/-- The public child of a key. -/
def publicChild (hash : KeyedHash state) (key : Key group) (index : ChildIndex) :
    Derivation state (PublicChild group) := do
  let depth ← key.readyForPublic index
  let slot ← key.publicKey
  key.publicChildOf hash depth slot index

/-- The descendant of a private key along a path. -/
def derivePrivate (hash : KeyedHash state) (key : Key group) (path : Path) :
    Derivation state (Key group) :=
  path.indices.foldlM (privateChild hash) key

/-- One more step from a public descendant, with the offsets added up. -/
def extend (hash : KeyedHash state) (parent : PublicChild group) (index : ChildIndex) :
    Derivation state (PublicChild group) := do
  let child ← parent.key.publicChild hash index
  let offset ← group.addOffsets parent.offset child.offset
  return { child with offset := offset }

/-- Fails if the path has a hardened index, and names the first of them. -/
def requireHardenedFree (path : Path) : Except Error Unit :=
  match path.firstHardened? with
  | some index => .error (.hardenedFromPublic index)
  | none => .ok ()

/-- The descendant of a public key along a path, and the sum of the offsets on the way. -/
def derivePublicFrom (hash : KeyedHash state) (watched : Key group) (path : Path) :
    Derivation state (PublicChild group) :=
  path.indices.foldlM (extend hash) { key := watched, offset := Bytes.zero 32 }

/--
The public descendant of a key along a path; all of the path is checked before the first step.
-/
def derivePublic (hash : KeyedHash state) (key : Key group) (path : Path) :
    Derivation state (PublicChild group) := do
  requireHardenedFree path
  let watched ← key.neuter
  derivePublicFrom hash watched path

end KeyTree.Key
