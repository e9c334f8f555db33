import KeyTree.Key.Child
import KeyTree.Key.Extended

/-!
# Keys that remember their public key

Working a public key out of a private one takes a long multiplication, so an entry of a keyring
keeps it from the first time it was needed.  An operation on an entry may leave it with its public
key remembered; nothing else about an entry ever changes.
-/

namespace KeyTree.Keyring

/-- A key, and its public key once that is known. -/
structure Entry (group : CurveGroup) where
  key : Key group
  /-- The slot of its public key, if it has been needed before. -/
  known : Option KeySlot
  deriving DecidableEq

/-- An operation on an entry, which may change what the entry remembers. -/
abbrev EntryM (group : CurveGroup) (state : Type) :=
  ExceptT Error (StateT (Entry group) (StateM state))

namespace Entry

variable {group : CurveGroup} {state : Type}

/-- The entry of a new key.  The public key is known from the start if there is no private key. -/
def ofKey (key : Key group) : Entry group where
  key := key
  known := key.storedSlot?

/-- A derivation as an operation that leaves the entry alone. -/
def derivation {result : Type} (work : Derivation state result) : EntryM group state result :=
  fun entry memory =>
    let (outcome, memory) := work memory
    ((outcome, entry), memory)

/-- An operation on another entry, whose own memory of it is dropped. -/
def on {result : Type} (entry : Entry group) (operation : EntryM group state result) :
    EntryM group state result :=
  fun receiver memory =>
    let ((outcome, _), memory) := operation entry memory
    ((outcome, receiver), memory)

/-- The public key, which the entry remembers from now on. -/
def publicKey : EntryM group state KeySlot := do
  let entry ← get
  match entry.known with
  | some slot => return slot
  | none =>
      let slot ← entry.key.publicKey
      set { entry with known := some slot }
      return slot

/-- The entry without its private key. -/
def neuter : EntryM group state (Entry group) := do
  let slot ← publicKey
  let entry ← get
  return ofKey (entry.key.withSlot slot)

/-- The child of a private key. -/
def privateChild (hash : KeyedHash state) (index : ChildIndex) :
    EntryM group state (Entry group) := do
  let entry ← get
  let (secret, depth) ← entry.key.readyForPrivate
  let slot ← publicKey
  let child ← derivation (entry.key.privateChildOf hash secret depth slot index)
  return ofKey child

/-- The public child of a key, and the offset to it. -/
def publicChild (hash : KeyedHash state) (index : ChildIndex) :
    EntryM group state (Entry group × Bytes 32) := do
  let entry ← get
  let depth ← entry.key.readyForPublic index
  let slot ← publicKey
  let child ← derivation (entry.key.publicChildOf hash depth slot index)
  return (ofKey child.key, child.offset)

/-- The descendant of a private key along a path, derived from a copy of the entry. -/
def derivePrivate (hash : KeyedHash state) (path : Path) : EntryM group state (Entry group) := do
  let copy ← get
  path.indices.foldlM (fun entry index => entry.on (privateChild hash index)) copy

/-- The public descendant of a key along a path, and the offset to it. -/
def derivePublic (hash : KeyedHash state) (path : Path) :
    EntryM group state (Entry group × Bytes 32) := do
  Key.requireHardenedFree path
  let watched ← neuter
  let child ← derivation (Key.derivePublicFrom hash watched.key path)
  return (ofKey child.key, child.offset)

/-- The public key that lies an offset away. -/
def offset (offset : Bytes 32) : EntryM group state KeySlot := do
  let slot ← publicKey
  group.offsetSlot slot offset

/-- The hash that identifies the public key. -/
def identifier : EntryM group state (Bytes 20) := do
  let slot ← publicKey
  return Hash.hash160 slot.toList

/-- The fingerprint by which the children of the key name it. -/
def fingerprint : EntryM group state UInt32 := do
  let slot ← publicKey
  return Hash.fingerprint slot.toList

/-- The extended private key. -/
def extendedPrivate : EntryM group state String := do
  let entry ← get
  entry.key.extendedPrivate

/-- The extended public key. -/
def extendedPublic : EntryM group state String := do
  let slot ← publicKey
  let entry ← get
  return entry.key.extendedPublicOf slot

end Entry

end KeyTree.Keyring
