import KeyTree.Derivation.Step
import KeyTree.Hash.Fingerprint
import KeyTree.Record.Basic

/-!
# Keys

A key of a tree holds either a private key, from which the public key follows, or a public key only.
Keys are made from a seed, or from key material that is checked against the group.
-/

namespace KeyTree

/-- What a key holds. -/
inductive KeyMaterial where
  | privateKey (key : Secret 32)
  | publicKey (slot : KeySlot)
  deriving DecidableEq

/-- A key in a tree over a group. -/
@[ext]
structure Key (group : CurveGroup) extends Position where
  /-- The private key, or the public key alone. -/
  material : KeyMaterial
  deriving DecidableEq

namespace Key

variable {group : CurveGroup} {state : Type}

/-- The master key of a seed. -/
def ofSeed (hash : KeyedHash state) (seed : List UInt8) : Derivation state (Key group) := do
  let (key, chainCode) ← Derivation.master group hash seed
  return { Position.master chainCode with material := .privateKey key }

/-- The key that holds a private key given as bytes. -/
def ofPrivate (position : Position) (bytes : List UInt8) : Except Error (Key group) := do
  let key ← group.privateKey bytes
  return { position with material := .privateKey key }

/-- The key that holds a public key given as bytes, in any form. -/
def ofPublic (position : Position) (bytes : List UInt8) : Except Error (Key group) := do
  let slot ← group.publicSlot bytes
  return { position with material := .publicKey slot }

/-- The private key, if the key holds one. -/
def private? (key : Key group) : Option (Secret 32) :=
  match key.material with
  | .privateKey secret => some secret
  | .publicKey _ => none

/-- The slot that the key holds in place of a private key. -/
def storedSlot? (key : Key group) : Option KeySlot :=
  match key.material with
  | .privateKey _ => none
  | .publicKey slot => some slot

/-- The private key, or the failure for want of one. -/
def requirePrivate (key : Key group) : Except Error (Secret 32) :=
  match key.private? with
  | some secret => .ok secret
  | none => .error .missingPrivateKey

/--
The slot of the public key, worked out from the private key if there is one.  It fails only for a
private key that is no scalar of the group, and none of the ways to make a key lets such a one in.
-/
def publicKey (key : Key group) : Except Error KeySlot :=
  match key.material with
  | .privateKey secret => group.slotOfPrivate secret
  | .publicKey slot => .ok slot

/-- The key with its public key alone, given the slot of it. -/
def withSlot (key : Key group) (slot : KeySlot) : Key group :=
  { key with material := .publicKey slot }

/-- The key without its private key. -/
def neuter (key : Key group) : Except Error (Key group) :=
  key.publicKey.map key.withSlot

/-- The public key that lies an offset away from that of the key. -/
def offset (key : Key group) (offset : Bytes 32) : Except Error KeySlot := do
  group.offsetSlot (← key.publicKey) offset

/-- The hash that identifies the public key. -/
def identifier (key : Key group) : Except Error (Bytes 20) :=
  key.publicKey.map fun slot => Hash.hash160 slot.toList

/-- The fingerprint by which the children of the key name it. -/
def fingerprint (key : Key group) : Except Error UInt32 :=
  key.publicKey.map fun slot => Hash.fingerprint slot.toList

end Key

end KeyTree
