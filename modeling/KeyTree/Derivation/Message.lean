import KeyTree.Curve.Group

/-!
# Messages to the keyed hash

A step of derivation sends 37 bytes: a lead byte, 32 bytes of the parent key, and the index.  A
hardened index sends the private key behind a zero byte; the others send the public key behind a
lead byte that is never zero.
-/

namespace KeyTree.Derivation

/-- The message that asks for a hardened child. -/
def hardenedMessage (key : Secret 32) (index : ChildIndex) : Bytes 37 :=
  let body : Bytes (32 + 4) := key.bytes ++ Bytes.ofUInt32 index
  let message : Bytes (1 + (32 + 4)) := Bytes.singleton 0 ++ body
  message

/-- The lead byte that stands for the zero byte of an Edwards slot. -/
def edwardsLead : UInt8 := 1

/-- The lead byte of messages that send a public key. -/
def lead (family : Family) (slot : KeySlot) : UInt8 :=
  let leadAndBody : Bytes (1 + 32) := slot
  match family with
  | .weierstrass => leadAndBody.head
  | .edwards => edwardsLead

/-- The message that asks for a child that is not hardened. -/
def normalMessage (family : Family) (slot : KeySlot) (index : ChildIndex) : Bytes 37 :=
  let leadAndBody : Bytes (1 + 32) := slot
  let body : Bytes (32 + 4) := leadAndBody.dropLeft ++ Bytes.ofUInt32 index
  let message : Bytes (1 + (32 + 4)) := Bytes.singleton (lead family slot) ++ body
  message

/-- The message that a private key sends for an index. -/
def privateMessage (family : Family) (key : Secret 32) (slot : KeySlot) (index : ChildIndex) :
    Bytes 37 :=
  if ChildIndex.isHardened index then hardenedMessage key index
  else normalMessage family slot index

end KeyTree.Derivation
