import KeyTree.Key.Basic

/-!
# Keys as extended key texts

A key is passed on as the text of a record.  Reading asks for the version of the wanted kind of key
on the wanted family of curves, and then checks the key field against the group.
-/

namespace KeyTree.Key

variable {group : CurveGroup}

/-- The class of a key of this kind over the group. -/
def keyClass (group : CurveGroup) (kind : KeyKind) : KeyClass :=
  ⟨group.curve.family, kind⟩

/-- The record of a key with this key field. -/
def record (key : Key group) (kind : KeyKind) (field : Bytes 33) : Record :=
  { key.toPosition with
    version := (keyClass group kind).version
    key := field }

/-- The lead byte of the key field of an extended private key. -/
def privateLead : UInt8 := 0

/-- The key field that holds a private key. -/
def privateField (secret : Secret 32) : Bytes 33 :=
  let field : Bytes (1 + 32) := Bytes.singleton privateLead ++ secret.bytes
  field

/-- The extended private key. -/
def extendedPrivate (key : Key group) : Except Error String := do
  let secret ← key.requirePrivate
  return (key.record .privateKey (privateField secret)).text

/-- The extended public key, given the slot of the public key. -/
def extendedPublicOf (key : Key group) (slot : KeySlot) : String :=
  (key.record .publicKey slot).text

/-- The extended public key. -/
def extendedPublic (key : Key group) : Except Error String :=
  key.publicKey.map key.extendedPublicOf

/-- The key with this extended private key. -/
def ofExtendedPrivate (group : CurveGroup) (text : String) : Except Error (Key group) := do
  let record ← Record.ofText text
  record.expectVersion (keyClass group .privateKey).version
  let field : Bytes (1 + 32) := record.key
  if field.head = privateLead then ofPrivate record.toPosition field.dropLeft.toList
  else throw (.privateLead field.head)

/-- The key with this extended public key. -/
def ofExtendedPublic (group : CurveGroup) (text : String) : Except Error (Key group) := do
  let record ← Record.ofText text
  record.expectVersion (keyClass group .publicKey).version
  ofPublic record.toPosition record.key.toList

end KeyTree.Key
