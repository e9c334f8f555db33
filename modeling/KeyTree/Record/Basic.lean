import KeyTree.Error
import KeyTree.Record.Position
import KeyTree.Record.Version

/-!
# Extended key records

An extended key is a record of 78 bytes in Base58Check:

    version 4 | depth 1 | parent fingerprint 4 | child index 4 | chain code 32 | key 33

Numbers are big-endian.  The key field holds a zero byte and a private scalar, or a public key slot.
Reading a record does not ask whether the key field holds a key of any curve.
-/

namespace KeyTree

/-- The fields of an extended key. -/
@[ext]
structure Record extends Position where
  /-- The version, which tells the class of the key. -/
  version : UInt32
  key : Bytes 33
  deriving DecidableEq

namespace Record

/-- The number of bytes in a record. -/
def width : Nat := 78

/-- The bytes of a record. -/
def toBytes (record : Record) : Bytes width :=
  let afterIndex : Bytes (32 + 33) := record.chainCode ++ record.key
  let afterParent : Bytes (4 + (32 + 33)) := Bytes.ofUInt32 record.childIndex ++ afterIndex
  let afterDepth : Bytes (4 + (4 + (32 + 33))) :=
    Bytes.ofUInt32 record.parentFingerprint ++ afterParent
  let afterVersion : Bytes (1 + (4 + (4 + (32 + 33)))) :=
    Bytes.singleton record.depth ++ afterDepth
  let all : Bytes (4 + (1 + (4 + (4 + (32 + 33))))) :=
    Bytes.ofUInt32 record.version ++ afterVersion
  all

/-- The record with these bytes. -/
def ofBytes (bytes : Bytes width) : Record :=
  let all : Bytes (4 + (1 + (4 + (4 + (32 + 33))))) := bytes
  let afterVersion := all.dropLeft
  let afterDepth := afterVersion.dropLeft
  let afterParent := afterDepth.dropLeft
  let afterIndex := afterParent.dropLeft
  { version := all.takeLeft.toUInt32
    depth := afterVersion.head
    parentFingerprint := afterDepth.takeLeft.toUInt32
    childIndex := afterParent.takeLeft.toUInt32
    chainCode := afterIndex.takeLeft
    key := afterIndex.dropLeft }

@[simp]
theorem ofBytes_toBytes (record : Record) : ofBytes record.toBytes = record := by
  simp only [ofBytes, toBytes, Bytes.takeLeft_append, Bytes.dropLeft_append,
    Bytes.toUInt32_ofUInt32, Bytes.head_singleton_append]

@[simp]
theorem toBytes_ofBytes (bytes : Bytes width) : (ofBytes bytes).toBytes = bytes := by
  simp only [ofBytes, toBytes, Bytes.ofUInt32_toUInt32, Bytes.takeLeft_append_dropLeft,
    Bytes.singleton_head_append_dropLeft]
  exact @Bytes.takeLeft_append_dropLeft 4 74 bytes

/-- The record that a byte string of any length holds. -/
def ofList (bytes : List UInt8) : Except Error Record :=
  match Bytes.ofList? width bytes with
  | some exact => .ok (ofBytes exact)
  | none => .error (.recordLength bytes.length)

/-- The payload of a Base58Check text. -/
def payload (text : String) : Except Error (List UInt8) :=
  (Base58.decodeCheck text).mapError .encoding

/-- The text of a record. -/
def text (record : Record) : String :=
  Base58.encodeCheck record.toBytes.toList

/-- The record with this text. -/
def ofText (text : String) : Except Error Record :=
  payload text >>= ofList

/-- The version at the start of a text, whatever follows it. -/
def peekVersion (text : String) : Except Error UInt32 := do
  let bytes ← payload text
  match Bytes.ofList? 4 (bytes.take 4) with
  | some version => return version.toUInt32
  | none => throw (.recordLength bytes.length)

/-- The class of the key in a record, unless its version is unknown. -/
def keyClass? (record : Record) : Option KeyClass :=
  KeyClass.ofVersion? record.version

/-- Fails unless the record has this version. -/
def expectVersion (record : Record) (expected : UInt32) : Except Error Unit :=
  if record.version = expected then .ok ()
  else .error (.versionMismatch record.version expected)

end Record

end KeyTree
