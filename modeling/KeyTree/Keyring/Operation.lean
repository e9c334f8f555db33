import KeyTree.Keyring.Basic

/-!
# Operations on keyrings

Besides the requests, a single value that comes with the public key can be asked for.  Operations
follow each other, and each finds the keyring as the one before it has left it.
-/

namespace KeyTree.Keyring

/-- A single value that comes with the public key. -/
inductive Detail where
  | publicKey
  | fingerprint
  | identifier
  | extendedPublic

/-- The value of a detail. -/
inductive Value where
  | slot (slot : KeySlot)
  | fingerprint (fingerprint : UInt32)
  | identifier (hash : Bytes 20)
  | extendedPublic (text : String)

/-- The value of a detail of the key of an entry. -/
def Entry.detail {group : CurveGroup} {state : Type} : Detail → EntryM group state Value
  | .publicKey => return .slot (← publicKey)
  | .fingerprint => return .fingerprint (← fingerprint)
  | .identifier => return .identifier (← identifier)
  | .extendedPublic => return .extendedPublic (← extendedPublic)

/-- What is done to a keyring. -/
inductive Operation where
  | request (request : Request)
  /-- Look up a detail of the key that an earlier request made. -/
  | look (number : Nat) (detail : Detail)

/-- What comes of an operation. -/
inductive Result where
  | answer (answer : Answer)
  /-- The value that was looked up, or why there is none. -/
  | looked (outcome : Except Error Value)
  /-- No request with this number made a key. -/
  | noSuchKey

variable {state : Type}

/-- The result of an operation, and the keyring after it. -/
def perform (hash : KeyedHash state) (keyring : Keyring) :
    Operation → StateM state (Result × Keyring)
  | .request request => do
      let (answer, keyring) ← keyring.respond hash request
      return (.answer answer, keyring)
  | .look number detail => do
      let some ⟨curve, entry⟩ := keyring.entryAt? number | return (.noSuchKey, keyring)
      let (outcome, entry) ← Entry.detail detail entry
      return (.looked outcome, keyring.setEntry number ⟨curve, entry⟩)

/-- The results of operations one after the other, and the keyring after them. -/
def run (hash : KeyedHash state) (keyring : Keyring) :
    List Operation → StateM state (List Result × Keyring)
  | [] => return ([], keyring)
  | operation :: operations => do
      let (result, keyring) ← keyring.perform hash operation
      let (results, keyring) ← run hash keyring operations
      return (result :: results, keyring)

end KeyTree.Keyring
