import KeyTree.Curve.Standard
import KeyTree.Keyring.Diagnostic

/-!
# Keyrings

A keyring answers requests one after the other.  A request that makes a key adds an entry, to which
later requests refer by the number of the request.
-/

namespace KeyTree.Keyring

/-- An entry for a key on any of the curves. -/
structure AnyEntry where
  curve : Curve
  entry : Entry curve.group

/-- A path given as text or as the list of its indices. -/
inductive Route where
  | text (text : String)
  | path (path : Path)

/-- The path of a route, provided its text names one. -/
def Route.toPath : Route → Except Error Path
  | .text written => Path.ofText written
  | .path known => .ok known

/-- A way to make a key out of nothing but its arguments. -/
inductive Origin where
  | seed (seed : List UInt8)
  | privateKey (position : Position) (bytes : List UInt8)
  | publicKey (position : Position) (bytes : List UInt8)
  | extendedPrivate (text : String)
  | extendedPublic (text : String)

/-- A way to make a key out of another one. -/
inductive Descent where
  | privateChild (index : ChildIndex)
  | publicChild (index : ChildIndex)
  | privatePath (route : Route)
  | publicPath (route : Route)
  | neuter
  /-- A copy, with what the entry remembers. -/
  | copy

/-- A question about a key. -/
inductive Query where
  /-- The public key that lies an offset away. -/
  | offset (offset : Bytes 32)
  | extendedPrivate
  | summary
  /-- The key as it stands, without its public key. -/
  | key
  | diagnostic

/-- All that can be told about a key. -/
structure Summary where
  curve : Curve
  position : Position
  fingerprint : UInt32
  /-- The hash that identifies the public key. -/
  identifier : Bytes 20
  private? : Option (Secret 32)
  slot : KeySlot
  /-- The extended private key, or why there is none. -/
  extendedPrivate : Except Error String
  extendedPublic : String

/-- The answer to a question about a key. -/
inductive Fact where
  | slot (slot : KeySlot)
  | extendedPrivate (text : String)
  | summary (summary : Summary)
  /-- The curve, the position and the private key. -/
  | key (curve : Curve) (position : Position) (private? : Option (Secret 32))
  | diagnostic (text : String)

namespace Entry

variable {group : CurveGroup} {state : Type}

/-- All that can be told about the key of an entry. -/
def summary : EntryM group state Summary := do
  let slot ← publicKey
  let key := (← get).key
  return {
    curve := group.curve
    position := key.toPosition
    fingerprint := Hash.fingerprint slot.toList
    identifier := Hash.hash160 slot.toList
    private? := key.private?
    slot := slot
    extendedPrivate := key.extendedPrivate
    extendedPublic := key.extendedPublicOf slot }

/-- The entry of a key made out of nothing but its arguments. -/
def ofOrigin (group : CurveGroup) (hash : KeyedHash state) :
    Origin → Derivation state (Entry group)
  | .seed seed => return ofKey (← Key.ofSeed hash seed)
  | .privateKey position bytes => return ofKey (← Key.ofPrivate position bytes)
  | .publicKey position bytes => return ofKey (← Key.ofPublic position bytes)
  | .extendedPrivate text => return ofKey (← Key.ofExtendedPrivate group text)
  | .extendedPublic text => return ofKey (← Key.ofExtendedPublic group text)

/-- The entry of a key made out of this one, and the offset to it after a public derivation. -/
def descend (hash : KeyedHash state) :
    Descent → EntryM group state (Entry group × Option (Bytes 32))
  | .privateChild index => return (← privateChild hash index, none)
  | .publicChild index => do
      let (child, offset) ← publicChild hash index
      return (child, some offset)
  | .privatePath route => do
      let path ← route.toPath
      return (← derivePrivate hash path, none)
  | .publicPath route => do
      let path ← route.toPath
      let (child, offset) ← derivePublic hash path
      return (child, some offset)
  | .neuter => return (← neuter, none)
  | .copy => return (← get, none)

/-- The answer to a question about the key of an entry. -/
def answer : Query → EntryM group state Fact
  | .offset offset => return .slot (← Entry.offset offset)
  | .extendedPrivate => return .extendedPrivate (← Entry.extendedPrivate)
  | .summary => return .summary (← Entry.summary)
  | .key => do
      let key := (← get).key
      return .key group.curve key.toPosition key.private?
  | .diagnostic => return .diagnostic (← get).diagnostic

end Entry

/-- What a keyring is asked to do. -/
inductive Request where
  /-- Make a key on a curve; the answer tells about it unless it is to be brief. -/
  | make (curve : Curve) (origin : Origin) (brief : Bool)
  /-- Make a key out of the one that an earlier request made. -/
  | derive (number : Nat) (descent : Descent) (brief : Bool)
  /-- Tell something about the key that an earlier request made. -/
  | ask (number : Nat) (query : Query)

/-- What a keyring answers. -/
inductive Answer where
  /-- A key was made: the offset to it after a public derivation, and what can be told about it. -/
  | made (offset? : Option (Bytes 32)) (summary? : Option Summary)
  | fact (fact : Fact)
  | failed (error : Error)
  /-- No request with this number made a key. -/
  | noSuchKey

end Keyring

/-- The entries made so far, at the numbers of the requests that made them. -/
structure Keyring where
  /-- One place for each request. -/
  entries : List (Option Keyring.AnyEntry)

namespace Keyring

variable {state : Type}

/-- The keyring before the first request. -/
def empty : Keyring := ⟨[]⟩

/-- The entry that the request with this number made. -/
def entryAt? (keyring : Keyring) (number : Nat) : Option AnyEntry :=
  keyring.entries[number]?.join

/-- The keyring with an entry in place of that of an earlier request. -/
def setEntry (keyring : Keyring) (number : Nat) (entry : AnyEntry) : Keyring :=
  ⟨keyring.entries.set number (some entry)⟩

/-- The keyring after one more request. -/
def push (keyring : Keyring) (made? : Option AnyEntry) : Keyring :=
  ⟨keyring.entries ++ [made?]⟩

/-- The answer for a new key, which tells all about it unless it is to be brief. -/
def introduce {group : CurveGroup} (entry : Entry group) (offset? : Option (Bytes 32)) (brief : Bool) :
    StateM state (Answer × Entry group) := do
  if brief then return (.made offset? none, entry)
  else
    let (outcome, entry) ← Entry.summary entry
    match outcome with
    | .ok summary => return (.made offset? (some summary), entry)
    | .error error => return (.failed error, entry)

/-- The answer to a request, and the keyring after it. -/
def respond (hash : KeyedHash state) (keyring : Keyring) :
    Request → StateM state (Answer × Keyring)
  | .make curve origin brief => do
      match ← Entry.ofOrigin curve.group hash origin with
      | .ok entry =>
          let (answer, entry) ← introduce entry none brief
          return (answer, keyring.push (some ⟨curve, entry⟩))
      | .error error => return (.failed error, keyring.push none)
  | .derive number descent brief => do
      let some ⟨curve, parent⟩ := keyring.entryAt? number | return (.noSuchKey, keyring.push none)
      let (outcome, parent) ← Entry.descend hash descent parent
      let keyring := keyring.setEntry number ⟨curve, parent⟩
      match outcome with
      | .ok (entry, offset?) =>
          let (answer, entry) ← introduce entry offset? brief
          return (answer, keyring.push (some ⟨curve, entry⟩))
      | .error error => return (.failed error, keyring.push none)
  | .ask number query => do
      let some ⟨curve, entry⟩ := keyring.entryAt? number | return (.noSuchKey, keyring.push none)
      let (outcome, entry) ← Entry.answer query entry
      let keyring := (keyring.setEntry number ⟨curve, entry⟩).push none
      match outcome with
      | .ok fact => return (.fact fact, keyring)
      | .error error => return (.failed error, keyring)

end Keyring

end KeyTree
