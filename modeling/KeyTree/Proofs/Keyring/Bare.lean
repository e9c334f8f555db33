import KeyTree.Keyring.Operation
import KeyTree.Proofs.Keyring.Follows

/-!
# Keyrings that remember nothing

A bare keyring holds keys alone and works the public key out of the private one whenever it is
needed.  Nothing that is in it ever changes; requests only add to it.  The diagnostic of a bare key
is that of a new entry.
-/

namespace KeyTree.Keyring

open KeyTree.Derivation

/-- A key on any of the curves. -/
structure AnyKey where
  curve : Curve
  key : Key curve.group

/-- The keys made so far, at the numbers of the requests that made them. -/
abbrev Bare := List (Option AnyKey)

namespace Bare

variable {group : CurveGroup} {state : Type}

/-! ## Keys -/

/-- All that can be told about a key. -/
def summary (key : Key group) : Except Error Summary := do
  let slot ← key.publicKey
  return {
    curve := group.curve
    position := key.toPosition
    fingerprint := Hash.fingerprint slot.toList
    identifier := Hash.hash160 slot.toList
    private? := key.private?
    slot := slot
    extendedPrivate := key.extendedPrivate
    extendedPublic := key.extendedPublicOf slot }

/-- The key made out of nothing but its arguments. -/
def ofOrigin (group : CurveGroup) (hash : KeyedHash state) : Origin → Derivation state (Key group)
  | .seed seed => Key.ofSeed hash seed
  | .privateKey position bytes => liftM (Key.ofPrivate position bytes)
  | .publicKey position bytes => liftM (Key.ofPublic position bytes)
  | .extendedPrivate text => liftM (Key.ofExtendedPrivate group text)
  | .extendedPublic text => liftM (Key.ofExtendedPublic group text)

/-- The key made out of this one, and the offset to it after a public derivation. -/
def descend (hash : KeyedHash state) (key : Key group) :
    Descent → Derivation state (Key group × Option (Bytes 32))
  | .privateChild index => return (← key.privateChild hash index, none)
  | .publicChild index => do
      let child ← key.publicChild hash index
      return (child.key, some child.offset)
  | .privatePath route => do
      let path ← route.toPath
      return (← key.derivePrivate hash path, none)
  | .publicPath route => do
      let path ← route.toPath
      let child ← key.derivePublic hash path
      return (child.key, some child.offset)
  | .neuter => return (← key.neuter, none)
  | .copy => return (key, none)

/-- The answer to a question about a key. -/
def answer (key : Key group) : Query → Except Error Fact
  | .offset offset => return .slot (← key.offset offset)
  | .extendedPrivate => return .extendedPrivate (← key.extendedPrivate)
  | .summary => return .summary (← summary key)
  | .key => return .key group.curve key.toPosition key.private?
  | .diagnostic => return .diagnostic (Entry.ofKey key).diagnostic

/-- The value of a detail of a key. -/
def detail (key : Key group) : Detail → Except Error Value
  | .publicKey => return .slot (← key.publicKey)
  | .fingerprint => return .fingerprint (← key.fingerprint)
  | .identifier => return .identifier (← key.identifier)
  | .extendedPublic => return .extendedPublic (← key.extendedPublic)

/-! ## Keyrings -/

/-- The key that the request with this number made. -/
def key? (keys : Bare) (number : Nat) : Option AnyKey :=
  keys[number]?.join

/-- The answer for a new key, which tells all about it unless it is to be brief. -/
def introduce (key : Key group) (offset? : Option (Bytes 32)) (brief : Bool) : Answer :=
  if brief then .made offset? none
  else
    match summary key with
    | .ok summary => .made offset? (some summary)
    | .error error => .failed error

/-- The answer to a request, and the keyring after it. -/
def respond (hash : KeyedHash state) (keys : Bare) : Request → StateM state (Answer × Bare)
  | .make curve origin brief => do
      match ← ofOrigin curve.group hash origin with
      | .ok key => return (introduce key none brief, keys ++ [some ⟨curve, key⟩])
      | .error error => return (.failed error, keys ++ [none])
  | .derive number descent brief => do
      let some ⟨curve, parent⟩ := keys.key? number | return (.noSuchKey, keys ++ [none])
      match ← descend hash parent descent with
      | .ok (key, offset?) => return (introduce key offset? brief, keys ++ [some ⟨curve, key⟩])
      | .error error => return (.failed error, keys ++ [none])
  | .ask number query => do
      let some ⟨_, key⟩ := keys.key? number | return (.noSuchKey, keys ++ [none])
      match answer key query with
      | .ok fact => return (.fact fact, keys ++ [none])
      | .error error => return (.failed error, keys ++ [none])

/-- The result of an operation, and the keyring after it. -/
def perform (hash : KeyedHash state) (keys : Bare) : Operation → StateM state (Result × Bare)
  | .request request => do
      let (answer, keys) ← respond hash keys request
      return (.answer answer, keys)
  | .look number wanted => do
      let some ⟨_, key⟩ := keys.key? number | return (.noSuchKey, keys)
      return (.looked (detail key wanted), keys)

/-- The results of operations one after the other, and the keyring after them. -/
def run (hash : KeyedHash state) (keys : Bare) :
    List Operation → StateM state (List Result × Bare)
  | [] => return ([], keys)
  | operation :: operations => do
      let (result, keys) ← perform hash keys operation
      let (results, keys) ← run hash keys operations
      return (result :: results, keys)

end Bare

/-! ## Entries follow their keys -/

/-- The fact with the text of a diagnostic left out. -/
def Fact.withoutDiagnostic : Fact → Fact
  | .diagnostic _ => .diagnostic ""
  | fact => fact

/-- Two facts that differ in the text of a diagnostic at most. -/
def SameFact (fact other : Fact) : Prop :=
  fact.withoutDiagnostic = other.withoutDiagnostic

theorem sameFact_of_eq {fact other : Fact} (same : fact = other) : SameFact fact other :=
  congrArg Fact.withoutDiagnostic same

theorem sameFact_diagnostic (text other : String) :
    SameFact (.diagnostic text) (.diagnostic other) := rfl

namespace Entry

variable {group : CurveGroup} {state : Type}

/-- An entry and perhaps an offset, for a key and the same offset. -/
structure RepresentsMade (made : Entry group × Option (Bytes 32))
    (child : Key group × Option (Bytes 32)) : Prop where
  represents : made.1.Represents child.1
  offset_eq : made.2 = child.2

theorem follows_summary (entry : Entry group) :
    Follows Eq entry (summary : EntryM group state Summary)
      (liftM (Bare.summary entry.key)) := by
  rw [Bare.summary, lift_bind]
  refine (follows_publicKey entry).bind ?_
  intro slot _ later same key_eq
  subst same
  refine .read ?_
  rw [key_eq]
  exact .pure rfl

theorem follows_detail (entry : Entry group) (wanted : Detail) :
    Follows Eq entry (detail wanted : EntryM group state Value)
      (liftM (Bare.detail entry.key wanted)) := by
  cases wanted with
  | publicKey => exact (follows_publicKey entry).mapOutcome Value.slot
  | fingerprint => exact (follows_fingerprint entry).mapOutcome Value.fingerprint
  | identifier => exact (follows_identifier entry).mapOutcome Value.identifier
  | extendedPublic => exact (follows_extendedPublic entry).mapOutcome Value.extendedPublic

theorem follows_answer (entry : Entry group) (query : Query) :
    Follows SameFact entry (answer query : EntryM group state Fact)
      (liftM (Bare.answer entry.key query)) := by
  cases query with
  | offset offset =>
      exact ((follows_offset offset entry).mapOutcome Fact.slot).imp fun _ _ => sameFact_of_eq
  | extendedPrivate =>
      exact ((follows_extendedPrivate entry).mapOutcome Fact.extendedPrivate).imp
        fun _ _ => sameFact_of_eq
  | summary =>
      exact ((follows_summary entry).mapOutcome Fact.summary).imp fun _ _ => sameFact_of_eq
  | key => exact .read (.pure rfl)
  | diagnostic => exact .read (.pure (sameFact_diagnostic _ _))

theorem follows_descend (hash : KeyedHash state) (descent : Descent) (entry : Entry group) :
    Follows RepresentsMade entry (descend hash descent)
      (Bare.descend hash entry.key descent) := by
  cases descent with
  | privateChild index =>
      refine (follows_privateChild hash index entry).bind fun child key later made _ => ?_
      exact .pure ⟨made, rfl⟩
  | publicChild index =>
      refine (follows_publicChild hash index entry).bind fun child key later made _ => ?_
      exact .pure ⟨made.represents, congrArg some made.offset_eq⟩
  | privatePath route =>
      refine .bind (.lift route.toPath) fun path _ later same key_eq => ?_
      subst same
      rw [← key_eq]
      refine (follows_derivePrivate hash path later).bind fun child key last made _ => ?_
      exact .pure ⟨made, rfl⟩
  | publicPath route =>
      refine .bind (.lift route.toPath) fun path _ later same key_eq => ?_
      subst same
      rw [← key_eq]
      refine (follows_derivePublic hash path later).bind fun child key last made _ => ?_
      exact .pure ⟨made.represents, congrArg some made.offset_eq⟩
  | neuter =>
      refine (follows_neuter entry).bind fun child key later made _ => ?_
      exact .pure ⟨made, rfl⟩
  | copy => exact .of_faithful fun faithful => .read (.pure ⟨⟨rfl, faithful⟩, rfl⟩)

end Entry

end KeyTree.Keyring
