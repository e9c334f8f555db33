import KeyTree.Proofs.Curve.Standard
import KeyTree.Proofs.Key.Valid

/-!
# Reachable keys are valid

A key is reachable if some sequence of operations made it, each with arguments of its own and under
a keyed hash of its own.  On a reachable key no operation fails for want of a valid key.
-/

namespace KeyTree.Key

open KeyTree.Derivation

variable {group : CurveGroup} {state : Type}

/-- The keys that operations make, one after the other; a copy is the key itself. -/
inductive Reachable : Key group → Prop where
  | ofSeed {state : Type} (hash : KeyedHash state) (seed : List UInt8) {memory after : state}
      {key : Key group} (made : (ofSeed hash seed).runFrom memory = (.ok key, after)) :
      Reachable key
  | ofPrivate (position : Position) (bytes : List UInt8) {key : Key group}
      (made : ofPrivate position bytes = .ok key) : Reachable key
  | ofPublic (position : Position) (bytes : List UInt8) {key : Key group}
      (made : ofPublic position bytes = .ok key) : Reachable key
  | ofExtendedPrivate (text : String) {key : Key group}
      (made : ofExtendedPrivate group text = .ok key) : Reachable key
  | ofExtendedPublic (text : String) {key : Key group}
      (made : ofExtendedPublic group text = .ok key) : Reachable key
  | privateChild {state : Type} (hash : KeyedHash state) (index : ChildIndex)
      {memory after : state} {key child : Key group} (reachable : Reachable key)
      (made : (key.privateChild hash index).runFrom memory = (.ok child, after)) :
      Reachable child
  | publicChild {state : Type} (hash : KeyedHash state) (index : ChildIndex)
      {memory after : state} {key : Key group} {child : PublicChild group}
      (reachable : Reachable key)
      (made : (key.publicChild hash index).runFrom memory = (.ok child, after)) :
      Reachable child.key
  | derivePrivate {state : Type} (hash : KeyedHash state) (path : Path) {memory after : state}
      {key child : Key group} (reachable : Reachable key)
      (made : (key.derivePrivate hash path).runFrom memory = (.ok child, after)) :
      Reachable child
  | derivePublic {state : Type} (hash : KeyedHash state) (path : Path) {memory after : state}
      {key : Key group} {child : PublicChild group} (reachable : Reachable key)
      (made : (key.derivePublic hash path).runFrom memory = (.ok child, after)) :
      Reachable child.key
  | neuter {key watched : Key group} (reachable : Reachable key)
      (made : key.neuter = .ok watched) : Reachable watched

/-- No sequence of operations makes a key that is not valid. -/
theorem Reachable.valid (lawful : group.Lawful) {key : Key group} (reachable : key.Reachable) :
    key.Valid := by
  induction reachable with
  | ofSeed hash seed made => exact (ensures_ofSeed hash seed).of_ok made
  | ofPrivate position bytes made => exact valid_of_privateKey made
  | ofPublic position bytes made => exact valid_of_publicKey lawful made
  | ofExtendedPrivate text made => exact valid_of_extendedPrivate made
  | ofExtendedPublic text made => exact valid_of_extendedPublic lawful made
  | privateChild hash index _ made ih => exact (ensures_privateChild hash ih index).of_ok made
  | publicChild hash index _ made ih =>
      obtain ⟨point, has⟩ := ih.hasPoint lawful
      exact ((ensures_publicChild lawful hash has index).of_ok made).valid lawful
  | derivePrivate hash path _ made ih => exact (ensures_derivePrivate hash ih path).of_ok made
  | derivePublic hash path _ made ih =>
      obtain ⟨point, has⟩ := ih.hasPoint lawful
      exact ((ensures_derivePublic lawful hash has path).of_ok made).valid lawful
  | neuter _ made ih => exact valid_of_neuter lawful ih made

/--
Every reachable key is valid and knows its public key.  Its derivations give valid keys and fail
only for causes that do not lie in the validity of the key; the offsets along a path always have a
sum.
-/
theorem valid_of_reachable {curve : Curve} {key : Key curve.group} (reachable : key.Reachable) :
    key.Valid ∧ (∃ slot, key.publicKey = .ok slot) ∧
      ∀ {state : Type} (hash : KeyedHash state),
        (∀ index, (key.privateChild hash index).Ensures Valid (· = key.privateFailure index)) ∧
        (∀ index, (key.publicChild hash index).Ensures (fun child => child.key.Valid)
          (· = key.publicFailure index)) ∧
        (∀ path, (key.derivePrivate hash path).Ensures Valid (PrivatePathFailure path)) ∧
        (∀ path, (key.derivePublic hash path).Ensures (fun child => child.key.Valid)
          (PublicPathFailure path)) ∧
        ∀ path memory after child,
          (key.derivePublic hash path).runFrom memory = (.ok child, after) →
            ∀ index between last next,
              (child.key.publicChild hash index).runFrom between = (.ok next, last) →
                ∃ total, curve.group.addOffsets child.offset next.offset = .ok total := by
  have lawful := curve.group_lawful
  have valid := reachable.valid lawful
  obtain ⟨point, has⟩ := valid.hasPoint lawful
  refine ⟨valid, ⟨_, has.1⟩, fun hash => ⟨?_, ?_, ?_, ?_, ?_⟩⟩
  · exact ensures_privateChild hash valid
  · intro index
    exact (ensures_publicChild lawful hash has index).imp fun _ lies => lies.valid lawful
  · exact ensures_derivePrivate hash valid
  · intro path
    exact (ensures_derivePublic lawful hash has path).imp fun _ lies => lies.valid lawful
  · intro path memory after child run index between last next nextRun
    obtain ⟨sum, sum_eq, -, child_has⟩ := (ensures_derivePublic lawful hash has path).of_ok run
    obtain ⟨tweak, tweak_eq, -, -⟩ :=
      (ensures_publicChild lawful hash child_has index).of_ok nextRun
    rw [sum_eq, tweak_eq, addOffsets_scalarToBytes]
    exact ⟨_, rfl⟩

/-- The key of secp256k1 that has one as its private key and the base point as its public key. -/
def generatorKey : Key Curve.secp256k1.group :=
  { Position.master (Bytes.zero 32) with
    material := .privateKey ⟨Curve.secp256k1.group.byteOrder.write 32 1⟩ }

theorem reachable_generatorKey : generatorKey.Reachable :=
  .ofPrivate (Position.master (Bytes.zero 32)) (List.replicate 31 0 ++ [1]) rfl

/-- A grandchild of that key is derived, the first of whose candidates is refused. -/
theorem isOk_derivePrivate_generatorKey :
    ((generatorKey.derivePrivate refusedOnce ⟨[0, 7]⟩).runFrom 0).1.isOk = true := by
  decide +kernel

theorem valid_generatorKey :
    generatorKey.Reachable ∧ generatorKey.Valid ∧ ∃ slot, generatorKey.publicKey = .ok slot := by
  obtain ⟨valid, known, -⟩ := valid_of_reachable reachable_generatorKey
  exact ⟨reachable_generatorKey, valid, known⟩

end KeyTree.Key
