import KeyTree.Proofs.Key.Commutation
import KeyTree.Proofs.Key.Extended
import Mathlib.Logic.Relation

/-!
# Keys without a private key

A key that has no private key never comes to one, whatever operations follow each other: nothing
private is derived from it or written of it, and what is derived publicly has an index that is not
hardened.  A hardened index is refused before anything else of a public derivation, on every key.
-/

namespace KeyTree

namespace Key

open KeyTree.Derivation ChildIndex

variable {group : CurveGroup} {curve : Curve} {state : Type}

/-! ## What public derivations give -/

/-- A key without a private key whose index is not hardened and not before another. -/
def IsPublicFrom (index : ChildIndex) (key : Key group) : Prop :=
  key.private? = none ∧ isHardened key.childIndex = false ∧ index ≤ key.childIndex

theorem isPublicFrom_of_publicChild {hash : KeyedHash state} {index : ChildIndex}
    {key : Key curve.group} {child : PublicChild curve.group} {memory after : state}
    (run : (key.publicChild hash index).runFrom memory = (.ok child, after)) :
    child.key.IsPublicFrom index := by
  rw [publicChild] at run
  obtain ⟨depth, _, -, run⟩ := ok_of_runFrom_bind run
  obtain ⟨slot, _, -, run⟩ := ok_of_runFrom_bind run
  obtain ⟨step, _, stepped, done⟩ := ok_of_runFrom_bind run
  rw [runFrom_pure] at done
  cases done
  exact ⟨rfl, index_of_publicStep curve.group_lawful stepped⟩

theorem isPublicFrom_of_extend {hash : KeyedHash state} {index : ChildIndex}
    {parent child : PublicChild curve.group} {memory after : state}
    (run : (extend hash parent index).runFrom memory = (.ok child, after)) :
    child.key.IsPublicFrom index := by
  obtain ⟨step, _, stepped, run⟩ := ok_of_runFrom_bind run
  obtain ⟨offset, _, -, done⟩ := ok_of_runFrom_bind run
  rw [runFrom_pure] at done
  have public_from := isPublicFrom_of_publicChild stepped
  cases done
  exact public_from

theorem private?_of_neuter {key watched : Key group} (made : key.neuter = .ok watched) :
    watched.private? = none := by
  obtain ⟨slot, -, rfl⟩ := ok_of_map made
  rfl

/-- The last step of a path alone decides what kind of key comes out. -/
theorem isPublicFrom_of_derivePublic {hash : KeyedHash state} {path : Path} {key : Key curve.group}
    {child : PublicChild curve.group} {memory after : state}
    (run : (key.derivePublic hash path).runFrom memory = (.ok child, after)) :
    child.key.private? = none ∧ ∀ last ∈ path.indices.getLast?, child.key.IsPublicFrom last := by
  rw [derivePublic] at run
  obtain ⟨_, _, -, run⟩ := ok_of_runFrom_bind run
  obtain ⟨watched, between, dropped, run⟩ := ok_of_runFrom_bind run
  rw [derivePublicFrom] at run
  rcases List.eq_nil_or_concat path.indices with indices_eq | ⟨before, last, indices_eq⟩
  · rw [indices_eq, List.foldlM_nil, runFrom_pure] at run
    rw [runFrom_lift] at dropped
    cases run
    exact ⟨private?_of_neuter (congrArg Prod.fst dropped), by simp [indices_eq]⟩
  · rw [indices_eq, List.concat_eq_append] at run
    obtain ⟨parent, _, -, stepped⟩ := ok_of_runFrom_foldlM_concat run
    have public_from := isPublicFrom_of_extend stepped
    refine ⟨public_from.1, fun asked member => ?_⟩
    obtain rfl : last = asked := by simpa [indices_eq] using member
    exact public_from

/-! ## What operations make of a key -/

/-- One operation makes a key out of another; a copy is the key itself. -/
inductive Makes : Key group → Key group → Prop where
  | privateChild {state : Type} (hash : KeyedHash state) (index : ChildIndex)
      {memory after : state} {key child : Key group}
      (made : (key.privateChild hash index).runFrom memory = (.ok child, after)) : Makes key child
  | publicChild {state : Type} (hash : KeyedHash state) (index : ChildIndex)
      {memory after : state} {key : Key group} {child : PublicChild group}
      (made : (key.publicChild hash index).runFrom memory = (.ok child, after)) :
      Makes key child.key
  | derivePrivate {state : Type} (hash : KeyedHash state) (path : Path) {memory after : state}
      {key child : Key group}
      (made : (key.derivePrivate hash path).runFrom memory = (.ok child, after)) :
      Makes key child
  | derivePublic {state : Type} (hash : KeyedHash state) (path : Path) {memory after : state}
      {key : Key group} {child : PublicChild group}
      (made : (key.derivePublic hash path).runFrom memory = (.ok child, after)) :
      Makes key child.key
  | neuter {key watched : Key group} (made : key.neuter = .ok watched) : Makes key watched
  | copy (key : Key group) : Makes key key

/-- The ways in which a key without a private key comes about. -/
inductive WatchOnly : Key group → Prop where
  | ofPublic (position : Position) (bytes : List UInt8) {key : Key group}
      (made : ofPublic position bytes = .ok key) : WatchOnly key
  | ofExtendedPublic (text : String) {key : Key group}
      (made : ofExtendedPublic group text = .ok key) : WatchOnly key
  | neuter {key watched : Key group} (made : key.neuter = .ok watched) : WatchOnly watched
  | publicChild {state : Type} (hash : KeyedHash state) (index : ChildIndex)
      {memory after : state} {key : Key group} {child : PublicChild group}
      (made : (key.publicChild hash index).runFrom memory = (.ok child, after)) :
      WatchOnly child.key
  | derivePublic {state : Type} (hash : KeyedHash state) (path : Path) {memory after : state}
      {key : Key group} {child : PublicChild group}
      (made : (key.derivePublic hash path).runFrom memory = (.ok child, after)) :
      WatchOnly child.key

theorem derivePrivate_of_watched {path : Path} (path_ne : path.indices ≠ []) {key : Key group}
    (watched : key.private? = none) (hash : KeyedHash state) (memory : state) :
    (key.derivePrivate hash path).runFrom memory = (.error .missingPrivateKey, memory) := by
  obtain ⟨index, indices, indices_eq⟩ := List.exists_cons_of_ne_nil path_ne
  rw [derivePrivate, indices_eq, List.foldlM_cons, privateChild_of_public watched, runFrom_bind]
  rfl

theorem WatchOnly.private?_eq {key : Key curve.group} (watchOnly : key.WatchOnly) :
    key.private? = none := by
  cases watchOnly with
  | ofPublic position bytes made =>
      obtain ⟨slot, -, made⟩ := ok_of_bind made
      cases made
      rfl
  | ofExtendedPublic text made =>
      obtain ⟨record, point, -, -, -, rfl⟩ := ofExtendedPublic_eq_ok_iff.mp made
      rfl
  | neuter made => exact private?_of_neuter made
  | publicChild hash index made => exact (isPublicFrom_of_publicChild made).1
  | derivePublic hash path made => exact (isPublicFrom_of_derivePublic made).1

/-- No operation gives a private key to what it makes of a key without one. -/
theorem Makes.private?_eq {key child : Key curve.group} (makes : Makes key child)
    (watched : key.private? = none) : child.private? = none := by
  cases makes with
  | privateChild hash index made =>
      rw [privateChild_of_public watched] at made
      cases made
  | publicChild hash index made => exact (isPublicFrom_of_publicChild made).1
  | derivePrivate hash path made =>
      by_cases path_eq : path.indices = []
      · rw [Key.derivePrivate, path_eq] at made
        cases made
        exact watched
      · rw [derivePrivate_of_watched path_eq watched] at made
        cases made
  | derivePublic hash path made => exact (isPublicFrom_of_derivePublic made).1
  | neuter made => exact private?_of_neuter made
  | copy => exact watched

theorem private?_of_makes {key descendant : Key curve.group}
    (makes : Relation.ReflTransGen Makes key descendant) (watched : key.private? = none) :
    descendant.private? = none := by
  induction makes with
  | refl => exact watched
  | tail _ makes ih => exact makes.private?_eq ih

/-! ## What a key without a private key never does -/

/-- A key without a private key writes and derives nothing private, and nothing hardened. -/
structure Powerless (key : Key group) : Prop where
  private?_eq : key.private? = none
  extendedPrivate_eq : key.extendedPrivate = .error .missingPrivateKey
  privateChild_eq : ∀ {state : Type} (hash : KeyedHash state) index memory,
    (key.privateChild hash index).runFrom memory = (.error .missingPrivateKey, memory)
  derivePrivate_eq : ∀ {state : Type} (hash : KeyedHash state) path memory,
    path.indices ≠ [] →
      (key.derivePrivate hash path).runFrom memory = (.error .missingPrivateKey, memory)
  publicChild_ok : ∀ {state : Type} (hash : KeyedHash state) index memory child after,
    (key.publicChild hash index).runFrom memory = (.ok child, after) →
      isHardened child.key.childIndex = false ∧ index ≤ child.key.childIndex
  derivePublic_ok : ∀ {state : Type} (hash : KeyedHash state) path last memory child after,
    path.indices.getLast? = some last →
      (key.derivePublic hash path).runFrom memory = (.ok child, after) →
        isHardened child.key.childIndex = false ∧ last ≤ child.key.childIndex

theorem powerless_of_private? {key : Key curve.group} (watched : key.private? = none) :
    key.Powerless where
  private?_eq := watched
  extendedPrivate_eq := extendedPrivate_of_public watched
  privateChild_eq hash index memory := by
    rw [privateChild_of_public watched]
    rfl
  derivePrivate_eq hash path memory path_ne := derivePrivate_of_watched path_ne watched hash memory
  publicChild_ok hash index memory child after run := (isPublicFrom_of_publicChild run).2
  derivePublic_ok hash path last memory child after last_eq run :=
    ((isPublicFrom_of_derivePublic run).2 last last_eq).2

/--
All that operations make of a key without a private key is without power over private keys.  Every
key refuses a public derivation with a hardened index, naming the first of them, before its first
step.
-/
theorem powerless_of_watchOnly {curve : Curve} (key : Key curve.group) :
    (key.WatchOnly → key.private? = none) ∧
      (key.private? = none → ∀ descendant, Relation.ReflTransGen Makes key descendant →
        descendant.Powerless) ∧
      ∀ {state : Type} (hash : KeyedHash state) (memory : state),
        (∀ index, isHardened index = true →
          (key.publicChild hash index).runFrom memory =
            (.error (.hardenedFromPublic index), memory)) ∧
        ∀ path : Path, path.isHardenedFree = false → ∃ before index after,
          path.indices = before ++ index :: after ∧
            (∀ earlier ∈ before, isHardened earlier = false) ∧ isHardened index = true ∧
              (key.derivePublic hash path).runFrom memory =
                (.error (.hardenedFromPublic index), memory) := by
  refine ⟨WatchOnly.private?_eq, fun watched descendant makes => ?_, fun hash memory => ⟨?_, ?_⟩⟩
  · exact powerless_of_private? (private?_of_makes makes watched)
  · intro index hardened
    rw [publicChild_of_hardened hardened]
    rfl
  · intro path not_free
    rcases first : path.firstHardened? with - | index
    · rw [isHardenedFree_iff.mpr first] at not_free
      cases not_free
    · obtain ⟨hardened, before, after, indices_eq, normal⟩ := List.find?_eq_some_iff_append.mp first
      refine ⟨before, index, after, indices_eq, by simpa using normal, hardened, ?_⟩
      rw [derivePublic_of_hardened first]
      rfl

/-- That key without its private key, and a grandchild whose first candidate is refused. -/
theorem powerless_of_watchOnly_generatorKey :
    ∃ watched child after, generatorKey.neuter = .ok watched ∧ watched.WatchOnly ∧
      (watched.derivePublic refusedOnce ⟨[0, 7]⟩).runFrom 0 = (.ok child, after) ∧
        child.key.Powerless := by
  have lawful := Curve.secp256k1.group_lawful
  have succeeds := isOk_derivePrivate_generatorKey
  obtain ⟨scalar, holds⟩ := (reachable_generatorKey.valid lawful).holdsScalar rfl
  have dropped := neuter_of_publicKey holds.publicKey_eq
  have lockstep := lockstep_derive lawful refusedOnce holds
    (by decide : (⟨[0, 7]⟩ : Path).firstHardened? = none)
  rcases lockstep.both 0 with ⟨error, after, failed, -⟩ | ⟨-, child, after, -, run, -⟩
  · rw [failed] at succeeds
    contradiction
  · rw [← derivePublic_withSlot holds.publicKey_eq] at run
    obtain ⟨powerless_start, powerless, -⟩ :=
      powerless_of_watchOnly (generatorKey.withSlot (Curve.secp256k1.group.encode
        (Curve.secp256k1.group.timesBase scalar)))
    exact ⟨_, child, after, dropped, .neuter dropped, run,
      powerless (powerless_start (.neuter dropped)) _ (.single (.derivePublic _ _ run))⟩

end Key

end KeyTree
