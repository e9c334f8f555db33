import KeyTree.Proofs.Keyring.Bare

/-!
# Keyrings that grow

The requests to a keyring add entries to it, and make it remember the public keys of those that it
has.  Neither of the two changes the keys that are in it.
-/

namespace KeyTree.Keyring

/-- The key of an entry. -/
def AnyEntry.anyKey (any : AnyEntry) : AnyKey := ⟨any.curve, any.entry.key⟩

/-- The keys of a keyring, without what it remembers of them. -/
def forget (keyring : Keyring) : Bare := keyring.entries.map (Option.map AnyEntry.anyKey)

/-- All that a keyring remembers is true. -/
def Faithful (keyring : Keyring) : Prop :=
  ∀ any : AnyEntry, some any ∈ keyring.entries → any.entry.Faithful

/-- A later state of an entry on any of the curves. -/
inductive AnyEntry.Grows : AnyEntry → AnyEntry → Prop where
  | of {curve : Curve} {entry later : Entry curve.group} (grows : entry.Grows later) :
      Grows ⟨curve, entry⟩ ⟨curve, later⟩

/-- Every entry of a keyring is still in its place, and at most came to remember its public key. -/
def Grows (keyring later : Keyring) : Prop :=
  ∀ number any, keyring.entryAt? number = some any →
    ∃ grown, later.entryAt? number = some grown ∧ any.Grows grown

section Entries

variable {keyring later last : Keyring} {number : Nat} {any : AnyEntry} {made? : Option AnyEntry}

theorem getElem?_of_entryAt? (found : keyring.entryAt? number = some any) :
    keyring.entries[number]? = some (some any) :=
  Option.join_eq_some_iff.mp found

theorem Faithful.entry (faithful : keyring.Faithful) {curve : Curve} {entry : Entry curve.group}
    (found : keyring.entryAt? number = some ⟨curve, entry⟩) : entry.Faithful :=
  faithful ⟨curve, entry⟩ (List.mem_of_getElem? (getElem?_of_entryAt? found))

theorem faithful_empty : empty.Faithful := fun _ member => absurd member List.not_mem_nil

theorem Faithful.push (faithful : keyring.Faithful)
    (made_faithful : ∀ any ∈ made?, any.entry.Faithful) : (keyring.push made?).Faithful := by
  intro any member
  rcases List.mem_append.mp member with earlier | made
  · exact faithful any earlier
  · exact made_faithful any (List.mem_singleton.mp made).symm

theorem Faithful.setEntry (faithful : keyring.Faithful) (any_faithful : any.entry.Faithful) :
    (keyring.setEntry number any).Faithful := by
  intro other member
  rcases List.mem_or_eq_of_mem_set member with earlier | same
  · exact faithful other earlier
  · cases same
    exact any_faithful

theorem AnyEntry.Grows.refl (any : AnyEntry) : any.Grows any := .of (.refl any.entry)

theorem AnyEntry.Grows.trans {middle grown : AnyEntry} (first : any.Grows middle)
    (second : middle.Grows grown) : any.Grows grown := by
  cases first with
  | of firstGrows =>
      cases second with
      | of secondGrows => exact .of (firstGrows.trans secondGrows)

theorem Grows.refl (keyring : Keyring) : keyring.Grows keyring :=
  fun _ any found => ⟨any, found, .refl any⟩

theorem Grows.trans (first : keyring.Grows later) (second : later.Grows last) :
    keyring.Grows last := by
  intro number any found
  obtain ⟨middle, middleFound, firstGrows⟩ := first number any found
  obtain ⟨grown, grownFound, secondGrows⟩ := second number middle middleFound
  exact ⟨grown, grownFound, firstGrows.trans secondGrows⟩

theorem entryAt?_push (found : keyring.entryAt? number = some any) :
    (keyring.push made?).entryAt? number = some any := by
  have stored := getElem?_of_entryAt? found
  obtain ⟨inside, -⟩ := List.getElem?_eq_some_iff.mp stored
  rw [entryAt?, push, List.getElem?_append_left inside, stored]
  rfl

theorem entryAt?_setEntry_self (found : keyring.entryAt? number = some any) (new : AnyEntry) :
    (keyring.setEntry number new).entryAt? number = some new := by
  obtain ⟨inside, -⟩ := List.getElem?_eq_some_iff.mp (getElem?_of_entryAt? found)
  rw [entryAt?, setEntry, List.getElem?_set_self inside]
  rfl

theorem entryAt?_setEntry_of_ne {elsewhere : Nat} (ne : number ≠ elsewhere) (new : AnyEntry) :
    (keyring.setEntry number new).entryAt? elsewhere = keyring.entryAt? elsewhere := by
  rw [entryAt?, setEntry, List.getElem?_set_ne ne, entryAt?]

theorem setEntry_self (found : keyring.entryAt? number = some any) :
    keyring.setEntry number any = keyring := by
  obtain ⟨inside, stored⟩ := List.getElem?_eq_some_iff.mp (getElem?_of_entryAt? found)
  rw [setEntry, ← stored, List.set_getElem_self]

theorem Grows.push (grows : keyring.Grows later) (made? : Option AnyEntry) :
    keyring.Grows (later.push made?) := by
  intro number any found
  obtain ⟨grown, grownFound, anyGrows⟩ := grows number any found
  exact ⟨grown, entryAt?_push grownFound, anyGrows⟩

theorem grows_setEntry (found : keyring.entryAt? number = some any) {grown : AnyEntry}
    (grows : any.Grows grown) : keyring.Grows (keyring.setEntry number grown) := by
  intro elsewhere other otherFound
  by_cases same : number = elsewhere
  · subst same
    obtain rfl : any = other := Option.some.inj (found.symm.trans otherFound)
    exact ⟨grown, entryAt?_setEntry_self found grown, grows⟩
  · exact ⟨other, (entryAt?_setEntry_of_ne same grown).trans otherFound, .refl other⟩

theorem forget_push (keyring : Keyring) (made? : Option AnyEntry) :
    (keyring.push made?).forget = keyring.forget ++ [made?.map AnyEntry.anyKey] := by
  simp [forget, push]

theorem key?_forget (keyring : Keyring) (number : Nat) :
    keyring.forget.key? number = (keyring.entryAt? number).map AnyEntry.anyKey := by
  rw [Bare.key?, forget, List.getElem?_map, entryAt?]
  rcases keyring.entries[number]? with - | any? <;> rfl

theorem AnyEntry.Grows.anyKey_eq {grown : AnyEntry} (grows : any.Grows grown) :
    grown.anyKey = any.anyKey := by
  cases grows with
  | of entryGrows => rw [anyKey, anyKey, entryGrows.key_eq]

theorem forget_setEntry (found : keyring.entryAt? number = some any) {grown : AnyEntry}
    (grows : any.Grows grown) : (keyring.setEntry number grown).forget = keyring.forget := by
  obtain ⟨inside, stored⟩ := List.getElem?_eq_some_iff.mp (getElem?_of_entryAt? found)
  have mapped : number < keyring.forget.length := by rwa [forget, List.length_map]
  have kept : keyring.forget[number] = some grown.anyKey := by
    simp only [forget, List.getElem_map, stored, Option.map_some, grows.anyKey_eq]
  rw [forget, setEntry, List.map_set, Option.map_some, ← kept, ← forget, List.set_getElem_self]

end Entries

end KeyTree.Keyring
