import KeyTree.Keyring.Entry
import KeyTree.Proofs.Derivation.Run

/-!
# Operations on entries follow operations on their keys

An entry is faithful if the public key that it remembers is that of its key.  From a faithful entry
an operation comes to the same as its counterpart on the key, asks the keyed hash the same, and at
most makes the entry remember its public key.  `Follows` says this of one operation and passes
through binds and folds.
-/

namespace KeyTree.Keyring

open KeyTree.Derivation

variable {group : CurveGroup} {state result next other otherNext item : Type}

/-- The outcome of an operation on an entry, the entry after it, and the state of the keyed hash. -/
def EntryM.runOn (operation : EntryM group state result) (entry : Entry group) (memory : state) :
    (Except Error result × Entry group) × state :=
  operation entry memory

namespace EntryM

theorem runOn_bind (first : EntryM group state result)
    (continuation : result → EntryM group state next) (entry : Entry group) (memory : state) :
    (first >>= continuation).runOn entry memory =
      match first.runOn entry memory with
      | ((.ok value, later), after) => (continuation value).runOn later after
      | ((.error error, later), after) => ((.error error, later), after) := by
  simp only [runOn, bind, ExceptT.bind, ExceptT.mk, StateT.bind, ExceptT.bindCont]
  rcases first entry memory with ⟨⟨outcome, later⟩, after⟩
  cases outcome <;> rfl

end EntryM

namespace Entry

open EntryM

/-! ## Faithful entries -/

/-- What is remembered of a private key is the slot worked out from it; a public key is known. -/
def Faithful (entry : Entry group) : Prop :=
  match entry.key.material with
  | .privateKey secret => ∀ slot ∈ entry.known, group.slotOfPrivate secret = .ok slot
  | .publicKey slot => entry.known = some slot

/-- A later state of an entry has the same key, and may remember its public key in addition. -/
structure Grows (entry later : Entry group) : Prop where
  key_eq : later.key = entry.key
  known_eq : later.known = entry.known ∨
    entry.known = none ∧ ∃ slot, later.known = some slot ∧ entry.key.publicKey = .ok slot

/-- An entry for a key, remembering what is true of it. -/
structure Represents (entry : Entry group) (key : Key group) : Prop where
  key_eq : entry.key = key
  faithful : entry.Faithful

/-- An entry and an offset for a public child. -/
structure RepresentsChild (made : Entry group × Bytes 32) (child : Key.PublicChild group) :
    Prop where
  represents : made.1.Represents child.key
  offset_eq : made.2 = child.offset

variable {entry later last : Entry group}

theorem Faithful.publicKey_eq (faithful : entry.Faithful) {slot : KeySlot}
    (known : entry.known = some slot) : entry.key.publicKey = .ok slot := by
  rcases stored : entry.key.material with secret | storedSlot
  · simp only [Faithful, stored] at faithful
    simp only [Key.publicKey, stored]
    exact faithful slot known
  · simp only [Faithful, stored, known, Option.some.injEq] at faithful
    simp only [Key.publicKey, stored, faithful]

theorem represents_ofKey (key : Key group) : (ofKey key).Represents key := by
  refine ⟨rfl, ?_⟩
  rcases stored : key.material with secret | slot
  · simp only [Faithful, ofKey, Key.storedSlot?, stored]
    exact fun _ absent => nomatch absent
  · simp only [Faithful, ofKey, Key.storedSlot?, stored]

theorem Grows.refl (entry : Entry group) : entry.Grows entry := ⟨rfl, .inl rfl⟩

theorem Grows.trans (first : entry.Grows later) (second : later.Grows last) :
    entry.Grows last := by
  refine ⟨second.key_eq.trans first.key_eq, ?_⟩
  rcases second.known_eq with same | ⟨unknown, slot, known, public_eq⟩
  · rw [same]
    exact first.known_eq
  · rw [first.key_eq] at public_eq
    rcases first.known_eq with same | ⟨-, earlier, earlier_known, -⟩
    · exact .inr ⟨same.symm.trans unknown, slot, known, public_eq⟩
    · rw [unknown] at earlier_known
      cases earlier_known

theorem Grows.faithful (grows : entry.Grows later) (faithful : entry.Faithful) :
    later.Faithful := by
  obtain ⟨key, known⟩ := later
  obtain ⟨rfl, known_eq⟩ := grows
  rcases known_eq with rfl | ⟨unknown, slot, rfl, public_eq⟩
  · exact faithful
  · rcases stored : entry.key.material with secret | storedSlot
    · simp only [Key.publicKey, stored] at public_eq
      simpa only [Faithful, stored, Option.mem_some_iff, forall_eq'] using public_eq
    · -- A public key is known already.
      simp only [Faithful, stored, unknown, reduceCtorEq] at faithful

/-! ## Following a derivation -/

/--
From an entry, if it is faithful, an operation and a derivation reach agreeing outcomes and the same
state of the keyed hash, and the entry at most comes to remember its public key.
-/
def Follows (related : result → other → Prop) (entry : Entry group)
    (operation : EntryM group state result) (work : Derivation state other) : Prop :=
  entry.Faithful → ∀ memory,
    Agree related (operation.runOn entry memory).1.1 (work.runFrom memory).1 ∧
      (operation.runOn entry memory).2 = (work.runFrom memory).2 ∧
        entry.Grows (operation.runOn entry memory).1.2

section Follows

variable {related : result → other → Prop} {relatedNext : next → otherNext → Prop}

theorem Follows.pure {value : result} {counterpart : other} (pair : related value counterpart) :
    Follows related entry (Pure.pure value : EntryM group state result)
      (Pure.pure counterpart) :=
  fun _ _ => ⟨.ok pair, rfl, .refl entry⟩

theorem Follows.lift (outcome : Except Error result) :
    Follows Eq entry (liftM outcome : EntryM group state result) (liftM outcome) := by
  intro _ memory
  cases outcome with
  | ok value => exact ⟨.ok rfl, rfl, .refl entry⟩
  | error error => exact ⟨.error error, rfl, .refl entry⟩

theorem Follows.derivation (work : Derivation state result) :
    Follows Eq entry (Entry.derivation work : EntryM group state result) work :=
  fun _ memory => ⟨.refl (work memory).1, rfl, .refl entry⟩

theorem Follows.bind {first : EntryM group state result}
    {continuation : result → EntryM group state next} {work : Derivation state other}
    {workNext : other → Derivation state otherNext} (start : Follows related entry first work)
    (rest : ∀ value counterpart later, related value counterpart → later.key = entry.key →
      Follows relatedNext later (continuation value) (workNext counterpart)) :
    Follows relatedNext entry (first >>= continuation) (work >>= workNext) := by
  intro faithful memory
  obtain ⟨agree, same, grows⟩ := start faithful memory
  rw [runOn_bind, runFrom_bind]
  rcases firstRun : first.runOn entry memory with ⟨⟨outcome, later⟩, after⟩
  rcases workRun : work.runFrom memory with ⟨otherOutcome, otherAfter⟩
  rw [firstRun, workRun] at agree same
  rw [firstRun] at grows
  obtain rfl : after = otherAfter := same
  cases agree with
  | ok pair =>
      obtain ⟨agreeNext, sameNext, growsNext⟩ :=
        rest _ _ later pair grows.key_eq (grows.faithful faithful) after
      exact ⟨agreeNext, sameNext, grows.trans growsNext⟩
  | error error => exact ⟨.error error, rfl, grows⟩

theorem Follows.map {changed : next → other → Prop} {operation : EntryM group state result}
    {work : Derivation state other} (start : Follows related entry operation work)
    (change : result → next)
    (changes : ∀ value counterpart, related value counterpart →
      changed (change value) counterpart) :
    Follows changed entry (operation >>= fun value => Pure.pure (change value)) work := by
  have bound : Follows changed entry (operation >>= fun value => Pure.pure (change value))
      (work >>= Pure.pure) :=
    start.bind fun value counterpart _ pair _ => .pure (changes value counterpart pair)
  rwa [bind_pure] at bound

theorem Follows.mapOutcome {operation : EntryM group state result}
    {outcome : Except Error result} (follows : Follows Eq entry operation (liftM outcome))
    (change : result → next) :
    Follows Eq entry (operation >>= fun value => Pure.pure (change value))
      (liftM (outcome >>= fun value => Pure.pure (change value))) := by
  rw [lift_bind]
  refine follows.bind fun value counterpart _ same _ => ?_
  exact .pure (congrArg change same)

theorem Follows.imp {weaker : result → other → Prop} {operation : EntryM group state result}
    {work : Derivation state other} (follows : Follows related entry operation work)
    (implied : ∀ value counterpart, related value counterpart → weaker value counterpart) :
    Follows weaker entry operation work := by
  intro faithful memory
  obtain ⟨agree, same, grows⟩ := follows faithful memory
  exact ⟨agree.imp implied, same, grows⟩

/-- Looking at the entry is to look at its key. -/
theorem Follows.read {continuation : Entry group → EntryM group state result}
    {work : Derivation state other} (each : Follows related entry (continuation entry) work) :
    Follows related entry (get >>= continuation) work :=
  each

/-- An operation has to follow only from a faithful entry. -/
theorem Follows.of_faithful {operation : EntryM group state result} {work : Derivation state other}
    (follows : entry.Faithful → Follows related entry operation work) :
    Follows related entry operation work :=
  fun faithful => follows faithful faithful

/-- What is done to another entry leaves this one alone. -/
theorem Follows.on {operation : EntryM group state result} {work : Derivation state other}
    (follows : Follows related entry operation work) (faithful : entry.Faithful)
    (receiver : Entry group) : Follows related receiver (entry.on operation) work := by
  intro _ memory
  obtain ⟨agree, same, -⟩ := follows faithful memory
  exact ⟨agree, same, .refl receiver⟩

theorem Follows.foldlM {step : result → item → EntryM group state result}
    {workStep : other → item → Derivation state other} {items : List item} {start : result}
    {otherStart : other} (starts : related start otherStart)
    (steps : ∀ value counterpart later, related value counterpart → ∀ element ∈ items,
      Follows related later (step value element) (workStep counterpart element)) :
    Follows related entry (items.foldlM step start) (items.foldlM workStep otherStart) := by
  induction items generalizing start otherStart entry with
  | nil => exact .pure starts
  | cons element items ih =>
      rw [List.foldlM_cons, List.foldlM_cons]
      refine .bind (steps start otherStart entry starts element List.mem_cons_self) ?_
      intro value counterpart later pair _
      exact ih pair fun value counterpart last pair other member =>
        steps value counterpart last pair other (List.mem_cons_of_mem element member)

end Follows

/-! ## Leaving an entry alone -/

/-- An operation leaves every entry as it was. -/
def Leaves (operation : EntryM group state result) : Prop :=
  ∀ entry memory, (operation.runOn entry memory).1.2 = entry

theorem Leaves.pure (value : result) :
    Leaves (Pure.pure value : EntryM group state result) :=
  fun _ _ => rfl

theorem Leaves.lift (outcome : Except Error result) :
    Leaves (liftM outcome : EntryM group state result) :=
  fun _ _ => rfl

theorem Leaves.on (receiver : Entry group) (operation : EntryM group state result) :
    Leaves (receiver.on operation) :=
  fun _ _ => rfl

theorem Leaves.read {continuation : Entry group → EntryM group state result}
    (each : ∀ entry, Leaves (continuation entry)) : Leaves (get >>= continuation) :=
  fun entry => each entry entry

theorem Leaves.bind {first : EntryM group state result}
    {continuation : result → EntryM group state next} (start : Leaves first)
    (rest : ∀ value, Leaves (continuation value)) : Leaves (first >>= continuation) := by
  intro entry memory
  have unchanged := start entry memory
  rw [runOn_bind]
  rcases run : first.runOn entry memory with ⟨⟨outcome, later⟩, after⟩
  rw [run] at unchanged
  obtain rfl : later = entry := unchanged
  cases outcome with
  | ok value => exact rest value later after
  | error error => rfl

theorem Leaves.foldlM {step : result → item → EntryM group state result}
    (steps : ∀ value element, Leaves (step value element)) (items : List item) (start : result) :
    Leaves (items.foldlM step start) := by
  induction items generalizing start with
  | nil => exact .pure start
  | cons element items ih =>
      rw [List.foldlM_cons]
      exact (steps start element).bind ih

/-- A private derivation along a path works on a copy. -/
theorem leaves_derivePrivate (hash : KeyedHash state) (path : Path) :
    Leaves (derivePrivate hash path : EntryM group state (Entry group)) :=
  .read fun copy => .foldlM (fun entry index => .on entry (privateChild hash index)) _ copy

theorem leaves_extendedPrivate : Leaves (extendedPrivate : EntryM group state String) :=
  .read fun entry => .lift entry.key.extendedPrivate

/-! ## The operations on an entry -/

theorem follows_publicKey (entry : Entry group) :
    Follows Eq entry (publicKey : EntryM group state KeySlot) (liftM entry.key.publicKey) := by
  refine .read ?_
  rcases known : entry.known with - | slot
  · intro faithful memory
    rcases public_eq : entry.key.publicKey with error | slot
    · exact ⟨.error error, rfl, .refl entry⟩
    · exact ⟨.ok rfl, rfl, rfl, .inr ⟨known, slot, rfl, public_eq⟩⟩
  · intro faithful memory
    rw [faithful.publicKey_eq known]
    exact ⟨.ok rfl, rfl, .refl entry⟩

theorem follows_neuter (entry : Entry group) :
    Follows Represents entry (neuter : EntryM group state (Entry group))
      (liftM entry.key.neuter) := by
  rw [Key.neuter, lift_map]
  refine (follows_publicKey entry).bind ?_
  rintro slot _ later rfl key_eq
  refine .read ?_
  rw [key_eq]
  exact .pure (represents_ofKey _)

theorem follows_privateChild (hash : KeyedHash state) (index : ChildIndex)
    (entry : Entry group) :
    Follows Represents entry (privateChild hash index) (entry.key.privateChild hash index) := by
  refine .read (.bind (.lift entry.key.readyForPrivate) ?_)
  rintro ⟨secret, depth⟩ _ later rfl key_eq
  rw [← key_eq]
  refine (follows_publicKey later).bind ?_
  rintro slot _ last rfl -
  refine (Follows.derivation _).map ofKey ?_
  rintro child _ rfl
  exact represents_ofKey child

theorem follows_publicChild (hash : KeyedHash state) (index : ChildIndex)
    (entry : Entry group) :
    Follows RepresentsChild entry (publicChild hash index)
      (entry.key.publicChild hash index) := by
  refine .read (.bind (.lift (entry.key.readyForPublic index)) ?_)
  rintro depth _ later rfl key_eq
  rw [← key_eq]
  refine (follows_publicKey later).bind ?_
  rintro slot _ last rfl -
  refine (Follows.derivation _).map
    (fun child : Key.PublicChild group => (ofKey child.key, child.offset)) ?_
  rintro child _ rfl
  exact ⟨represents_ofKey child.key, rfl⟩

theorem follows_derivePrivate (hash : KeyedHash state) (path : Path) (entry : Entry group) :
    Follows Represents entry (derivePrivate hash path) (entry.key.derivePrivate hash path) := by
  refine .of_faithful fun faithful => .read (.foldlM ⟨rfl, faithful⟩ ?_)
  rintro value _ later ⟨rfl, value_faithful⟩ index -
  exact (follows_privateChild hash index value).on value_faithful later

theorem follows_derivePublic (hash : KeyedHash state) (path : Path) (entry : Entry group) :
    Follows RepresentsChild entry (derivePublic hash path)
      (entry.key.derivePublic hash path) := by
  refine .bind (.lift (Key.requireHardenedFree path)) ?_
  rintro _ _ later - key_eq
  rw [← key_eq]
  refine (follows_neuter later).bind ?_
  rintro watched _ last ⟨rfl, -⟩ -
  refine (Follows.derivation _).map
    (fun child : Key.PublicChild group => (ofKey child.key, child.offset)) ?_
  rintro child _ rfl
  exact ⟨represents_ofKey child.key, rfl⟩

theorem follows_offset (offset : Bytes 32) (entry : Entry group) :
    Follows Eq entry (Entry.offset offset : EntryM group state KeySlot)
      (liftM (entry.key.offset offset)) := by
  rw [Key.offset, lift_bind]
  refine (follows_publicKey entry).bind ?_
  rintro slot _ later rfl -
  exact .lift _

theorem follows_identifier (entry : Entry group) :
    Follows Eq entry (identifier : EntryM group state (Bytes 20))
      (liftM entry.key.identifier) := by
  rw [Key.identifier, lift_map]
  refine (follows_publicKey entry).bind ?_
  rintro slot _ later rfl -
  exact .pure rfl

theorem follows_fingerprint (entry : Entry group) :
    Follows Eq entry (fingerprint : EntryM group state UInt32)
      (liftM entry.key.fingerprint) := by
  rw [Key.fingerprint, lift_map]
  refine (follows_publicKey entry).bind ?_
  rintro slot _ later rfl -
  exact .pure rfl

theorem follows_extendedPrivate (entry : Entry group) :
    Follows Eq entry (extendedPrivate : EntryM group state String)
      (liftM entry.key.extendedPrivate) :=
  .read (.lift _)

theorem follows_extendedPublic (entry : Entry group) :
    Follows Eq entry (extendedPublic : EntryM group state String)
      (liftM entry.key.extendedPublic) := by
  rw [Key.extendedPublic, lift_map]
  refine (follows_publicKey entry).bind ?_
  rintro slot _ later rfl key_eq
  refine .read ?_
  rw [key_eq]
  exact .pure rfl

end Entry

end KeyTree.Keyring
