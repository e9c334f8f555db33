import KeyTree.Proofs.Key.Reachable
import KeyTree.Proofs.Keyring.Growth

/-!
# What keyrings remember cannot be observed

A keyring that remembers public keys answers as the bare keyring of the same keys does, diagnostics
apart.  What it remembers is true, and once it remembers a public key it keeps it.
-/

namespace KeyTree.Keyring

open KeyTree.Derivation

variable {state result other next otherNext : Type}

/-! ## Computations that keep in step -/

/-- From every state of the keyed hash, two computations reach related results and one state. -/
def Tracks (related : result → other → Prop) (work : StateM state result)
    (counterpart : StateM state other) : Prop :=
  ∀ memory, related (work.run memory).1 (counterpart.run memory).1 ∧
    (work.run memory).2 = (counterpart.run memory).2

section Tracks

variable {related : result → other → Prop} {relatedNext : next → otherNext → Prop}

theorem run_bind_eq (work : StateM state result) (continuation : result → StateM state next)
    (memory : state) :
    (work >>= continuation).run memory =
      (continuation (work.run memory).1).run (work.run memory).2 := rfl

theorem Tracks.pure {value : result} {counterpart : other} (pair : related value counterpart) :
    Tracks related (Pure.pure value : StateM state result) (Pure.pure counterpart) :=
  fun _ => ⟨pair, rfl⟩

theorem Tracks.bind {work : StateM state result} {counterpart : StateM state other}
    {workNext : result → StateM state next} {counterpartNext : other → StateM state otherNext}
    (first : Tracks related work counterpart)
    (rest : ∀ value otherValue, related value otherValue →
      Tracks relatedNext (workNext value) (counterpartNext otherValue)) :
    Tracks relatedNext (work >>= workNext) (counterpart >>= counterpartNext) := by
  intro memory
  obtain ⟨pair, same⟩ := first memory
  rw [run_bind_eq, run_bind_eq, same]
  exact rest _ _ pair _

/-- Work whose counterpart takes no computation. -/
theorem Tracks.bind_pure {work : StateM state result} {counterpart : other}
    {workNext : result → StateM state next} {counterpartNext : StateM state otherNext}
    (first : Tracks related work (Pure.pure counterpart))
    (rest : ∀ value, related value counterpart →
      Tracks relatedNext (workNext value) counterpartNext) :
    Tracks relatedNext (work >>= workNext) counterpartNext := by
  intro memory
  obtain ⟨pair, same⟩ := first memory
  rw [run_bind_eq, same]
  exact rest _ pair _

end Tracks

/-! ## What comes of a keyring -/

/-- The answer with the text of a diagnostic left out. -/
def Answer.withoutDiagnostic : Answer → Answer
  | fact told => .fact told.withoutDiagnostic
  | answer => answer

/-- The result with the text of a diagnostic left out. -/
def Result.withoutDiagnostic : Result → Result
  | answer given => .answer given.withoutDiagnostic
  | result => result

/--
What work on a keyring comes to is what work on its keys alone comes to, in the view that `view`
gives of the results, and the keyring only grows.
-/
structure Reflects (view : result → result) (keyring : Keyring) (reached : result × Keyring)
    (bare : result × Bare) : Prop where
  view_eq : view reached.1 = view bare.1
  forget_eq : reached.2.forget = bare.2
  faithful : reached.2.Faithful
  grows : keyring.Grows reached.2

theorem Entry.Follows.tracks {group : CurveGroup} {entry : Entry group}
    {related : result → other → Prop} {operation : EntryM group state result}
    {work : Derivation state other} (follows : Follows related entry operation work)
    (faithful : entry.Faithful) :
    Tracks (fun reached outcome => Agree related reached.1 outcome ∧ entry.Grows reached.2)
      (operation entry) work := by
  intro memory
  obtain ⟨agree, same, grows⟩ := follows faithful memory
  exact ⟨⟨agree, grows⟩, same⟩

theorem tracks_ofOrigin (group : CurveGroup) (hash : KeyedHash state) (origin : Origin) :
    Tracks (Agree Entry.Represents) (Entry.ofOrigin group hash origin)
      (Bare.ofOrigin group hash origin) := by
  have made : Entry.ofOrigin group hash origin =
      Bare.ofOrigin group hash origin >>= fun key => pure (Entry.ofKey key) := by
    cases origin <;> rfl
  have lockstep : Lockstep Entry.Represents (Entry.ofOrigin group hash origin)
      (Bare.ofOrigin group hash origin >>= pure) := by
    rw [made]
    refine (Lockstep.refl _).bind fun key _ same => ?_
    subst same
    exact .pure (Entry.represents_ofKey key)
  rwa [bind_pure] at lockstep

theorem tracks_introduce {group : CurveGroup} {entry : Entry group} {key : Key group}
    (represents : entry.Represents key) (offset? : Option (Bytes 32)) (brief : Bool) :
    Tracks (fun reached answer => reached.1 = answer ∧ reached.2.Represents key)
      (introduce entry offset? brief : StateM state _)
      (pure (Bare.introduce key offset? brief)) := by
  obtain ⟨rfl, faithful⟩ := represents
  cases brief with
  | true => exact .pure ⟨rfl, rfl, faithful⟩
  | false =>
      refine ((Entry.follows_summary entry).tracks faithful).bind_pure ?_
      rintro ⟨outcome, later⟩ ⟨agree, grows⟩
      have represents : later.Represents entry.key := ⟨grows.key_eq, grows.faithful faithful⟩
      rw [Bare.introduce]
      generalize Bare.summary entry.key = bare at agree ⊢
      cases agree with
      | ok same =>
          subst same
          exact .pure ⟨rfl, represents⟩
      | error error => exact .pure ⟨rfl, represents⟩

variable {keyring : Keyring}

/-- A request that makes nothing adds an empty place. -/
theorem Reflects.pushNone {view : Answer → Answer} {later : Keyring} {answer bareAnswer : Answer}
    (same : view answer = view bareAnswer) (forget_eq : later.forget = keyring.forget)
    (faithful : later.Faithful) (grows : keyring.Grows later) :
    Reflects view keyring (answer, later.push none) (bareAnswer, keyring.forget ++ [none]) where
  view_eq := same
  forget_eq := by rw [forget_push, forget_eq, Option.map_none]
  faithful := faithful.push fun _ none => nomatch none
  grows := grows.push none

/-- A request that makes a key adds its entry. -/
theorem Reflects.pushEntry {view : Answer → Answer} {later : Keyring} {answer : Answer}
    {curve : Curve} {entry : Entry curve.group} {key : Key curve.group}
    (represents : entry.Represents key) (forget_eq : later.forget = keyring.forget)
    (faithful : later.Faithful) (grows : keyring.Grows later) :
    Reflects view keyring (answer, later.push (some ⟨curve, entry⟩))
      (answer, keyring.forget ++ [some ⟨curve, key⟩]) := by
  obtain ⟨rfl, entry_faithful⟩ := represents
  refine ⟨rfl, ?_, faithful.push ?_, grows.push _⟩
  · rw [forget_push, forget_eq, Option.map_some, AnyEntry.anyKey]
  · intro any member
    cases member
    exact entry_faithful

/-- After an operation on one of its entries, the keyring holds the same keys. -/
theorem kept_setEntry (faithful : keyring.Faithful) {number : Nat} {curve : Curve}
    {entry later : Entry curve.group} (found : keyring.entryAt? number = some ⟨curve, entry⟩)
    (grows : entry.Grows later) :
    (keyring.setEntry number ⟨curve, later⟩).forget = keyring.forget ∧
      (keyring.setEntry number ⟨curve, later⟩).Faithful ∧
        keyring.Grows (keyring.setEntry number ⟨curve, later⟩) :=
  ⟨forget_setEntry found (.of grows), faithful.setEntry (grows.faithful (faithful.entry found)),
    grows_setEntry found (.of grows)⟩

theorem tracks_respond (hash : KeyedHash state) (faithful : keyring.Faithful) (request : Request) :
    Tracks (Reflects Answer.withoutDiagnostic keyring) (keyring.respond hash request)
      (Bare.respond hash keyring.forget request) := by
  cases request with
  | make curve origin brief =>
      refine (tracks_ofOrigin curve.group hash origin).bind ?_
      intro outcome bareOutcome agree
      cases agree with
      | ok represents =>
          refine (tracks_introduce represents none brief).bind_pure ?_
          rintro ⟨answer, entry⟩ ⟨same, represents⟩
          subst same
          exact .pure (.pushEntry represents rfl faithful (.refl keyring))
      | error error => exact .pure (.pushNone rfl rfl faithful (.refl keyring))
  | derive number descent brief =>
      rcases found : keyring.entryAt? number with - | ⟨curve, parent⟩
      · rw [respond, found, Bare.respond, key?_forget, found]
        exact .pure (.pushNone rfl rfl faithful (.refl keyring))
      · rw [respond, found, Bare.respond, key?_forget, found]
        refine ((Entry.follows_descend hash descent parent).tracks (faithful.entry found)).bind ?_
        rintro ⟨outcome, later⟩ bareOutcome ⟨agree, grows⟩
        obtain ⟨forget_eq, later_faithful, keyring_grows⟩ := kept_setEntry faithful found grows
        cases agree with
        | @ok made bare agreed =>
            obtain ⟨child, offset?⟩ := made
            obtain ⟨key, bareOffset?⟩ := bare
            obtain ⟨represents, rfl⟩ : child.Represents key ∧ offset? = bareOffset? :=
              ⟨agreed.represents, agreed.offset_eq⟩
            refine (tracks_introduce represents offset? brief).bind_pure ?_
            rintro ⟨answer, entry⟩ ⟨same, represents⟩
            subst same
            exact .pure (.pushEntry represents forget_eq later_faithful keyring_grows)
        | error error => exact .pure (.pushNone rfl forget_eq later_faithful keyring_grows)
  | ask number query =>
      rcases found : keyring.entryAt? number with - | ⟨curve, entry⟩
      · rw [respond, found, Bare.respond, key?_forget, found]
        exact .pure (.pushNone rfl rfl faithful (.refl keyring))
      · rw [respond, found, Bare.respond, key?_forget, found]
        refine ((Entry.follows_answer entry query).tracks (faithful.entry found)).bind_pure ?_
        rintro ⟨outcome, later⟩ ⟨agree, grows⟩
        obtain ⟨forget_eq, later_faithful, keyring_grows⟩ := kept_setEntry faithful found grows
        simp only [Option.map_some, AnyEntry.anyKey]
        generalize Bare.answer entry.key query = bare at agree ⊢
        cases agree with
        | ok same =>
            exact .pure (.pushNone (congrArg Answer.fact same) forget_eq later_faithful
              keyring_grows)
        | error error => exact .pure (.pushNone rfl forget_eq later_faithful keyring_grows)

theorem tracks_perform (hash : KeyedHash state) (faithful : keyring.Faithful)
    (operation : Operation) :
    Tracks (Reflects Result.withoutDiagnostic keyring) (keyring.perform hash operation)
      (Bare.perform hash keyring.forget operation) := by
  cases operation with
  | request request =>
      refine (tracks_respond hash faithful request).bind ?_
      rintro ⟨answer, later⟩ ⟨bareAnswer, keys⟩ reflects
      exact .pure ⟨congrArg Result.answer reflects.view_eq, reflects.forget_eq, reflects.faithful,
        reflects.grows⟩
  | look number wanted =>
      rcases found : keyring.entryAt? number with - | ⟨curve, entry⟩
      · rw [perform, found, Bare.perform, key?_forget, found]
        exact .pure ⟨rfl, rfl, faithful, .refl keyring⟩
      · rw [perform, found, Bare.perform, key?_forget, found]
        refine ((Entry.follows_detail entry wanted).tracks (faithful.entry found)).bind_pure ?_
        rintro ⟨outcome, later⟩ ⟨agree, grows⟩
        obtain ⟨forget_eq, later_faithful, keyring_grows⟩ := kept_setEntry faithful found grows
        have same : outcome = Bare.detail entry.key wanted := agree.eq
        exact .pure ⟨congrArg Result.looked same, forget_eq, later_faithful, keyring_grows⟩

theorem tracks_run (hash : KeyedHash state) (faithful : keyring.Faithful)
    (operations : List Operation) :
    Tracks (Reflects (List.map Result.withoutDiagnostic) keyring) (keyring.run hash operations)
      (Bare.run hash keyring.forget operations) := by
  induction operations generalizing keyring with
  | nil => exact .pure ⟨rfl, rfl, faithful, .refl keyring⟩
  | cons operation operations ih =>
      refine (tracks_perform hash faithful operation).bind ?_
      rintro ⟨result, later⟩ ⟨bareResult, keys⟩ first
      obtain rfl : later.forget = keys := first.forget_eq
      refine (ih first.faithful).bind ?_
      rintro ⟨results, last⟩ ⟨bareResults, lastKeys⟩ rest
      refine .pure ⟨?_, rest.forget_eq, rest.faithful, first.grows.trans rest.grows⟩
      exact List.cons_eq_cons.mpr ⟨first.view_eq, rest.view_eq⟩

/-! ## Operations that leave every entry as it was -/

/-- From every state of the keyed hash, a computation comes to something good. -/
def Always (good : result → Prop) (work : StateM state result) : Prop :=
  ∀ memory, good (work.run memory).1

theorem Always.pure {good : result → Prop} {value : result} (value_good : good value) :
    Always good (Pure.pure value : StateM state result) :=
  fun _ => value_good

theorem Always.bind {good : result → Prop} {goodNext : next → Prop} {work : StateM state result}
    {continuation : result → StateM state next} (first : Always good work)
    (rest : ∀ value, good value → Always goodNext (continuation value)) :
    Always goodNext (work >>= continuation) :=
  fun memory => rest _ (first memory) _

theorem Always.anything (work : StateM state result) : Always (fun _ => True) work :=
  fun _ => trivial

theorem Entry.Leaves.always {group : CurveGroup} {operation : EntryM group state result}
    (leaves : Leaves operation) (entry : Entry group) :
    Always (fun reached => reached.2 = entry) (operation entry) :=
  leaves entry

/-- The operations that need no public key of the keys that are in the keyring. -/
inductive Operation.Still : Operation → Prop where
  | make (curve : Curve) (origin : Origin) (brief : Bool) :
      Still (.request (.make curve origin brief))
  | privatePath (number : Nat) (route : Route) (brief : Bool) :
      Still (.request (.derive number (.privatePath route) brief))
  | copy (number : Nat) (brief : Bool) : Still (.request (.derive number .copy brief))
  | extendedPrivate (number : Nat) : Still (.request (.ask number .extendedPrivate))
  | key (number : Nat) : Still (.request (.ask number .key))
  | diagnostic (number : Nat) : Still (.request (.ask number .diagnostic))

/-- What comes of work on a keyring that only adds a place to it. -/
def Adds (keyring : Keyring) (reached : Answer × Keyring) : Prop :=
  ∃ made?, reached.2 = keyring.push made?

theorem adds_make (hash : KeyedHash state) (curve : Curve) (origin : Origin) (brief : Bool) :
    Always (Adds keyring) (keyring.respond hash (.make curve origin brief)) := by
  refine .bind (.anything _) fun outcome _ => ?_
  cases outcome with
  | ok entry => exact .bind (.anything _) fun _ _ => .pure ⟨_, rfl⟩
  | error error => exact .pure ⟨none, rfl⟩

theorem adds_derive {hash : KeyedHash state} {descent : Descent}
    (leaves : ∀ group, Entry.Leaves (Entry.descend hash descent : EntryM group state _))
    (number : Nat) (brief : Bool) :
    Always (Adds keyring) (keyring.respond hash (.derive number descent brief)) := by
  rcases found : keyring.entryAt? number with - | ⟨curve, parent⟩
  · rw [respond, found]
    exact .pure ⟨none, rfl⟩
  · rw [respond, found]
    refine .bind ((leaves curve.group).always parent) ?_
    rintro ⟨outcome, later⟩ unchanged
    obtain rfl : later = parent := unchanged
    simp only [setEntry_self found]
    cases outcome with
    | ok made => exact .bind (.anything _) fun _ _ => .pure ⟨_, rfl⟩
    | error error => exact .pure ⟨none, rfl⟩

theorem adds_ask {query : Query}
    (leaves : ∀ group, Entry.Leaves (Entry.answer query : EntryM group state Fact))
    (hash : KeyedHash state) (number : Nat) :
    Always (Adds keyring) (keyring.respond hash (.ask number query)) := by
  rcases found : keyring.entryAt? number with - | ⟨curve, entry⟩
  · rw [respond, found]
    exact .pure ⟨none, rfl⟩
  · rw [respond, found]
    refine .bind ((leaves curve.group).always entry) ?_
    rintro ⟨outcome, later⟩ unchanged
    obtain rfl : later = entry := unchanged
    simp only [setEntry_self found]
    cases outcome with
    | ok fact => exact .pure ⟨none, rfl⟩
    | error error => exact .pure ⟨none, rfl⟩

theorem leaves_privatePath (hash : KeyedHash state) (route : Route) (group : CurveGroup) :
    Entry.Leaves (Entry.descend hash (.privatePath route) : EntryM group state _) :=
  .bind (.lift route.toPath) fun path =>
    .bind (Entry.leaves_derivePrivate hash path) fun _ => .pure _

theorem leaves_copy (hash : KeyedHash state) (group : CurveGroup) :
    Entry.Leaves (Entry.descend hash .copy : EntryM group state _) :=
  .read fun _ => .pure _

theorem leaves_answer_key (group : CurveGroup) :
    Entry.Leaves (Entry.answer .key : EntryM group state Fact) :=
  .read fun _ => .pure _

theorem leaves_answer_diagnostic (group : CurveGroup) :
    Entry.Leaves (Entry.answer .diagnostic : EntryM group state Fact) :=
  .read fun _ => .pure _

theorem leaves_answer_extendedPrivate (group : CurveGroup) :
    Entry.Leaves (Entry.answer .extendedPrivate : EntryM group state Fact) :=
  .bind Entry.leaves_extendedPrivate fun _ => .pure _

/-- An operation that needs no public key only adds a place. -/
theorem adds_of_still (hash : KeyedHash state) {request : Request}
    (still : (Operation.request request).Still) :
    Always (Adds keyring) (keyring.respond hash request) := by
  cases still with
  | make curve origin brief => exact adds_make hash curve origin brief
  | privatePath number route brief => exact adds_derive (leaves_privatePath hash route) number brief
  | copy number brief => exact adds_derive (leaves_copy hash) number brief
  | extendedPrivate number => exact adds_ask leaves_answer_extendedPrivate hash number
  | key number => exact adds_ask leaves_answer_key hash number
  | diagnostic number => exact adds_ask leaves_answer_diagnostic hash number

theorem entryAt?_of_still (hash : KeyedHash state) {operation : Operation} (still : operation.Still)
    (memory : state) {number : Nat} {any : AnyEntry} (found : keyring.entryAt? number = some any) :
    ((keyring.perform hash operation).run memory).1.2.entryAt? number = some any := by
  cases operation with
  | request request =>
      obtain ⟨made?, added⟩ := adds_of_still hash still memory
      rw [perform, run_bind_eq]
      exact (congrArg (entryAt? · number) added).trans (entryAt?_push found)
  | look number wanted => cases still

/-! ## Runs -/

/--
After any operations on a keyring that was empty, what it remembers is true, and all answers but
diagnostics are those of the bare keyring.  Whatever follows, no key changes and what is remembered
stays; a private derivation along a path and an extended private key make nothing be remembered.
-/
theorem memory_unobservable (hash : KeyedHash state) (memory : state)
    (operations : List Operation) :
    let reached := (empty.run hash operations).run memory
    let bare := (Bare.run hash [] operations).run memory
    reached.1.1.map Result.withoutDiagnostic = bare.1.1.map Result.withoutDiagnostic ∧
      reached.1.2.forget = bare.1.2 ∧ reached.2 = bare.2 ∧ reached.1.2.Faithful ∧
      (∀ further, reached.1.2.Grows ((reached.1.2.run hash further).run reached.2).1.2) ∧
      ∀ operation : Operation, operation.Still → ∀ number any,
        reached.1.2.entryAt? number = some any →
          ((reached.1.2.perform hash operation).run reached.2).1.2.entryAt? number = some any := by
  intro reached bare
  obtain ⟨reflects, same⟩ := tracks_run hash faithful_empty operations memory
  refine ⟨reflects.view_eq, reflects.forget_eq, same, reflects.faithful, ?_, ?_⟩
  · intro further
    exact (tracks_run hash reflects.faithful further reached.2).1.grows
  · intro operation still number any found
    exact entryAt?_of_still hash still reached.2 found

/-- Makes the key whose private key is one. -/
def makeGeneratorKey : Operation :=
  .request (.make .secp256k1
    (.privateKey (Position.master (Bytes.zero 32)) (List.replicate 31 0 ++ [1])) true)

/-- A new private key is derived from without its public key being kept, and then looked up. -/
theorem memory_unobservable_generatorKey :
    let reached := (empty.run refusedOnce [makeGeneratorKey]).run 0
    let derived := (reached.1.2.perform refusedOnce
      (.request (.derive 0 (.privatePath (.path ⟨[0, 7]⟩)) true))).run reached.2
    let looked := (reached.1.2.run refusedOnce [.look 0 .publicKey]).run reached.2
    reached.1.2.entryAt? 0 = some ⟨.secp256k1, .ofKey Key.generatorKey⟩ ∧
      derived.1.2.entryAt? 0 = some ⟨.secp256k1, .ofKey Key.generatorKey⟩ ∧
      ∃ grown, looked.1.2.entryAt? 0 = some grown ∧
        AnyEntry.Grows ⟨.secp256k1, .ofKey Key.generatorKey⟩ grown ∧ grown.entry.known.isSome := by
  intro reached derived looked
  obtain ⟨-, -, -, -, grows, still⟩ := memory_unobservable refusedOnce 0 [makeGeneratorKey]
  have made : reached.1.2.entryAt? 0 = some ⟨.secp256k1, .ofKey Key.generatorKey⟩ := rfl
  have filled : (looked.1.2.entryAt? 0).map (fun any => any.entry.known.isSome) = some true := by
    decide +kernel
  obtain ⟨grown, found, grownFrom⟩ := grows [.look 0 .publicKey] 0 _ made
  rw [found] at filled
  exact ⟨made, still _ (.privatePath 0 (.path ⟨[0, 7]⟩) true) 0 _ made, grown, found, grownFrom,
    Option.some.inj filled⟩

end KeyTree.Keyring
