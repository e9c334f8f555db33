import KeyTree.Proofs.Derivation.Replay
import KeyTree.Proofs.Key.Offset

/-!
# Deriving a key again from the recorded indices

A derivation may have to skip indices, and the keys on its way tell which ones it came to.  With the
same keyed hash, the path of these indices leads to the same key without a skip, and so does every
path in between.
-/

namespace KeyTree.Key

open KeyTree.Derivation ChildIndex

variable {group : CurveGroup}

theorem settles_privateChild (hash : KeyedHash Unit) (key : Key group) :
    Settles (fun child : Key group => child.childIndex) fun index =>
      (key.privateChild hash index).outcome := by
  simp only [privateChild, privateChildOf, outcome_bind]
  refine .after fun ready _ => .after fun slot _ => ?_
  have settles := settles_privateStep group hash ready.1 slot key.chainCode
  refine settles.andThen fun step child made => ?_
  obtain rfl := Except.ok.inj made
  rfl

theorem outcome_publicChild (hash : KeyedHash Unit) (key : Key group) (index : ChildIndex) :
    (key.publicChild hash index).outcome =
      if isHardened index then .error (.hardenedFromPublic index)
      else key.childDepth >>= fun depth => key.publicKey >>= fun slot =>
        (key.publicChildOf hash depth slot index).outcome := by
  rcases hardened : isHardened index with - | -
  · simp only [publicChild, readyForPublic, hardened, Bool.false_eq_true, ↓reduceIte, outcome_bind]
    rfl
  · rw [publicChild_of_hardened hardened]
    rfl

theorem settles_publicChild (hash : KeyedHash Unit) (key : Key group) :
    Settles (fun child : PublicChild group => child.key.childIndex) fun index =>
      (key.publicChild hash index).outcome := by
  simp only [outcome_publicChild, publicChildOf, outcome_bind]
  refine .unlessHardened (.after fun depth _ => .after fun slot _ => ?_) _
  refine (settles_publicStep group hash slot key.chainCode).andThen fun step child made => ?_
  obtain rfl := Except.ok.inj made
  rfl

theorem settles_extend (hash : KeyedHash Unit) (parent : PublicChild group) :
    Settles (fun child : PublicChild group => child.key.childIndex) fun index =>
      (extend hash parent index).outcome := by
  simp only [extend, outcome_bind]
  refine (settles_publicChild hash parent.key).andThen fun step child made => ?_
  obtain ⟨offset, -, made⟩ := ok_of_bind made
  obtain rfl := Except.ok.inj made
  rfl

/-- No step of a public derivation that succeeds was under a hardened index. -/
theorem normal_of_foldlM_extend {hash : KeyedHash Unit} {start last : PublicChild group}
    {indices : List ChildIndex}
    (run : indices.foldlM (fun parent index => (extend hash parent index).outcome) start =
      .ok last) :
    ∀ index ∈ indices, isHardened index = false := by
  induction indices generalizing start with
  | nil => exact fun _ member => absurd member List.not_mem_nil
  | cons index indices ih =>
      rw [List.foldlM_cons] at run
      obtain ⟨middle, stepped, rest⟩ := ok_of_bind run
      have normal : isHardened index = false := by
        rcases hardened : isHardened index with - | -
        · rfl
        · rw [extend, publicChild_of_hardened hardened] at stepped
          contradiction
      exact List.forall_mem_cons.mpr ⟨normal, ih rest⟩

/-- A public derivation succeeds exactly if its steps do. -/
theorem outcome_derivePublic_eq_ok_iff {key : Key group} {slot : KeySlot}
    (known : key.publicKey = .ok slot) (hash : KeyedHash Unit) (indices : List ChildIndex)
    (child : PublicChild group) :
    (key.derivePublic hash ⟨indices⟩).outcome = .ok child ↔
      indices.foldlM (fun parent index => (extend hash parent index).outcome)
        ⟨key.withSlot slot, Bytes.zero 32⟩ = .ok child := by
  have steps : ∀ (free : (⟨indices⟩ : Path).firstHardened? = none),
      (key.derivePublic hash ⟨indices⟩).outcome =
        indices.foldlM (fun parent index => (extend hash parent index).outcome)
          ⟨key.withSlot slot, Bytes.zero 32⟩ := by
    intro free
    rw [derivePublic_of_free free known, derivePublicFrom, outcome_foldlM]
  constructor
  · intro run
    rcases first : (⟨indices⟩ : Path).firstHardened? with - | index
    · rw [← steps first]
      exact run
    · rw [derivePublic_of_hardened first] at run
      contradiction
  · intro run
    rw [steps (firstHardened?_eq_none_iff.mpr (normal_of_foldlM_extend run))]
    exact run

theorem exists_publicKey_of_derivePublic {hash : KeyedHash Unit} {key : Key group} {path : Path}
    {child : PublicChild group} (run : (key.derivePublic hash path).outcome = .ok child) :
    ∃ slot, key.publicKey = .ok slot := by
  rw [derivePublic, outcome_bind] at run
  obtain ⟨_, -, run⟩ := ok_of_bind run
  rw [outcome_bind] at run
  obtain ⟨watched, dropped, -⟩ := ok_of_bind run
  obtain ⟨slot, known, -⟩ := ok_of_map dropped
  exact ⟨slot, known⟩

/--
A derivation that succeeds tells the indices at which its steps came out, none of them before the
one asked for and each in the same half.  Along these indices, and along all in between, the same
keyed hash leads to the same keys, and publicly with the same offset.
-/
theorem derive_replays (hash : KeyedHash Unit) (key : Key group) (path : Path) :
    (∀ child, (key.derivePrivate hash path).outcome = .ok child →
      let derive := fun indices => (key.derivePrivate hash ⟨indices⟩).outcome
      let recorded := fun stop : Key group => stop.childIndex
      ∃ stops, Replays derive recorded path.indices child stops ∧
        Replays derive recorded (stops.map recorded) child stops) ∧
    ∀ child, (key.derivePublic hash path).outcome = .ok child →
      let derive := fun indices => (key.derivePublic hash ⟨indices⟩).outcome
      let recorded := fun stop : PublicChild group => stop.key.childIndex
      ∃ stops, Replays derive recorded path.indices child stops ∧
        Replays derive recorded (stops.map recorded) child stops := by
  refine ⟨fun child run => ?_, fun child run => ?_⟩
  · intro derive recorded
    have steps : derive =
        List.foldlM (fun parent index => (privateChild hash parent index).outcome) key :=
      funext fun indices => outcome_foldlM _ indices key
    have whole : derive path.indices = .ok child := run
    rw [steps] at whole ⊢
    obtain ⟨stops, replays⟩ := exists_replays (settles_privateChild hash) whole
    exact ⟨stops, replays, replays.along_recorded⟩
  · intro derive recorded
    obtain ⟨slot, known⟩ := exists_publicKey_of_derivePublic run
    have steps := outcome_derivePublic_eq_ok_iff known hash
    obtain ⟨stops, steps_replay⟩ :=
      exists_replays (settles_extend hash) ((steps path.indices child).mp run)
    have replays := steps_replay.congr fun indices value => (steps indices value).symm
    exact ⟨stops, replays, replays.along_recorded⟩

/-- A keyed hash that answers with an output out of range under index zero, and else with one. -/
def refusedZero : KeyedHash Unit := fun _ message =>
  return ByteOrder.bigEndian.write 64
    (if message.drop 33 = [0, 0, 0, 0] then 2 ^ 512 - 1 else 2 ^ 256)

theorem outcomes_refusedZero :
    ((generatorKey.derivePrivate refusedZero ⟨[0]⟩).outcome.toOption.map (·.childIndex) = some 1 ∧
      (generatorKey.derivePrivate refusedZero ⟨[0, 7]⟩).outcome.isOk = true) ∧
    (generatorKey.derivePublic refusedZero ⟨[0]⟩).outcome.toOption.map (·.key.childIndex) = some 1 ∧
      (generatorKey.derivePublic refusedZero ⟨[0, 7]⟩).outcome.isOk = true := by
  decide +kernel

/-- With zero skipped, the path that starts at one leads to the same child. -/
theorem derive_replays_refusedZero :
    (∃ child, (generatorKey.derivePrivate refusedZero ⟨[0, 7]⟩).outcome = .ok child ∧
      (generatorKey.derivePrivate refusedZero ⟨[1, 7]⟩).outcome = .ok child) ∧
    ∃ child, (generatorKey.derivePublic refusedZero ⟨[0, 7]⟩).outcome = .ok child ∧
      (generatorKey.derivePublic refusedZero ⟨[1, 7]⟩).outcome = .ok child := by
  obtain ⟨privately, publicly⟩ := derive_replays refusedZero generatorKey ⟨[0, 7]⟩
  obtain ⟨⟨first_private, last_private⟩, first_public, last_public⟩ := outcomes_refusedZero
  obtain ⟨child, run⟩ := exists_of_isOk last_private
  obtain ⟨publicChild, publicRun⟩ := exists_of_isOk last_public
  obtain ⟨stops, replays, -⟩ := privately child run
  obtain ⟨publicStops, publicReplays, -⟩ := publicly publicChild publicRun
  exact ⟨⟨child, run, replays.skip first_private⟩,
    publicChild, publicRun, publicReplays.skip first_public⟩

end KeyTree.Key
