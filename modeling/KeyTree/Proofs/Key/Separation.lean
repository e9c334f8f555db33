import KeyTree.Proofs.Derivation.Transcript
import KeyTree.Proofs.Key.Exhaustion

/-!
# Messages of different keys are kept apart

The messages with which private keys ask for their children tell the index and the key, so that two
keys, of one curve or of two, ask the keyed hash the same only where they are to get the same answer.
In particular no derivation of a child asks the same twice.
-/

namespace KeyTree.Key

open KeyTree.Derivation ChildIndex

variable {group : CurveGroup} {key : Key group}

/-- The key holds a private key and sends these messages about indices. -/
def Sends (key : Key group) (message : ChildIndex → Bytes 37) : Prop :=
  ∃ secret slot, key.private? = some secret ∧ key.publicKey = .ok slot ∧
    message = privateMessage group.curve.family secret slot

/-! ## What is asked -/

theorem asksInTurn_privateChild {secret : Secret 32} (holds : key.private? = some secret)
    {slot : KeySlot} (known : key.publicKey = .ok slot) (index : ChildIndex)
    (scripted : List (Bytes 64)) :
    AsksInTurn key.chainCode (childMessage group.curve.family secret slot) index
      ((key.privateChild .transcribed index).askedFrom scripted) := by
  by_cases deep : key.depth = 255
  · rw [privateChild_of_deep holds deep]
    exact .nothing
  · have slot_eq := publicKey_of_private? holds
    rw [known] at slot_eq
    obtain ⟨scalar, scalar_eq, -⟩ := ok_of_map slot_eq.symm
    rw [privateChild_of_shallow holds deep known, askedFrom_bind_pure]
    exact (privateStep_firstAccepted scalar_eq _ slot key.chainCode index _).asksInTurn

theorem asksInTurn_publicChild (lawful : group.Lawful) {point : group.Point}
    (has : key.HasPoint point) {index : ChildIndex} (normal : isHardened index = false)
    (scripted : List (Bytes 64)) :
    AsksInTurn key.chainCode (publicMessage group.curve.family (group.encode point)) index
      ((key.publicChild .transcribed index).askedFrom scripted) := by
  obtain ⟨known, attainable, proper⟩ := has
  by_cases deep : key.depth = 255
  · rw [publicChild_of_deep deep normal]
    exact .nothing
  · have decoded := lawful.decode?_encode attainable proper
    rw [publicChild_of_shallow deep normal known, askedFrom_bind_pure]
    exact (publicStep_firstAccepted lawful decoded normal _ key.chainCode _).asksInTurn

/-- Both derivations of a child ask in turn, with the messages that the key sends. -/
theorem asksInTurn_of_sends (lawful : group.Lawful) (valid : key.Valid)
    {message : ChildIndex → Bytes 37} (sends : key.Sends message) (index : ChildIndex)
    (scripted : List (Bytes 64)) :
    AsksInTurn key.chainCode (fun tried => (message tried).toList) index
        ((key.privateChild .transcribed index).askedFrom scripted) ∧
      AsksInTurn key.chainCode (fun tried => (message tried).toList) index
        ((key.publicChild .transcribed index).askedFrom scripted) := by
  obtain ⟨secret, slot, holds, known, rfl⟩ := sends
  constructor
  · simp only [toList_privateMessage]
    exact asksInTurn_privateChild holds known index scripted
  · rcases hardened : isHardened index with - | -
    · obtain ⟨point, has⟩ := valid.hasPoint lawful
      obtain rfl := Except.ok.inj (known.symm.trans has.1)
      refine (asksInTurn_publicChild lawful has hardened scripted).congr fun tried half => ?_
      rw [privateMessage_eq_normalMessage (half.trans hardened), toList_normalMessage]
    · rw [publicChild_of_hardened hardened]
      exact .nothing

/-! ## Two keys -/

theorem Sends.injective {message : ChildIndex → Bytes 37} (sends : key.Sends message) :
    Function.Injective message := by
  obtain ⟨secret, slot, -, -, rfl⟩ := sends
  exact fun _ _ => index_eq_of_privateMessage_eq

/-- A valid key that holds a private key knows its public key, whose lead byte is of the family. -/
theorem Valid.exists_secret_slot (lawful : group.Lawful) (canonical : group.Canonical)
    (valid : key.Valid) (owned : key.private?.isSome) :
    ∃ secret slot, key.private? = some secret ∧ key.publicKey = .ok slot ∧
      slot.lead ∈ group.curve.family.leads := by
  obtain ⟨secret, holds⟩ := Option.isSome_iff_exists.mp owned
  obtain ⟨point, known, attainable, proper⟩ := valid.hasPoint lawful
  exact ⟨secret, group.encode point, holds, known,
    canonical.lead_mem (lawful.decode?_encode attainable proper)⟩

/--
Two reachable private keys send the same message exactly if it is about the same index, and the
private keys are equal if that is hardened, else the families and the public keys.  These messages
are what the derivations of a child ask about, whatever they are answered, and none is asked twice.
-/
theorem messages_separate {curve otherCurve : Curve} {key : Key curve.group}
    {other : Key otherCurve.group} (reachable : key.Reachable) (otherReachable : other.Reachable)
    (owned : key.private?.isSome) (otherOwned : other.private?.isSome) :
    ∃ message otherMessage, key.Sends message ∧ other.Sends otherMessage ∧
      (∀ index otherIndex, message index = otherMessage otherIndex ↔
        index = otherIndex ∧
          (isHardened index = true ∧ key.private? = other.private? ∨
            isHardened index = false ∧ curve.family = otherCurve.family ∧
              key.publicKey = other.publicKey)) ∧
      ∀ index scripted,
        let privately := (key.privateChild .transcribed index).askedFrom scripted
        let publicly := (key.publicChild .transcribed index).askedFrom scripted
        (AsksInTurn key.chainCode (fun tried => (message tried).toList) index privately ∧
          privately.Nodup) ∧
        AsksInTurn key.chainCode (fun tried => (message tried).toList) index publicly ∧
          publicly.Nodup := by
  have lawful := curve.group_lawful
  have valid := reachable.valid lawful
  obtain ⟨secret, slot, holds, known, lead_mem⟩ :=
    valid.exists_secret_slot lawful curve.group_canonical owned
  obtain ⟨otherSecret, otherSlot, otherHolds, otherKnown, otherLead_mem⟩ :=
    (otherReachable.valid otherCurve.group_lawful).exists_secret_slot otherCurve.group_lawful
      otherCurve.group_canonical otherOwned
  have sends : key.Sends _ := ⟨secret, slot, holds, known, rfl⟩
  have telling : Function.Injective fun tried =>
      (privateMessage curve.group.curve.family secret slot tried).toList :=
    fun _ _ same => sends.injective (Bytes.ext same)
  refine ⟨_, _, sends, ⟨otherSecret, otherSlot, otherHolds, otherKnown, rfl⟩, ?_, ?_⟩
  · intro index otherIndex
    rw [privateMessage_eq_iff lead_mem otherLead_mem, Curve.curve_group, Curve.curve_group, holds,
      otherHolds, known, otherKnown, Option.some.injEq, Except.ok.injEq]
  · intro index scripted
    obtain ⟨privately, publicly⟩ := asksInTurn_of_sends lawful valid sends index scripted
    exact ⟨⟨privately, privately.nodup telling⟩, publicly, publicly.nodup telling⟩

/-- A key of Ed25519 with the same bytes as its private key as the generator key of secp256k1. -/
def edwardsTwinKey : Key Curve.ed25519.group :=
  { Position.master (Bytes.zero 32) with
    material := .privateKey ⟨Curve.secp256k1.group.byteOrder.write 32 1⟩ }

theorem reachable_edwardsTwinKey : edwardsTwinKey.Reachable :=
  .ofPrivate (Position.master (Bytes.zero 32)) (List.replicate 31 0 ++ [1]) rfl

/-- The two keys send the same message under a hardened index, and different ones otherwise. -/
theorem messages_separate_edwardsTwinKey :
    generatorKey.Reachable ∧ edwardsTwinKey.Reachable ∧ generatorKey.private?.isSome ∧
      edwardsTwinKey.private?.isSome ∧ ∃ message twinMessage,
        generatorKey.Sends message ∧ edwardsTwinKey.Sends twinMessage ∧
          message 0x80000007 = twinMessage 0x80000007 ∧ message 7 ≠ twinMessage 7 ∧
          ((generatorKey.privateChild .transcribed 7).askedFrom [refusedOutput]).Nodup := by
  obtain ⟨message, twinMessage, sends, twinSends, told, asks⟩ :=
    messages_separate reachable_generatorKey reachable_edwardsTwinKey rfl rfl
  refine ⟨reachable_generatorKey, reachable_edwardsTwinKey, rfl, rfl, message, twinMessage, sends,
    twinSends, (told _ _).mpr ⟨rfl, .inl ⟨by decide, rfl⟩⟩, ?_, (asks 7 _).1.2⟩
  intro same
  rcases ((told _ _).mp same).2 with ⟨hardened, -⟩ | ⟨-, family_eq, -⟩
  · exact absurd hardened (by decide)
  · cases family_eq

end KeyTree.Key
