import KeyTree.Proofs.Derivation.FirstAccepted

/-!
# The transcript of a search

A transcript keeps every question that is put to the keyed hash.  A search leaves in it the questions
about the indices that it tried, in turn and without a gap.
-/

namespace KeyTree.Derivation

open ChildIndex

variable {result : Type}

/--
What a derivation asks the keyed hash if these outputs are handed out first, the latest question
first.
-/
def askedFrom (scripted : List (Bytes 64)) (derivation : Derivation KeyedHash.Transcript result) :
    List (List UInt8 × List UInt8) :=
  (derivation.runFrom ⟨scripted, []⟩).2.asked

/-- The entries of a transcript about indices in turn, the latest first. -/
def entries (chainCode : Bytes 32) (message : ChildIndex → List UInt8)
    (indices : List ChildIndex) : List (List UInt8 × List UInt8) :=
  (indices.map fun index => (chainCode.toList, message index)).reverse

theorem asked_transcribed (key message : List UInt8) (transcript : KeyedHash.Transcript) :
    ((KeyedHash.transcribed key message).run transcript).2.asked =
      (key, message) :: transcript.asked := by
  obtain ⟨scripted, asked⟩ := transcript
  cases scripted with
  | nil => rfl
  | cons output scripted => rfl

theorem asked_questions (chainCode : Bytes 32) (message : ChildIndex → List UInt8)
    (indices : List ChildIndex) (transcript : KeyedHash.Transcript) :
    ((questions .transcribed chainCode message indices).run transcript).2.asked =
      entries chainCode message indices ++ transcript.asked := by
  induction indices generalizing transcript with
  | nil => rfl
  | cons index indices ih =>
      rw [run_questions_cons]
      simp only [ih, asked_transcribed, entries, List.map_cons, List.reverse_cons, List.append_assoc,
        List.singleton_append]

/-- These are the questions about the first indices of a row that stays in the half of the first. -/
def AsksInTurn (chainCode : Bytes 32) (message : ChildIndex → List UInt8) (index : ChildIndex)
    (asked : List (List UInt8 × List UInt8)) : Prop :=
  ∃ count ≤ following index + 1, asked = entries chainCode message (consecutive count index)

section Turn

variable {chainCode : Bytes 32} {message : ChildIndex → List UInt8} {index : ChildIndex}
  {scripted : List (Bytes 64)} {derivation : Derivation KeyedHash.Transcript result}

theorem AsksInTurn.nothing : AsksInTurn chainCode message index [] :=
  ⟨0, Nat.zero_le _, rfl⟩

/-- A search asks in turn, whether it finds something or not. -/
theorem FirstAccepted.asksInTurn {accepts : Bytes 64 → Prop}
    {child : ChildIndex → Bytes 64 → result}
    (ends : FirstAccepted .transcribed chainCode message accepts child index ⟨scripted, []⟩
      (derivation.runFrom ⟨scripted, []⟩)) :
    AsksInTurn chainCode message index (derivation.askedFrom scripted) := by
  rw [askedFrom]
  generalize derivation.runFrom ⟨scripted, []⟩ = run at ends
  cases ends with
  | found refused accepted after within asked _ _ =>
      have asked_eq := asked_questions chainCode message
        (consecutive (refused.length + 1) index) ⟨scripted, []⟩
      rw [asked, List.append_nil] at asked_eq
      exact ⟨refused.length + 1, Nat.succ_le_succ within, asked_eq⟩
  | exhausted refused after asked _ =>
      have asked_eq := asked_questions chainCode message
        (consecutive (following index + 1) index) ⟨scripted, []⟩
      rw [asked, List.append_nil] at asked_eq
      exact ⟨following index + 1, Nat.le_refl _, asked_eq⟩

/-- A change of the result asks nothing. -/
theorem askedFrom_bind_pure {next : Type} (scripted : List (Bytes 64))
    (derivation : Derivation KeyedHash.Transcript result) (change : result → next) :
    (derivation >>= fun value => pure (change value)).askedFrom scripted =
      derivation.askedFrom scripted := by
  rw [askedFrom, after_bind_pure, askedFrom]

/-- Only the messages about indices of one half matter. -/
theorem AsksInTurn.congr {asked : List (List UInt8 × List UInt8)}
    {other : ChildIndex → List UInt8} (asks : AsksInTurn chainCode message index asked)
    (same : ∀ tried, isHardened tried = isHardened index → message tried = other tried) :
    AsksInTurn chainCode other index asked := by
  obtain ⟨count, within, rfl⟩ := asks
  refine ⟨count, within, ?_⟩
  rw [entries, entries]
  congr 1
  refine List.map_congr_left fun tried member => ?_
  rw [same tried (isHardened_of_mem_consecutive within member)]

/-- What is asked in turn is asked once, provided that messages tell the index. -/
theorem AsksInTurn.nodup {asked : List (List UInt8 × List UInt8)}
    (asks : AsksInTurn chainCode message index asked) (telling : Function.Injective message) :
    asked.Nodup := by
  obtain ⟨count, within, rfl⟩ := asks
  refine List.nodup_reverse.mpr ((nodup_consecutive within).map ?_)
  intro first second same
  exact telling (Prod.mk.inj same).2

end Turn

end KeyTree.Derivation
