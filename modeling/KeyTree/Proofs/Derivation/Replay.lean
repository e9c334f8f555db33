import KeyTree.Proofs.Derivation.Step

/-!
# Steps and paths that settle

A keyed hash without a state answers a question alike however often it is asked.  A step that had to
skip some indices then gives the same from every index in between, and so does a path of such steps:
whoever has noted the indices of the children derives the last of them again without a skip.
-/

namespace KeyTree.Derivation

open ChildIndex

variable {found other node ready : Type}

/-! ## Steps -/

/--
What is found is recorded under the index that was asked for or under a later one of its half, and
it is found from every index in between.
-/
structure FoundUpTo (recorded : ChildIndex) (step : ChildIndex → Except Error found)
    (index : ChildIndex) (value : found) : Prop where
  index_le : index ≤ recorded
  half : isHardened index = isHardened recorded
  again : ∀ between, index ≤ between → between ≤ recorded → step between = .ok value

/-- Whatever a step finds, it finds up to the index under which it is recorded. -/
def Settles (recorded : found → ChildIndex) (step : ChildIndex → Except Error found) : Prop :=
  ∀ index value, step index = .ok value → FoundUpTo (recorded value) step index value

section Settles

variable {recorded : found → ChildIndex} {step : ChildIndex → Except Error found}

/-- A check that does not depend on the index may come before the step. -/
theorem Settles.after {outcome : Except Error ready}
    {steps : ready → ChildIndex → Except Error found}
    (settles : ∀ value, outcome = .ok value → Settles recorded (steps value)) :
    Settles recorded fun index => outcome >>= fun value => steps value index := by
  intro index value run
  obtain ⟨passed, outcome_eq, stepped⟩ := ok_of_bind run
  subst outcome_eq
  exact settles passed rfl index value stepped

/-- What was found may be changed, as long as the index is kept. -/
theorem Settles.andThen (settles : Settles recorded step) {next : found → Except Error other}
    {recordedNext : other → ChildIndex}
    (keeps : ∀ value later, next value = .ok later → recordedNext later = recorded value) :
    Settles recordedNext fun index => step index >>= next := by
  intro index later run
  obtain ⟨value, stepped, done⟩ := ok_of_bind run
  obtain ⟨index_le, half, again⟩ := settles index value stepped
  rw [keeps value later done]
  refine ⟨index_le, half, fun between low high => ?_⟩
  rw [again between low high]
  exact done

/-- Hardened indices may be refused. -/
theorem Settles.unlessHardened (settles : Settles recorded step) (refusal : ChildIndex → Error) :
    Settles recorded fun index =>
      if isHardened index then .error (refusal index) else step index := by
  intro index value run
  beta_reduce at run
  split at run
  · contradiction
  · next normal =>
      obtain ⟨index_le, half, again⟩ := settles index value run
      refine ⟨index_le, half, fun between low high => ?_⟩
      rw [isHardened_between low high half, if_neg normal]
      exact again between low high

theorem outcome_search_of_some {candidate : ChildIndex → StateM Unit (Option found)}
    {index : ChildIndex} {value : found} (accepted : (candidate index).run () = (some value, ())) :
    (search candidate index).outcome = .ok value := by
  rw [outcome_eq]
  rcases left_eq : following index with - | left
  · rw [runFrom_search_last left_eq, accepted]
  · rw [runFrom_search_before left_eq, accepted]

theorem outcome_search_of_none {candidate : ChildIndex → StateM Unit (Option found)}
    {index : ChildIndex} {left : Nat} (room : following index = left + 1)
    (refused : (candidate index).run () = (none, ())) :
    (search candidate index).outcome = (search candidate (index + 1)).outcome := by
  rw [outcome_eq, runFrom_search_before room, refused, outcome_eq]

/-- An accepted candidate is found from its own index alone, if it is recorded under that. -/
theorem foundUpTo_of_some {candidate : ChildIndex → StateM Unit (Option found)}
    {index : ChildIndex} {value : found} (accepted : (candidate index).run () = (some value, ())) :
    FoundUpTo index (fun index => (search candidate index).outcome) index value where
  index_le := UInt32.le_refl index
  half := rfl
  again := by
    intro between low high
    obtain rfl := UInt32.le_antisymm low high
    exact outcome_search_of_some accepted

/-- What is found from the index after a refused one is found from the refused one as well. -/
theorem FoundUpTo.of_none {candidate : ChildIndex → StateM Unit (Option found)}
    {index last : ChildIndex} {left : Nat} {value : found} (room : following index = left + 1)
    (refused : (candidate index).run () = (none, ()))
    (found : FoundUpTo last (fun index => (search candidate index).outcome) (index + 1) value) :
    FoundUpTo last (fun index => (search candidate index).outcome) index value := by
  obtain ⟨next_le, half, again⟩ := found
  have next_eq : (index + 1).toNat = index.toNat + 1 := by
    rw [add_one_eq_advance, toNat_advance (by omega)]
  have next_run := again (index + 1) (UInt32.le_refl _) next_le
  rw [UInt32.le_iff_toNat_le, next_eq] at next_le
  refine ⟨?_, ?_, fun between low high => ?_⟩
  · rw [UInt32.le_iff_toNat_le]
    omega
  · rw [← half, isHardened_add_one room]
  · by_cases same : between = index
    · rw [same]
      exact (outcome_search_of_none room refused).trans next_run
    · apply again between _ high
      have different : between.toNat ≠ index.toNat := mt UInt32.toNat_inj.mp same
      rw [UInt32.le_iff_toNat_le] at low ⊢
      omega

/-- A search settles if each candidate is recorded under its own index. -/
theorem settles_search {candidate : ChildIndex → StateM Unit (Option found)}
    (records : ∀ index value, (candidate index).run () = (some value, ()) →
      recorded value = index) :
    Settles recorded fun index => (search candidate index).outcome := by
  intro index
  induction index using half_induction with
  | last index last =>
      intro value run
      rcases attempt : (candidate index).run () with ⟨- | accepted, ⟨⟩⟩
      · beta_reduce at run
        rw [outcome_eq, runFrom_search_last last, attempt] at run
        contradiction
      · obtain rfl := Except.ok.inj ((outcome_search_of_some attempt).symm.trans run)
        rw [records index accepted attempt]
        exact foundUpTo_of_some attempt
  | before index left room ih =>
      intro value run
      rcases attempt : (candidate index).run () with ⟨- | accepted, ⟨⟩⟩
      · have next_run := (outcome_search_of_none room attempt).symm.trans run
        exact (ih value next_run).of_none room attempt
      · obtain rfl := Except.ok.inj ((outcome_search_of_some attempt).symm.trans run)
        rw [records index accepted attempt]
        exact foundUpTo_of_some attempt

end Settles

/-! ## The two steps -/

theorem settles_privateStep (group : CurveGroup) (hash : KeyedHash Unit) (key : Secret 32)
    (slot : KeySlot) (chainCode : Bytes 32) :
    Settles PrivateStep.index fun index =>
      (privateStep group hash key slot chainCode index).outcome := by
  simp only [privateStep, outcome_bind]
  refine .after fun parent _ => settles_search fun index step run => ?_
  rw [run_privateCandidate] at run
  obtain ⟨child, -, rfl⟩ := Option.map_eq_some_iff.mp (Prod.mk.inj run).1
  rfl

theorem settles_publicStep (group : CurveGroup) (hash : KeyedHash Unit) (slot : KeySlot)
    (chainCode : Bytes 32) :
    Settles PublicStep.index fun index =>
      (publicStep group hash slot chainCode index).outcome := by
  have split : ∀ index, (publicStep group hash slot chainCode index).outcome =
      if isHardened index then .error (.hardenedFromPublic index)
      else group.publicPoint slot.toList >>= fun parent =>
        (search (publicCandidate group hash parent slot chainCode) index).outcome := by
    intro index
    rcases hardened : isHardened index with - | -
    · rw [publicStep, hardened]
      simp only [Bool.false_eq_true, ↓reduceIte, outcome_bind]
      rfl
    · rw [publicStep, hardened]
      rfl
  simp only [split]
  refine .unlessHardened (.after fun parent _ => settles_search fun index step run => ?_) _
  rw [run_publicCandidate] at run
  obtain ⟨moved, -, rfl⟩ := Option.map_eq_some_iff.mp (Prod.mk.inj run).1
  rfl

/-! ## Paths -/

/-- What is derived along the beginnings of a path, from its first index on to the whole of it. -/
def Stops (derive : List ChildIndex → Except Error node) (indices : List ChildIndex)
    (stops : List node) : Prop :=
  stops.length = indices.length ∧
    ∀ count stop, stops[count]? = some stop → derive (indices.take (count + 1)) = .ok stop

/--
A derivation along a path stops at keys that are recorded under the indices of the path or under
later ones of their halves.  Along any indices in between it makes the same stops and ends alike.
-/
structure Replays (derive : List ChildIndex → Except Error node) (recorded : node → ChildIndex)
    (indices : List ChildIndex) (last : node) (stops : List node) : Prop where
  derives : derive indices = .ok last
  reached : Stops derive indices stops
  settled : List.Forall₂ (fun index stop =>
    index ≤ recorded stop ∧ isHardened index = isHardened (recorded stop)) indices stops
  again : ∀ between, List.Forall₂ (· ≤ ·) indices between →
    List.Forall₂ (· ≤ ·) between (stops.map recorded) →
      derive between = .ok last ∧ Stops derive between stops

section Paths

variable {derive : List ChildIndex → Except Error node} {recorded : node → ChildIndex}
  {step : node → ChildIndex → Except Error node} {start first last : node} {index : ChildIndex}
  {indices : List ChildIndex} {stops : List node}

/-- Along the recorded indices, each step is recorded under the very index that was asked for. -/
theorem Replays.along_recorded (replays : Replays derive recorded indices last stops) :
    Replays derive recorded (stops.map recorded) last stops := by
  obtain ⟨-, -, settled, again⟩ := replays
  have upTo : List.Forall₂ (· ≤ ·) indices (stops.map recorded) :=
    List.forall₂_map_right_iff.mpr (settled.imp fun _ _ settled => settled.1)
  have same : List.Forall₂ (· ≤ ·) (stops.map recorded) (stops.map recorded) :=
    List.forall₂_same.mpr fun index _ => UInt32.le_refl index
  obtain ⟨derives, reached⟩ := again _ upTo same
  refine ⟨derives, reached, ?_, fun between low high => ?_⟩
  · exact List.forall₂_map_left_iff.mpr
      (List.forall₂_same.mpr fun stop _ => ⟨UInt32.le_refl _, rfl⟩)
  · -- Nothing but the recorded indices is between them and themselves.
    have equal : List.Forall₂ (· = ·) (stops.map recorded) between :=
      List.Forall₂.mp (fun _ _ => UInt32.le_antisymm) low high.flip
    rw [List.forall₂_eq_eq_eq] at equal
    exact equal ▸ ⟨derives, reached⟩

/-- What was skipped at the first step may be left out. -/
theorem Replays.skip (replays : Replays derive recorded (index :: indices) last stops)
    {recordedFirst : ChildIndex}
    (first_eq : (derive [index]).toOption.map recorded = some recordedFirst) :
    derive (recordedFirst :: indices) = .ok last := by
  obtain ⟨-, ⟨-, stop_of⟩, settled, again⟩ := replays
  cases settled with
  | @cons _ stop _ stops first_settled settled =>
      have reached : derive [index] = .ok stop := stop_of 0 stop rfl
      rw [reached] at first_eq
      obtain rfl := Option.some.inj first_eq
      have rest : List.Forall₂ (· ≤ ·) indices (stops.map recorded) :=
        List.forall₂_map_right_iff.mpr (settled.imp fun _ _ settled => settled.1)
      have same : List.Forall₂ (· ≤ ·) indices indices :=
        List.forall₂_same.mpr fun index _ => UInt32.le_refl index
      exact (again _ (.cons first_settled.1 same) (.cons (UInt32.le_refl _) rest)).1

/-- Derivations that succeed alike are replayed alike. -/
theorem Replays.congr {other : List ChildIndex → Except Error node}
    (same : ∀ indices value, derive indices = .ok value ↔ other indices = .ok value)
    (replays : Replays derive recorded indices last stops) :
    Replays other recorded indices last stops := by
  have stops_iff : ∀ indices, Stops derive indices stops ↔ Stops other indices stops := by
    intro indices
    simp only [Stops, same]
  obtain ⟨derives, reached, settled, again⟩ := replays
  simp only [same, stops_iff] at derives reached again
  exact ⟨derives, reached, settled, again⟩

theorem stops_nil (derive : List ChildIndex → Except Error node) : Stops derive [] [] :=
  ⟨rfl, fun _ _ none_left => by simp at none_left⟩

/-- The first step of a fold leads to its first stop, and the others come after it. -/
theorem stops_cons (stepped : step start index = .ok first)
    (rest : Stops (List.foldlM step first) indices stops) :
    Stops (List.foldlM step start) (index :: indices) (first :: stops) := by
  obtain ⟨length_eq, rest⟩ := rest
  refine ⟨by rw [List.length_cons, List.length_cons, length_eq], fun count stop member => ?_⟩
  rw [List.take_succ_cons, List.foldlM_cons, stepped]
  cases count with
  | zero =>
      obtain rfl := Option.some.inj member
      rfl
  | succ count => exact rest count stop member

/-- Steps that settle make a path that is replayed. -/
theorem exists_replays (settles : ∀ start, Settles recorded (step start))
    (run : indices.foldlM step start = .ok last) :
    ∃ stops, Replays (List.foldlM step start) recorded indices last stops := by
  induction indices generalizing start with
  | nil =>
      refine ⟨[], run, stops_nil _, .nil, ?_⟩
      rintro between (- | -) -
      exact ⟨run, stops_nil _⟩
  | cons index indices ih =>
      have whole := run
      rw [List.foldlM_cons] at run
      obtain ⟨first, stepped, rest⟩ := ok_of_bind run
      obtain ⟨index_le, half, again⟩ := settles start index first stepped
      obtain ⟨stops, -, reached, settled, later⟩ := ih rest
      refine ⟨first :: stops, whole, stops_cons stepped reached, .cons ⟨index_le, half⟩ settled, ?_⟩
      rintro _ (- | ⟨low, lows⟩) (- | ⟨high, highs⟩)
      have between_step := again _ low high
      obtain ⟨between_last, between_stops⟩ := later _ lows highs
      refine ⟨?_, stops_cons between_step between_stops⟩
      rw [List.foldlM_cons, between_step]
      exact between_last

end Paths

end KeyTree.Derivation
