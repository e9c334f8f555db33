import KeyTree.Derivation.Search
import KeyTree.Proofs.Derivation.Run
import KeyTree.Proofs.Path.Half

/-!
# The search finds the first accepted candidate

`FirstAccepted` tells the whole of a search: which questions the keyed hash was asked, in which
order and from which state, which outputs were refused, and how the search ended.  The keyed hash
may answer by any rule, also by one that counts its questions.
-/

namespace KeyTree.Derivation

open ChildIndex

variable {state result other : Type}

/-- Asks the keyed hash about indices in turn, all under one chain code. -/
def questions (hash : KeyedHash state) (chainCode : Bytes 32) (message : ChildIndex → List UInt8)
    (indices : List ChildIndex) : StateM state (List (Bytes 64)) :=
  indices.mapM fun index => hash chainCode.toList (message index)

/--
The end of a search that asks about an index and those after it, once each and in order, until an
output is accepted or its half of the range is over.
-/
inductive FirstAccepted (hash : KeyedHash state) (chainCode : Bytes 32)
    (message : ChildIndex → List UInt8) (accepts : Bytes 64 → Prop)
    (child : ChildIndex → Bytes 64 → result) (index : ChildIndex) (memory : state) :
    Except Error result × state → Prop where
  /-- All outputs but the last were refused, and the last one makes the child. -/
  | found (refused : List (Bytes 64)) (accepted : Bytes 64) (after : state)
      (within : refused.length ≤ following index)
      (asked : (questions hash chainCode message
        (consecutive (refused.length + 1) index)).run memory = (refused ++ [accepted], after))
      (none_accepted : ∀ output ∈ refused, ¬accepts output) (is_accepted : accepts accepted) :
      FirstAccepted hash chainCode message accepts child index memory
        (.ok (child (advance index refused.length) accepted), after)
  /-- All outputs up to the end of the half were refused. -/
  | exhausted (refused : List (Bytes 64)) (after : state)
      (asked : (questions hash chainCode message
        (consecutive (following index + 1) index)).run memory = (refused, after))
      (none_accepted : ∀ output ∈ refused, ¬accepts output) :
      FirstAccepted hash chainCode message accepts child index memory
        (.error (.rangeExhausted (lastOfHalf index)), after)

/-- The outputs for an index and for all that follow in its half are refused. -/
def Exhausts (hash : KeyedHash state) (chainCode : Bytes 32) (message : ChildIndex → List UInt8)
    (accepts : Bytes 64 → Prop) (index : ChildIndex) (memory after : state) : Prop :=
  ∃ refused, (questions hash chainCode message (consecutive (following index + 1) index)).run
    memory = (refused, after) ∧ ∀ output ∈ refused, ¬accepts output

theorem run_questions_cons (hash : KeyedHash state) (chainCode : Bytes 32)
    (message : ChildIndex → List UInt8) (index : ChildIndex) (indices : List ChildIndex)
    (memory : state) :
    (questions hash chainCode message (index :: indices)).run memory =
      let first := (hash chainCode.toList (message index)).run memory
      let rest := (questions hash chainCode message indices).run first.2
      (first.1 :: rest.1, rest.2) := by
  simp only [questions, List.mapM_cons]
  rfl

theorem run_questions_append (hash : KeyedHash state) (chainCode : Bytes 32)
    (message : ChildIndex → List UInt8) (first second : List ChildIndex) (memory : state) :
    (questions hash chainCode message (first ++ second)).run memory =
      let left := (questions hash chainCode message first).run memory
      let right := (questions hash chainCode message second).run left.2
      (left.1 ++ right.1, right.2) := by
  induction first generalizing memory with
  | nil => rfl
  | cons index indices ih =>
      rw [List.cons_append, run_questions_cons, run_questions_cons]
      simp only [ih, List.cons_append]

section Search

variable {hash : KeyedHash state} {chainCode : Bytes 32} {message : ChildIndex → List UInt8}
  {accepts : Bytes 64 → Prop} {child : ChildIndex → Bytes 64 → result}
  {index : ChildIndex} {memory : state}

/-- A search that begins at an accepted candidate ends there. -/
theorem FirstAccepted.here
    (accepted : accepts ((hash chainCode.toList (message index)).run memory).1) :
    FirstAccepted hash chainCode message accepts child index memory
      (.ok (child index ((hash chainCode.toList (message index)).run memory).1),
        ((hash chainCode.toList (message index)).run memory).2) := by
  have found : FirstAccepted hash chainCode message accepts child index memory
      (.ok (child (advance index 0) ((hash chainCode.toList (message index)).run memory).1),
        ((hash chainCode.toList (message index)).run memory).2) :=
    .found [] _ _ (Nat.zero_le _) (run_questions_cons hash chainCode message index [] memory)
      (by simp) accepted
  rwa [advance_zero] at found

/-- A refused candidate at the end of the half ends the search in failure. -/
theorem FirstAccepted.nowhere (last : following index = 0)
    (refused : ¬accepts ((hash chainCode.toList (message index)).run memory).1) :
    FirstAccepted hash chainCode message accepts child index memory
      (.error (.rangeExhausted index), ((hash chainCode.toList (message index)).run memory).2) := by
  have index_last := lastOfHalf_eq_self_iff.mpr last
  have exhausted : FirstAccepted hash chainCode message accepts child index memory
      (.error (.rangeExhausted (lastOfHalf index)),
        ((hash chainCode.toList (message index)).run memory).2) := by
    refine .exhausted [((hash chainCode.toList (message index)).run memory).1] _ ?_
      (by simpa using refused)
    rw [last]
    exact run_questions_cons hash chainCode message index [] memory
  rwa [index_last] at exhausted

/-- A refused candidate inside the half hands the search on to the next index. -/
theorem FirstAccepted.later {left : Nat} (room : following index = left + 1)
    (refused : ¬accepts ((hash chainCode.toList (message index)).run memory).1)
    {outcome : Except Error result × state}
    (rest : FirstAccepted hash chainCode message accepts child (index + 1)
      ((hash chainCode.toList (message index)).run memory).2 outcome) :
    FirstAccepted hash chainCode message accepts child index memory outcome := by
  have all_refused : ∀ outputs : List (Bytes 64), (∀ output ∈ outputs, ¬accepts output) →
      ∀ output ∈ ((hash chainCode.toList (message index)).run memory).1 :: outputs,
        ¬accepts output := by
    intro outputs none_accepted
    simpa using ⟨refused, none_accepted⟩
  cases rest with
  | found others accepted after within asked none_accepted is_accepted =>
      rw [following_add_one room] at within
      rw [← advance_succ]
      refine .found (_ :: others) accepted after (by simp only [List.length_cons]; omega) ?_
        (all_refused others none_accepted) is_accepted
      simp only [List.length_cons, consecutive] at asked ⊢
      rw [run_questions_cons]
      simp only [asked, List.cons_append]
  | exhausted others after asked none_accepted =>
      rw [lastOfHalf_add_one room]
      refine .exhausted (_ :: others) after ?_ (all_refused others none_accepted)
      rw [following_add_one room] at asked
      rw [room, consecutive, run_questions_cons]
      simp only [asked]

variable {candidate : ChildIndex → StateM state (Option result)}

theorem runFrom_search_last (last : following index = 0) (memory : state) :
    (search candidate index).runFrom memory =
      match (candidate index).run memory with
      | (some value, after) => (.ok value, after)
      | (none, after) => (.error (.rangeExhausted index), after) := by
  rw [search, last, searchWithin, runFrom_bind, runFrom_liftState]
  rcases (candidate index).run memory with ⟨attempt, after⟩
  cases attempt with
  | none => rfl
  | some value => rfl

theorem runFrom_search_before {left : Nat} (room : following index = left + 1)
    (memory : state) :
    (search candidate index).runFrom memory =
      match (candidate index).run memory with
      | (some value, after) => (.ok value, after)
      | (none, after) => (search candidate (index + 1)).runFrom after := by
  rw [search, search, room, following_add_one room, searchWithin, runFrom_bind,
    runFrom_liftState]
  rcases (candidate index).run memory with ⟨attempt, after⟩
  cases attempt with
  | none => rfl
  | some value => rfl

/--
A search whose candidates ask one question each, and depend on the output alone, ends as
`FirstAccepted` says.
-/
theorem firstAccepted_search (attempt : ChildIndex → Bytes 64 → Option result)
    (asks : ∀ index memory, (candidate index).run memory =
      let answer := (hash chainCode.toList (message index)).run memory
      (attempt index answer.1, answer.2))
    (takes : ∀ index output, accepts output → attempt index output = some (child index output))
    (refuses : ∀ index output, ¬accepts output → attempt index output = none) :
    FirstAccepted hash chainCode message accepts child index memory
      ((search candidate index).runFrom memory) := by
  induction index using half_induction generalizing memory with
  | last index last =>
      rw [runFrom_search_last last, asks]
      by_cases accepted : accepts ((hash chainCode.toList (message index)).run memory).1
      · simp only [takes index _ accepted]
        exact .here accepted
      · simp only [refuses index _ accepted]
        exact .nowhere last accepted
  | before index left room ih =>
      rw [runFrom_search_before room, asks]
      by_cases accepted : accepts ((hash chainCode.toList (message index)).run memory).1
      · simp only [takes index _ accepted]
        exact .here accepted
      · simp only [refuses index _ accepted]
        exact .later room accepted ih

/-- Every index that a search answers with, or fails at, is in the half where it began. -/
theorem ensures_search {good : result → Prop} (index : ChildIndex)
    (goods : ∀ current memory, isHardened current = isHardened index →
      ∀ value ∈ ((candidate current).run memory).1, good value) :
    (search candidate index).Ensures good (· = .rangeExhausted (lastOfHalf index)) := by
  induction index using half_induction with
  | last index last =>
      intro memory
      rw [runFrom_search_last last]
      have value_good := goods index memory rfl
      generalize (candidate index).run memory = answer at value_good ⊢
      rcases answer with ⟨- | value, after⟩
      · exact congrArg Error.rangeExhausted (lastOfHalf_eq_self_iff.mpr last).symm
      · exact value_good value rfl
  | before index left room ih =>
      intro memory
      rw [runFrom_search_before room]
      have value_good := goods index memory rfl
      generalize (candidate index).run memory = answer at value_good ⊢
      rcases answer with ⟨- | value, after⟩
      · -- The next index lies in the same half, so the bound on failures is the same one.
        rw [← lastOfHalf_add_one room]
        rw [← isHardened_add_one room] at goods
        exact ih goods after
      · exact value_good value rfl

/-- Two searches run in lockstep if their candidates do at every index of the half. -/
theorem lockstep_search {related : result → other → Prop}
    {counterpart : ChildIndex → StateM state (Option other)} (index : ChildIndex)
    (candidates : ∀ current memory, isHardened current = isHardened index →
      Option.Rel related ((candidate current).run memory).1 ((counterpart current).run memory).1 ∧
        ((candidate current).run memory).2 = ((counterpart current).run memory).2) :
    Lockstep related (search candidate index) (search counterpart index) := by
  induction index using half_induction with
  | last index last =>
      intro memory
      obtain ⟨pair, same⟩ := candidates index memory rfl
      rw [runFrom_search_last last, runFrom_search_last last]
      generalize (candidate index).run memory = left_answer at pair same ⊢
      generalize (counterpart index).run memory = right_answer at pair same ⊢
      obtain ⟨attempt, after⟩ := left_answer
      obtain ⟨otherAttempt, otherAfter⟩ := right_answer
      obtain rfl : after = otherAfter := same
      cases pair with
      | none => exact ⟨.error _, rfl⟩
      | some pair => exact ⟨.ok pair, rfl⟩
  | before index left room ih =>
      intro memory
      obtain ⟨pair, same⟩ := candidates index memory rfl
      rw [runFrom_search_before room, runFrom_search_before room]
      generalize (candidate index).run memory = left_answer at pair same ⊢
      generalize (counterpart index).run memory = right_answer at pair same ⊢
      obtain ⟨attempt, after⟩ := left_answer
      obtain ⟨otherAttempt, otherAfter⟩ := right_answer
      obtain rfl : after = otherAfter := same
      cases pair with
      | none =>
          rw [← isHardened_add_one room] at candidates
          exact ih candidates after
      | some pair => exact ⟨.ok pair, rfl⟩

/-- A child that was found has an index in the same half as the one asked for, and not before. -/
theorem FirstAccepted.exists_of_ok {after : state} {value : result}
    (ends : FirstAccepted hash chainCode message accepts child index memory (.ok value, after)) :
    ∃ current output, value = child current output ∧
      isHardened current = isHardened index ∧ index ≤ current := by
  cases ends with
  | found refused accepted _ within asked none_accepted is_accepted =>
      refine ⟨_, accepted, rfl, isHardened_advance within, ?_⟩
      rw [UInt32.le_iff_toNat_le, toNat_advance within]
      exact Nat.le_add_right _ _

/-- A search fails exactly if all outputs are refused, and then with the last index. -/
theorem FirstAccepted.eq_error_iff {run : Except Error result × state} {after : state}
    {error : Error}
    (ends : FirstAccepted hash chainCode message accepts child index memory run) :
    run = (.error error, after) ↔
      error = .rangeExhausted (lastOfHalf index) ∧
        Exhausts hash chainCode message accepts index memory after := by
  cases ends with
  | found refused accepted last within asked none_accepted is_accepted =>
      constructor
      · intro failed
        cases failed
      · -- The outputs up to the accepted one are the first of all outputs to the end of the half.
        rintro ⟨-, outputs, all_asked, all_refused⟩
        have count_eq : following index + 1 =
            refused.length + 1 + (following index - refused.length) := by omega
        rw [count_eq, consecutive_add, run_questions_append, asked] at all_asked
        obtain ⟨rfl, -⟩ := Prod.mk.inj all_asked
        exact absurd is_accepted (all_refused accepted (by simp))
  | exhausted refused last asked none_accepted =>
      constructor
      · intro failed
        cases failed
        exact ⟨rfl, refused, asked, none_accepted⟩
      · rintro ⟨rfl, outputs, all_asked, -⟩
        rw [asked] at all_asked
        obtain ⟨-, rfl⟩ := Prod.mk.inj all_asked
        rfl

end Search

end KeyTree.Derivation
