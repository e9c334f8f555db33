import KeyTree.Derivation.KeyedHash
import Mathlib.Data.List.Basic

/-!
# Runs of derivations

A derivation runs from a state of the keyed hash to an outcome and a state.  This file has the
equations of such runs and two ways to reason about them: `Ensures` bounds the outcomes of one
derivation, and `Lockstep` relates two derivations that ask the keyed hash the same questions.  Both
pass through binds and through folds over a path.
-/

namespace KeyTree.Derivation

variable {state result next other otherNext item : Type}

/-- The outcome of a derivation from a state of the keyed hash, and the state after it. -/
def runFrom (derivation : Derivation state result) (memory : state) :
    Except Error result × state :=
  derivation.run memory

@[simp]
theorem runFrom_pure (value : result) (memory : state) :
    (pure value : Derivation state result).runFrom memory = (.ok value, memory) := rfl

@[simp]
theorem runFrom_throw (error : Error) (memory : state) :
    (throw error : Derivation state result).runFrom memory = (.error error, memory) := rfl

@[simp]
theorem runFrom_lift (outcome : Except Error result) (memory : state) :
    (liftM outcome : Derivation state result).runFrom memory = (outcome, memory) := rfl

@[simp]
theorem runFrom_liftState (question : StateM state result) (memory : state) :
    (liftM question : Derivation state result).runFrom memory =
      (.ok (question.run memory).1, (question.run memory).2) := rfl

theorem runFrom_bind (derivation : Derivation state result)
    (continuation : result → Derivation state next) (memory : state) :
    (derivation >>= continuation).runFrom memory =
      match derivation.runFrom memory with
      | (.ok value, after) => (continuation value).runFrom after
      | (.error error, after) => (.error error, after) := by
  simp only [runFrom, ExceptT.run, bind, ExceptT.bind, ExceptT.mk, StateT.bind, ExceptT.bindCont]
  rcases derivation memory with ⟨outcome, after⟩
  cases outcome <;> rfl

theorem lift_bind (outcome : Except Error result) (continuation : result → Except Error next) :
    (liftM (outcome >>= continuation) : Derivation state next) =
      liftM outcome >>= fun value => liftM (continuation value) := by
  cases outcome <;> rfl

theorem lift_map (outcome : Except Error result) (change : result → next) :
    (liftM (outcome.map change) : Derivation state next) =
      liftM outcome >>= fun value => pure (change value) := by
  cases outcome <;> rfl

theorem exists_of_isOk {outcome : Except Error result} (succeeds : outcome.isOk = true) :
    ∃ value, outcome = .ok value := by
  cases outcome with
  | ok value => exact ⟨value, rfl⟩
  | error error => cases succeeds

theorem ok_of_bind {failure : Type} {outcome : Except failure result}
    {continuation : result → Except failure next} {value : next}
    (run : outcome >>= continuation = .ok value) :
    ∃ middle, outcome = .ok middle ∧ continuation middle = .ok value := by
  cases outcome with
  | ok middle => exact ⟨middle, rfl, run⟩
  | error error => cases run

theorem ok_of_map {outcome : Except Error result} {change : result → next} {value : next}
    (run : outcome.map change = .ok value) :
    ∃ middle, outcome = .ok middle ∧ change middle = value := by
  cases outcome with
  | ok middle => exact ⟨middle, rfl, Except.ok.inj run⟩
  | error error => cases run

theorem ok_of_mapError {failure other : Type} {outcome : Except failure result}
    {change : failure → other} {value : result} (run : outcome.mapError change = .ok value) :
    outcome = .ok value := by
  cases outcome with
  | ok found => exact congrArg Except.ok (Except.ok.inj run)
  | error failure => cases run

/-- A run that succeeds passes through a success of its first part. -/
theorem ok_of_runFrom_bind {derivation : Derivation state result}
    {continuation : result → Derivation state next} {memory after : state} {value : next}
    (run : (derivation >>= continuation).runFrom memory = (.ok value, after)) :
    ∃ middle between, derivation.runFrom memory = (.ok middle, between) ∧
      (continuation middle).runFrom between = (.ok value, after) := by
  rw [runFrom_bind] at run
  rcases first : derivation.runFrom memory with ⟨outcome, between⟩
  rw [first] at run
  cases outcome with
  | ok middle => exact ⟨middle, between, rfl, run⟩
  | error error => simp at run

/-- A run in which only a result is changed fails as its first part does. -/
theorem runFrom_bind_pure_eq_error_iff {derivation : Derivation state result}
    {change : result → next} {memory after : state} {error : Error} :
    (derivation >>= fun value => pure (change value)).runFrom memory = (.error error, after) ↔
      derivation.runFrom memory = (.error error, after) := by
  rw [runFrom_bind]
  rcases derivation.runFrom memory with ⟨outcome, last⟩
  cases outcome with
  | ok value => simp
  | error failure => simp

/-- A change of the result leaves the state of the keyed hash alone. -/
theorem after_bind_pure (derivation : Derivation state result) (change : result → next)
    (memory : state) :
    ((derivation >>= fun value => pure (change value)).runFrom memory).2 =
      (derivation.runFrom memory).2 := by
  rw [runFrom_bind]
  rcases derivation.runFrom memory with ⟨outcome, after⟩
  cases outcome with
  | ok value => rfl
  | error error => rfl

/-- A run along a list that succeeds takes its last step where the rest of the list has led. -/
theorem ok_of_runFrom_foldlM_concat {step : result → item → Derivation state result}
    {items : List item} {last : item} {start value : result} {memory after : state}
    (run : ((items ++ [last]).foldlM step start).runFrom memory = (.ok value, after)) :
    ∃ middle between, (items.foldlM step start).runFrom memory = (.ok middle, between) ∧
      (step middle last).runFrom between = (.ok value, after) := by
  rw [List.foldlM_append] at run
  obtain ⟨middle, between, first, run⟩ := ok_of_runFrom_bind run
  rw [List.foldlM_cons] at run
  obtain ⟨_, _, stepped, done⟩ := ok_of_runFrom_bind run
  rw [List.foldlM_nil, runFrom_pure] at done
  cases done
  exact ⟨middle, between, first, stepped⟩

theorem outcome_eq (derivation : Derivation Unit result) :
    derivation.outcome = (derivation.runFrom ()).1 := rfl

theorem outcome_bind (derivation : Derivation Unit result)
    (continuation : result → Derivation Unit next) :
    (derivation >>= continuation).outcome =
      derivation.outcome >>= fun value => (continuation value).outcome := by
  rw [outcome_eq, runFrom_bind, outcome_eq]
  rcases derivation.runFrom () with ⟨outcome, -⟩
  cases outcome <;> rfl

theorem outcome_foldlM (step : result → item → Derivation Unit result) (items : List item)
    (start : result) :
    (items.foldlM step start).outcome =
      items.foldlM (fun value element => (step value element).outcome) start := by
  induction items generalizing start with
  | nil => rfl
  | cons element items ih =>
      rw [List.foldlM_cons, List.foldlM_cons, outcome_bind]
      simp only [ih]

/-! ## Bounds on the outcomes -/

/-- From every state, a success is good and a failure is tolerated. -/
def Ensures (derivation : Derivation state result) (good : result → Prop)
    (tolerated : Error → Prop) : Prop :=
  ∀ memory, match (derivation.runFrom memory).1 with
    | .ok value => good value
    | .error error => tolerated error

section Ensures

variable {good : result → Prop} {tolerated : Error → Prop}

theorem Ensures.pure {value : result} (value_good : good value) :
    (Pure.pure value : Derivation state result).Ensures good tolerated :=
  fun _ => value_good

theorem Ensures.throw {error : Error} (error_tolerated : tolerated error) :
    (MonadExcept.throw error : Derivation state result).Ensures good tolerated :=
  fun _ => error_tolerated

theorem Ensures.mono {derivation : Derivation state result} {allowed : Error → Prop}
    (ensures : derivation.Ensures good tolerated)
    (implied : ∀ error, tolerated error → allowed error) : derivation.Ensures good allowed := by
  intro memory
  have bound := ensures memory
  rcases outcome : (derivation.runFrom memory).1 with error | value
  · rw [outcome] at bound
    exact implied error bound
  · simpa only [outcome] using bound

theorem Ensures.imp {derivation : Derivation state result} {better : result → Prop}
    (ensures : derivation.Ensures good tolerated) (implied : ∀ value, good value → better value) :
    derivation.Ensures better tolerated := by
  intro memory
  have bound := ensures memory
  rcases outcome : (derivation.runFrom memory).1 with error | value
  · simpa only [outcome] using bound
  · rw [outcome] at bound
    exact implied value bound

theorem Ensures.bind {derivation : Derivation state result}
    {continuation : result → Derivation state next} {goodNext : next → Prop}
    (first : derivation.Ensures good tolerated)
    (second : ∀ value, good value → (continuation value).Ensures goodNext tolerated) :
    (derivation >>= continuation).Ensures goodNext tolerated := by
  intro memory
  have bound := first memory
  rw [runFrom_bind]
  rcases run : derivation.runFrom memory with ⟨outcome, after⟩
  rw [run] at bound
  cases outcome with
  | ok value => exact second value bound after
  | error error => exact bound

/-- Of any derivation it can be said that it ends. -/
theorem Ensures.anything (derivation : Derivation state result) :
    derivation.Ensures (fun _ => True) (fun _ => True) := by
  intro memory
  cases (derivation.runFrom memory).1 with
  | ok value => trivial
  | error error => trivial

theorem Ensures.lift (outcome : Except Error result) :
    (liftM outcome : Derivation state result).Ensures (outcome = .ok ·) (outcome = .error ·) := by
  intro memory
  rw [runFrom_lift]
  cases outcome with
  | ok value => rfl
  | error error => rfl

/-- What every step of a fold preserves holds at its end. -/
theorem Ensures.foldlM {step : result → item → Derivation state result} {items : List item}
    {start : result} (start_good : good start)
    (steps : ∀ value, good value → ∀ element ∈ items,
      (step value element).Ensures good tolerated) :
    (items.foldlM step start).Ensures good tolerated := by
  induction items generalizing start with
  | nil => exact .pure start_good
  | cons element items ih =>
      rw [List.foldlM_cons]
      refine .bind (steps start start_good element List.mem_cons_self) fun value value_good => ?_
      exact ih value_good fun later later_good other member =>
        steps later later_good other (List.mem_cons_of_mem element member)

/-- What every step of a fold counts up by one counts the steps at its end. -/
theorem Ensures.foldlM_count (count : result → Nat)
    {step : result → item → Derivation state result}
    (steps : ∀ value element,
      (step value element).Ensures (fun later => count later = count value + 1) tolerated)
    (items : List item) (start : result) :
    (items.foldlM step start).Ensures (fun last => count last = count start + items.length)
      tolerated := by
  induction items generalizing start with
  | nil => exact .pure rfl
  | cons element items ih =>
      rw [List.foldlM_cons]
      refine .bind (steps start element) fun value value_count => ?_
      refine (ih value).imp fun last last_count => ?_
      rw [last_count, value_count, List.length_cons]
      omega

theorem Ensures.of_ok {derivation : Derivation state result}
    (ensures : derivation.Ensures good tolerated) {memory after : state} {value : result}
    (run : derivation.runFrom memory = (.ok value, after)) : good value := by
  simpa only [run] using ensures memory

theorem Ensures.of_outcome {derivation : Derivation Unit result}
    (ensures : derivation.Ensures good tolerated) {value : result}
    (found : derivation.outcome = .ok value) : good value := by
  have bound := ensures ()
  rwa [← Derivation.outcome_eq, found] at bound

end Ensures

/-! ## Two derivations in step with each other -/

/-- Two outcomes agree if both are the same failure, or both are successes with related results. -/
inductive Agree (related : result → other → Prop) :
    Except Error result → Except Error other → Prop where
  | ok {value : result} {counterpart : other} (pair : related value counterpart) :
      Agree related (.ok value) (.ok counterpart)
  | error (error : Error) : Agree related (.error error) (.error error)

theorem Agree.refl (outcome : Except Error result) : Agree Eq outcome outcome := by
  cases outcome with
  | ok value => exact .ok rfl
  | error error => exact .error error

theorem Agree.imp {related weaker : result → other → Prop} {outcome : Except Error result}
    {counterpart : Except Error other} (agree : Agree related outcome counterpart)
    (implied : ∀ value otherValue, related value otherValue → weaker value otherValue) :
    Agree weaker outcome counterpart := by
  cases agree with
  | ok pair => exact .ok (implied _ _ pair)
  | error error => exact .error error

theorem Agree.eq {outcome counterpart : Except Error result}
    (agree : Agree Eq outcome counterpart) : outcome = counterpart := by
  cases agree with
  | ok same => exact congrArg Except.ok same
  | error error => rfl

/-- From every state, two derivations reach agreeing outcomes and the same state. -/
def Lockstep (related : result → other → Prop) (left : Derivation state result)
    (right : Derivation state other) : Prop :=
  ∀ memory, Agree related (left.runFrom memory).1 (right.runFrom memory).1 ∧
    (left.runFrom memory).2 = (right.runFrom memory).2

section Lockstep

variable {related : result → other → Prop}

theorem Lockstep.refl (derivation : Derivation state result) :
    Lockstep Eq derivation derivation :=
  fun memory => ⟨.refl (derivation.runFrom memory).1, rfl⟩

theorem Lockstep.pure {value : result} {counterpart : other} (pair : related value counterpart) :
    Lockstep related (Pure.pure value : Derivation state result) (Pure.pure counterpart) :=
  fun _ => ⟨.ok pair, rfl⟩

theorem Lockstep.throw (error : Error) :
    Lockstep related (MonadExcept.throw error : Derivation state result)
      (MonadExcept.throw error) :=
  fun _ => ⟨.error error, rfl⟩

theorem Lockstep.bind {relatedNext : next → otherNext → Prop} {left : Derivation state result}
    {right : Derivation state other} {leftNext : result → Derivation state next}
    {rightNext : other → Derivation state otherNext} (first : Lockstep related left right)
    (second : ∀ value counterpart, related value counterpart →
      Lockstep relatedNext (leftNext value) (rightNext counterpart)) :
    Lockstep relatedNext (left >>= leftNext) (right >>= rightNext) := by
  intro memory
  obtain ⟨agree, same⟩ := first memory
  rw [runFrom_bind, runFrom_bind]
  rcases leftRun : left.runFrom memory with ⟨outcome, after⟩
  rcases rightRun : right.runFrom memory with ⟨otherOutcome, otherAfter⟩
  rw [leftRun, rightRun] at agree same
  obtain rfl : after = otherAfter := same
  cases agree with
  | ok pair => exact second _ _ pair after
  | error error => exact ⟨.error error, rfl⟩

/-- Two folds over the same list stay in step if their steps do. -/
theorem Lockstep.foldlM {leftStep : result → item → Derivation state result}
    {rightStep : other → item → Derivation state other} {items : List item} {start : result}
    {otherStart : other} (starts : related start otherStart)
    (steps : ∀ value counterpart, related value counterpart → ∀ element ∈ items,
      Lockstep related (leftStep value element) (rightStep counterpart element)) :
    Lockstep related (items.foldlM leftStep start) (items.foldlM rightStep otherStart) := by
  induction items generalizing start otherStart with
  | nil => exact .pure starts
  | cons element items ih =>
      rw [List.foldlM_cons, List.foldlM_cons]
      refine .bind (steps start otherStart starts element List.mem_cons_self) ?_
      intro value counterpart pair
      exact ih pair fun later otherLater laterPair another member =>
        steps later otherLater laterPair another (List.mem_cons_of_mem element member)

/-- A derivation is in lockstep with itself, and what it ensures holds of its result. -/
theorem Ensures.lockstep {good : result → Prop} {tolerated : Error → Prop}
    {derivation : Derivation state result} (ensures : derivation.Ensures good tolerated) :
    Lockstep (fun value counterpart => value = counterpart ∧ good value) derivation derivation := by
  intro memory
  have bound := ensures memory
  refine ⟨?_, rfl⟩
  cases outcome : (derivation.runFrom memory).1 with
  | error error => exact .error error
  | ok value =>
      rw [outcome] at bound
      exact .ok ⟨rfl, bound⟩

/-- Derivations that are in lockstep up to equality are the same. -/
theorem Lockstep.eq {left right : Derivation state result} (lockstep : Lockstep Eq left right) :
    left = right := by
  funext memory
  obtain ⟨agree, same⟩ := lockstep memory
  exact Prod.ext agree.eq same

/-- Two derivations in lockstep fail together, or succeed together. -/
theorem Lockstep.both {left : Derivation state result} {right : Derivation state other}
    (lockstep : Lockstep related left right) (memory : state) :
    (∃ error after, left.runFrom memory = (.error error, after) ∧
      right.runFrom memory = (.error error, after)) ∨
    ∃ value counterpart after, left.runFrom memory = (.ok value, after) ∧
      right.runFrom memory = (.ok counterpart, after) ∧ related value counterpart := by
  obtain ⟨agree, same⟩ := lockstep memory
  rcases leftRun : left.runFrom memory with ⟨outcome, after⟩
  rcases rightRun : right.runFrom memory with ⟨otherOutcome, otherAfter⟩
  rw [leftRun, rightRun] at agree same
  obtain rfl : after = otherAfter := same
  cases agree with
  | ok pair => exact .inr ⟨_, _, after, rfl, rfl, pair⟩
  | error error => exact .inl ⟨error, after, rfl, rfl⟩

end Lockstep

end KeyTree.Derivation
