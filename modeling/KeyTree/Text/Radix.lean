/-!
# Change of radix

A digit string stands for its value together with the number of its leading zeros.  Going from one
radix to another keeps both, so going back gives the digit string that one started from.
-/

namespace KeyTree.Radix

/-- The value of a digit string, most significant digit first. -/
def value (radix : Nat) (digits : List Nat) : Nat :=
  digits.foldl (fun total digit => total * radix + digit) 0

/-- The digits of a number, least significant first, and none of them for zero. -/
def lowFirst (radix number : Nat) : List Nat :=
  if number = 0 ∨ radix < 2 then []
  else number % radix :: lowFirst radix (number / radix)
termination_by number
decreasing_by exact Nat.div_lt_self (by omega) (by omega)

/-- The number of zeros that a digit string starts with. -/
def leadingZeros (digits : List Nat) : Nat :=
  (digits.takeWhile (· == 0)).length

/-- The digit string in another radix with the same value and as many leading zeros. -/
def convert (source target : Nat) (digits : List Nat) : List Nat :=
  List.replicate (leadingZeros digits) 0 ++ (lowFirst target (value source digits)).reverse

/-! ### Reading the digits of a number gives the number back -/

theorem value_append_singleton (radix : Nat) (digits : List Nat) (digit : Nat) :
    value radix (digits ++ [digit]) = value radix digits * radix + digit := by
  simp [value]

theorem value_replicate_zero_append (radix count : Nat) (digits : List Nat) :
    value radix (List.replicate count 0 ++ digits) = value radix digits := by
  induction count with
  | zero => rfl
  | succ count ih => simpa [value, List.replicate_succ] using ih

theorem value_reverse_lowFirst {radix : Nat} (radix_large : 2 ≤ radix) (number : Nat) :
    value radix (lowFirst radix number).reverse = number := by
  induction number using Nat.strongRecOn with
  | ind number ih =>
      unfold lowFirst
      by_cases zero : number = 0
      · simp [zero, value]
      · have smaller : number / radix < number := Nat.div_lt_self (by omega) (by omega)
        rw [if_neg (by omega), List.reverse_cons, value_append_singleton, ih _ smaller,
          Nat.mul_comm]
        exact Nat.div_add_mod number radix

theorem lt_of_mem_lowFirst {radix : Nat} (radix_large : 2 ≤ radix) {number digit : Nat}
    (member : digit ∈ lowFirst radix number) : digit < radix := by
  induction number using Nat.strongRecOn with
  | ind number ih =>
      unfold lowFirst at member
      split at member
      · contradiction
      · next nonzero =>
          have smaller : number / radix < number := Nat.div_lt_self (by omega) (by omega)
          rcases List.mem_cons.mp member with rfl | later
          · exact Nat.mod_lt _ (by omega)
          · exact ih _ smaller later

/-! ### The digits of a value are the digits that one started from -/

theorem value_cons_pos {radix : Nat} (radix_pos : 0 < radix) (digits : List Nat) {digit : Nat}
    (nonzero : digit ≠ 0) : 0 < value radix (digit :: digits) := by
  suffices general : ∀ (digits : List Nat) (total : Nat), 0 < total →
      0 < digits.foldl (fun total digit => total * radix + digit) total by
    exact general digits _ (by simp; omega)
  intro digits
  induction digits with
  | nil => exact fun _ positive => positive
  | cons next rest ih =>
      intro total positive
      exact ih _ (Nat.add_pos_left (Nat.mul_pos positive radix_pos) _)

theorem lowFirst_value {radix : Nat} (radix_large : 2 ≤ radix) {digits : List Nat}
    (small : ∀ digit ∈ digits, digit < radix) (canonical : digits.head? ≠ some 0) :
    lowFirst radix (value radix digits) = digits.reverse := by
  induction reversed : digits.reverse generalizing digits with
  | nil =>
      obtain rfl : digits = [] := by simpa using reversed
      simp [value, lowFirst]
  | cons last initial ih =>
      obtain rfl : digits = initial.reverse ++ [last] := by
        rw [← List.reverse_inj, reversed]
        simp
      have last_small : last < radix := small last (by simp)
      have initial_value : lowFirst radix (value radix initial.reverse) = initial := by
        refine ih (fun digit member => small digit (by simp_all)) ?_ (by simp)
        intro leading
        apply canonical
        cases shape : initial.reverse with
        | nil => simp [shape] at leading
        | cons first rest => simpa [shape] using leading
      have quotient :
          (value radix initial.reverse * radix + last) / radix = value radix initial.reverse := by
        rw [Nat.add_comm, Nat.add_mul_div_right _ _ (by omega), Nat.div_eq_of_lt last_small,
          Nat.zero_add]
      have remainder : (value radix initial.reverse * radix + last) % radix = last := by
        rw [Nat.add_comm, Nat.add_mul_mod_self_right, Nat.mod_eq_of_lt last_small]
      have positive : 0 < value radix (initial.reverse ++ [last]) := by
        cases shape : initial.reverse ++ [last] with
        | nil => simp at shape
        | cons first rest =>
            refine value_cons_pos (by omega) rest ?_
            rintro rfl
            exact canonical (by rw [shape]; rfl)
      rw [lowFirst, if_neg (by omega), value_append_singleton, quotient, remainder, initial_value]

theorem takeWhile_zero_eq_replicate (digits : List Nat) :
    digits.takeWhile (· == 0) = List.replicate (leadingZeros digits) 0 := by
  rw [List.eq_replicate_iff]
  refine ⟨rfl, fun digit member => ?_⟩
  simpa using List.all_eq_true.mp (List.all_takeWhile (p := (· == 0)) (l := digits)) digit member

theorem leadingZeros_replicate_append (count : Nat) {digits : List Nat}
    (canonical : digits.head? ≠ some 0) :
    leadingZeros (List.replicate count 0 ++ digits) = count := by
  induction count with
  | zero =>
      cases digits with
      | nil => rfl
      | cons digit rest =>
          have nonzero : digit ≠ 0 := by simpa using canonical
          simp [leadingZeros, nonzero]
  | succ count ih => simpa [leadingZeros, List.replicate_succ] using ih

theorem head?_dropWhile_zero_ne (digits : List Nat) :
    (digits.dropWhile (· == 0)).head? ≠ some 0 := by
  intro leading
  have kept := List.head?_dropWhile_not (· == 0) digits
  simp [leading] at kept

theorem head?_reverse_lowFirst_ne (radix number : Nat) :
    (lowFirst radix number).reverse.head? ≠ some 0 := by
  rw [List.head?_reverse]
  induction number using Nat.strongRecOn with
  | ind number ih =>
      unfold lowFirst
      split
      · simp
      · next nonzero =>
          have smaller : number / radix < number := Nat.div_lt_self (by omega) (by omega)
          rw [List.getLast?_cons]
          cases shape : (lowFirst radix (number / radix)).getLast? with
          | some digit =>
              have later := ih _ smaller
              rw [shape] at later
              simpa using later
          | none =>
              rw [List.getLast?_eq_none_iff] at shape
              have quotient : number / radix = 0 := by
                unfold lowFirst at shape
                split at shape
                · next stop => exact stop.resolve_right (by omega)
                · contradiction
              have remainder := Nat.div_add_mod number radix
              rw [quotient, Nat.mul_zero, Nat.zero_add] at remainder
              simp only [Option.getD_none, remainder]
              simp
              omega

/-! ### The digit string in another radix is the one with this value and these leading zeros -/

theorem value_convert (source : Nat) {target : Nat} (target_large : 2 ≤ target)
    (digits : List Nat) : value target (convert source target digits) = value source digits := by
  rw [convert, value_replicate_zero_append, value_reverse_lowFirst target_large]

theorem leadingZeros_convert (source target : Nat) (digits : List Nat) :
    leadingZeros (convert source target digits) = leadingZeros digits :=
  leadingZeros_replicate_append _ (head?_reverse_lowFirst_ne target (value source digits))

theorem convert_self {radix : Nat} (radix_large : 2 ≤ radix) {digits : List Nat}
    (small : ∀ digit ∈ digits, digit < radix) : convert radix radix digits = digits := by
  have split_zeros : digits = List.replicate (leadingZeros digits) 0 ++
      digits.dropWhile (· == 0) := by
    rw [← takeWhile_zero_eq_replicate, List.takeWhile_append_dropWhile]
  have value_eq : value radix digits = value radix (digits.dropWhile (· == 0)) :=
    (congrArg (value radix) split_zeros).trans (value_replicate_zero_append _ _ _)
  have small_rest : ∀ digit ∈ digits.dropWhile (· == 0), digit < radix :=
    fun digit member => small digit (List.dropWhile_sublist _ |>.mem member)
  have restored := lowFirst_value radix_large small_rest (head?_dropWhile_zero_ne digits)
  rw [convert, value_eq, restored, List.reverse_reverse]
  exact split_zeros.symm

/-- The digits in another radix are the only ones with the same value and as many leading zeros. -/
theorem eq_convert_iff {source target : Nat} (target_large : 2 ≤ target) {digits other : List Nat}
    (small : ∀ digit ∈ digits, digit < target) :
    digits = convert source target other ↔
      value target digits = value source other ∧ leadingZeros digits = leadingZeros other := by
  constructor
  · rintro rfl
    exact ⟨value_convert source target_large other, leadingZeros_convert source target other⟩
  · rintro ⟨value_eq, zeros_eq⟩
    have restored := convert_self target_large small
    rw [convert, value_eq, zeros_eq] at restored
    exact restored.symm

/-- Going to another radix and back restores a digit string. -/
theorem convert_convert {source target : Nat} (source_large : 2 ≤ source)
    (target_large : 2 ≤ target) {digits : List Nat} (small : ∀ digit ∈ digits, digit < source) :
    convert target source (convert source target digits) = digits :=
  ((eq_convert_iff source_large small).mpr
    ⟨(value_convert source target_large digits).symm,
      (leadingZeros_convert source target digits).symm⟩).symm

theorem lt_of_mem_convert {source target : Nat} (target_large : 2 ≤ target)
    {digits : List Nat} {digit : Nat} (member : digit ∈ convert source target digits) :
    digit < target := by
  rcases List.mem_append.mp member with zero | later
  · have := List.eq_of_mem_replicate zero
    omega
  · exact lt_of_mem_lowFirst target_large (List.mem_reverse.mp later)

end KeyTree.Radix
