import KeyTree.Text.Radix
import Mathlib.Data.Nat.Digits.Defs

/-!
# Rows of characters as digit strings

The value of a digit string is the number that its digits stand for, the last of them counting once.
The leading zeros of a row that is read digit by digit are the characters in front that are read as
zero, and a row whose items are read as they were written is got back.
-/

namespace KeyTree.Radix

theorem map_map_cancel {item other : Type} {write : item → other} {read : other → item}
    {items : List item} (cancel : ∀ element ∈ items, read (write element) = element) :
    (items.map write).map read = items := by
  rw [List.map_map]
  exact (List.map_congr_left cancel).trans (List.map_id' items)

theorem value_eq_ofDigits (radix : Nat) (digits : List Nat) :
    value radix digits = Nat.ofDigits radix digits.reverse := by
  rw [value, Nat.ofDigits_eq_foldr, List.foldr_reverse]
  congr 1
  funext total next
  rw [Nat.cast_id, Nat.mul_comm, Nat.add_comm]

theorem leadingZeros_map {item : Type} {toDigit : item → Nat} {isZero : item → Bool}
    {items : List item} (agree : ∀ element ∈ items, isZero element = (toDigit element == 0)) :
    leadingZeros (items.map toDigit) = (items.takeWhile isZero).length := by
  induction items with
  | nil => rfl
  | cons first rest ih =>
      have here := agree first List.mem_cons_self
      have later := ih fun element member => agree element (List.mem_cons_of_mem first member)
      rw [leadingZeros] at later ⊢
      rw [List.map_cons, List.takeWhile_cons, List.takeWhile_cons, ← here]
      cases isZero first with
      | false => rfl
      | true => simp only [↓reduceIte, List.length_cons, later]

end KeyTree.Radix
