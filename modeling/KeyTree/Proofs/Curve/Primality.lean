import KeyTree.Proofs.Curve.Multiple
import Mathlib.FieldTheory.Finite.Basic

/-!
# Certificates of primality

A large number is shown to be prime by an element whose powers have a large known order modulo each
of its prime divisors.  The order divides the predecessor of such a divisor, so that the divisor is
too large to leave room for a second one.  A list of certificates can be checked by computation.
-/

namespace KeyTree

/-- A number, a base for powers modulo it, and primes whose product divides its predecessor. -/
structure Certificate where
  /-- The number that is to be prime. -/
  number : Nat
  /-- The base of the powers. -/
  base : Nat
  /-- The known prime factors of the predecessor. -/
  factors : List Nat

namespace Certificate

/-- A power modulo a number, for exponents of at most 256 binary digits. -/
def powerMod (modulus base exponent : Nat) : Nat :=
  multipleWithin (fun left right => left * right % modulus) 1 base 256 exponent % modulus

/-- No number below 64 divides the number, and the number is below the square of 64. -/
def isSmallPrime (number : Nat) : Bool :=
  2 ≤ number && number < 4096 &&
    (List.range 62).all fun divisor => divisor + 2 == number || number % (divisor + 2) != 0

/-- The certificate shows that its number is prime, given primes that are known or small. -/
def check (known : List Nat) (certificate : Certificate) : Bool :=
  let ⟨number, base, factors⟩ := certificate
  1 < number && number < 2 ^ 256 &&
    number < (factors.prod + 1) * (factors.prod + 1) && (number - 1) % factors.prod == 0 &&
    powerMod number base (number - 1) == 1 &&
    factors.all fun factor => (known.contains factor || isSmallPrime factor) &&
      Nat.gcd (powerMod number base ((number - 1) / factor) - 1) number == 1

/-- All certificates hold, each given the numbers of those before it. -/
def checkAll : List Nat → List Certificate → Bool
  | _, [] => true
  | known, certificate :: rest =>
      certificate.check known && checkAll (certificate.number :: known) rest

theorem powerMod_eq {modulus exponent : Nat} (base : Nat) (fits : exponent < 2 ^ 256) :
    powerMod modulus base exponent = base ^ exponent % modulus := by
  rw [powerMod, ← multiple_eq_multipleWithin fits]
  refine multiple_induction (motive := fun count value => value % modulus = base ^ count % modulus)
    rfl (by rw [pow_one]) ?_ exponent
  intro first second left right left_eq right_eq
  rw [Nat.mod_mod, Nat.mul_mod, left_eq, right_eq, ← Nat.mul_mod, pow_add]

theorem prime_of_isSmallPrime {number : Nat} (small : isSmallPrime number = true) :
    number.Prime := by
  simp only [isSmallPrime, Bool.and_eq_true, decide_eq_true_eq, List.all_eq_true,
    List.mem_range, Bool.or_eq_true, beq_iff_eq, bne_iff_ne, ne_eq] at small
  obtain ⟨⟨large, below⟩, undivided⟩ := small
  by_contra composite
  have square := Nat.minFac_sq_le_self (by omega) composite
  have divides := Nat.minFac_dvd number
  have prime := Nat.minFac_prime (n := number) (by omega)
  have two_le := prime.two_le
  have divisor_lt : number.minFac < 64 := by nlinarith
  have divisor_eq : number.minFac - 2 + 2 = number.minFac := by omega
  rcases undivided (number.minFac - 2) (by omega) with same | remainder
  · rw [divisor_eq] at same
    exact composite (same ▸ prime)
  · rw [divisor_eq] at remainder
    exact remainder (Nat.mod_eq_zero_of_dvd divides)

/-- A remainder of a power that is one modulo a divisor is one away from a multiple of it. -/
theorem dvd_remainder_sub_one {number divisor base exponent : Nat} (divides : divisor ∣ number)
    (power_eq : (base : ZMod divisor) ^ exponent = 1) :
    divisor ∣ base ^ exponent % number - 1 := by
  have remainder_eq : ((base ^ exponent % number : Nat) : ZMod divisor) = 1 := by
    rw [← power_eq, ← Nat.cast_pow, ZMod.natCast_eq_natCast_iff', Nat.mod_mod_of_dvd _ divides]
  rcases Nat.eq_zero_or_pos (base ^ exponent % number) with zero | positive
  · rw [zero]
    exact dvd_zero divisor
  · rw [← ZMod.natCast_eq_zero_iff, Nat.cast_sub positive, remainder_eq, Nat.cast_one, sub_self]

section Divisor

variable {number base divisor : Nat} {factors : List Nat}

/--
Modulo a prime divisor, the power of the base that is left over has the known factors as its order.
-/
theorem orderOf_base_pow (one_lt : 1 < number) (divides : factors.prod ∣ number - 1)
    (primes : ∀ factor ∈ factors, factor.Prime) (power_eq : base ^ (number - 1) % number = 1)
    (coprime : ∀ factor ∈ factors,
      Nat.Coprime (base ^ ((number - 1) / factor) % number - 1) number)
    (prime : divisor.Prime) (divisor_dvd : divisor ∣ number) :
    orderOf ((base : ZMod divisor) ^ ((number - 1) / factors.prod)) = factors.prod := by
  have predecessor_eq : (number - 1) / factors.prod * factors.prod = number - 1 :=
    Nat.div_mul_cancel divides
  have product_pos : 0 < factors.prod := by
    apply Nat.pos_of_ne_zero
    intro zero
    rw [zero, mul_zero] at predecessor_eq
    omega
  refine orderOf_eq_of_pow_and_pow_div_prime product_pos ?_ ?_
  · have one_eq : ((base ^ (number - 1) : Nat) : ZMod divisor) = (1 : Nat) := by
      rw [ZMod.natCast_eq_natCast_iff', ← Nat.mod_mod_of_dvd _ divisor_dvd, power_eq]
    rw [← pow_mul, predecessor_eq, ← Nat.cast_pow, one_eq, Nat.cast_one]
  · intro factor factor_prime factor_dvd power_one
    obtain ⟨listed, member, factor_dvd_listed⟩ :=
      (Prime.dvd_prod_iff factor_prime.prime).mp factor_dvd
    obtain rfl : factor = listed :=
      (Nat.prime_dvd_prime_iff_eq factor_prime (primes listed member)).mp factor_dvd_listed
    have exponent_eq : (number - 1) / factors.prod * (factors.prod / factor) =
        (number - 1) / factor := by
      rw [← Nat.mul_div_assoc _ factor_dvd, predecessor_eq]
    rw [← pow_mul, exponent_eq] at power_one
    have common := Nat.dvd_gcd (dvd_remainder_sub_one divisor_dvd power_one) divisor_dvd
    rw [coprime factor member] at common
    exact prime.one_lt.ne' (Nat.dvd_one.mp common)

/-- A number that passes the check has no prime divisor up to its square root. -/
theorem prime_of_coprime (one_lt : 1 < number) (divides : factors.prod ∣ number - 1)
    (large : number < (factors.prod + 1) * (factors.prod + 1))
    (primes : ∀ factor ∈ factors, factor.Prime) (power_eq : base ^ (number - 1) % number = 1)
    (coprime : ∀ factor ∈ factors,
      Nat.Coprime (base ^ ((number - 1) / factor) % number - 1) number) : number.Prime := by
  by_contra composite
  have prime := Nat.minFac_prime (Nat.ne_of_gt one_lt)
  have divisor_dvd := Nat.minFac_dvd number
  have square := Nat.minFac_sq_le_self (Nat.lt_of_succ_lt one_lt) composite
  have : Fact number.minFac.Prime := ⟨prime⟩
  have order_eq := orderOf_base_pow one_lt divides primes power_eq coprime prime divisor_dvd
  have nonzero : ((base : ZMod number.minFac) ^ ((number - 1) / factors.prod)) ≠ 0 := by
    intro zero
    have product_ne : factors.prod ≠ 0 := by
      rintro product_eq
      rw [product_eq] at large
      omega
    have power_one :=
      pow_orderOf_eq_one ((base : ZMod number.minFac) ^ ((number - 1) / factors.prod))
    rw [order_eq, zero, zero_pow product_ne] at power_one
    exact zero_ne_one power_one
  -- The order divides the predecessor of the least divisor, whose square is then too large.
  have order_dvd := ZMod.orderOf_dvd_card_sub_one nonzero
  rw [order_eq] at order_dvd
  have order_le := Nat.le_of_dvd (Nat.sub_pos_of_lt prime.one_lt) order_dvd
  have product_lt : factors.prod + 1 ≤ number.minFac := by
    have := prime.one_lt
    omega
  nlinarith

end Divisor

/-- A number whose certificate holds is prime. -/
theorem prime_of_check {known : List Nat} (known_primes : ∀ number ∈ known, number.Prime)
    {certificate : Certificate} (checked : certificate.check known = true) :
    certificate.number.Prime := by
  obtain ⟨number, base, factors⟩ := certificate
  simp only [check, Bool.and_eq_true, Bool.or_eq_true, decide_eq_true_eq, beq_iff_eq,
    List.all_eq_true, List.contains_eq_mem] at checked
  obtain ⟨⟨⟨⟨⟨one_lt, fits⟩, large⟩, divides⟩, power_eq⟩, factors_checked⟩ := checked
  rw [powerMod_eq base (by omega)] at power_eq
  refine prime_of_coprime one_lt (Nat.dvd_of_mod_eq_zero divides) large ?_ power_eq ?_
  · intro factor member
    rcases (factors_checked factor member).1 with listed | small
    · exact known_primes factor listed
    · exact prime_of_isSmallPrime small
  · intro factor member
    have coprime := (factors_checked factor member).2
    have exponent_le := Nat.div_le_self (number - 1) factor
    rwa [powerMod_eq base (by omega)] at coprime

/-- All numbers are prime if all certificates hold. -/
theorem prime_of_checkAll {known : List Nat} (known_primes : ∀ number ∈ known, number.Prime)
    {certificates : List Certificate} (checked : checkAll known certificates = true) {number : Nat}
    (listed : number ∈ certificates.map Certificate.number) : number.Prime := by
  induction certificates generalizing known with
  | nil => contradiction
  | cons certificate rest ih =>
      simp only [checkAll, Bool.and_eq_true] at checked
      have prime := prime_of_check known_primes checked.1
      rcases List.mem_cons.mp listed with rfl | later
      · exact prime
      · refine ih ?_ checked.2 later
        simpa using ⟨prime, known_primes⟩

end Certificate

end KeyTree
