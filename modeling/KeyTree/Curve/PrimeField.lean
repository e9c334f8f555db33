import KeyTree.Curve.Multiple

/-!
# Arithmetic modulo a prime

Coordinates of points are numbers below a prime modulus.  Inverses and square roots are powers.
-/

namespace KeyTree.PrimeField

/--
The modulus is not zero.  The zero is spelt out as the one that numerals of `Fin modulus` ask for,
so that no other module can put a different one in its place.
-/
abbrev Modulus (modulus : Nat) : Prop := @NeZero Nat Zero.ofOfNat0 modulus

variable {modulus : Nat} [Modulus modulus]

/-- A power of an element. -/
def power (element : Fin modulus) (exponent : Nat) : Fin modulus :=
  multiple (· * ·) 1 element exponent

/-- The inverse of an element that is not zero; zero goes to zero. -/
def inverse (element : Fin modulus) : Fin modulus :=
  power element (modulus - 2)

/-- A square root, for a modulus that leaves remainder three when divided by four. -/
def squareRoot? (square : Fin modulus) : Option (Fin modulus) :=
  let root := power square ((modulus + 1) / 4)
  if root * root = square then some root else none

/-- The parity of an element as a number below the modulus. -/
def isOdd (element : Fin modulus) : Bool :=
  element.val % 2 == 1

/-- The root of the two with the wanted parity. -/
def withParity (odd : Bool) (root : Fin modulus) : Fin modulus :=
  if isOdd root = odd then root else -root

/-- The element with this value, unless the value is not below the modulus. -/
def ofNat? (value : Nat) : Option (Fin modulus) :=
  if small : value < modulus then some ⟨value, small⟩ else none

end KeyTree.PrimeField
