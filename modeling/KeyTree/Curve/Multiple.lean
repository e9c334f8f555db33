/-!
# Multiples by doubling

The multiple of an element by a large number takes about two operations for each binary digit of the
number.  With multiplication in place of addition it is a power.
-/

namespace KeyTree

/-- `count` copies of `element` joined by `join`, and `unit` for no copy. -/
@[specialize]
def multiple {carrier : Type} (join : carrier → carrier → carrier) (unit element : carrier)
    (count : Nat) : carrier :=
  if count = 0 then unit
  else
    let half := multiple join unit element (count / 2)
    let double := join half half
    if count % 2 = 0 then double else join double element
termination_by count
decreasing_by exact Nat.div_lt_self (by omega) (by omega)

end KeyTree
