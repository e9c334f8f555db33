import KeyTree.Derivation.KeyedHash

/-!
# Search for a valid child

An index whose candidate is refused gives way to the next one.  The search stays in the half of the
range where it starts, so that a hardened child is never answered by a normal one, nor the reverse.
-/

namespace KeyTree.Derivation

variable {state found : Type}

/-- Tries an index and at most `left` indices after it. -/
def searchWithin (candidate : ChildIndex → StateM state (Option found)) (left : Nat)
    (index : ChildIndex) : Derivation state found := do
  match ← candidate index with
  | some result => return result
  | none =>
      match left with
      | 0 => throw (.rangeExhausted index)
      | left + 1 => searchWithin candidate left (index + 1)

/-- The first result from an index to the end of its half of the range. -/
def search (candidate : ChildIndex → StateM state (Option found)) (index : ChildIndex) :
    Derivation state found :=
  searchWithin candidate (ChildIndex.following index) index

end KeyTree.Derivation
