/-!
# Blanks around a text

Seeds and keys given on a command line may carry blanks at either end.  A blank is a character with
the Unicode property `White_Space`; a zero width space is none.
-/

namespace KeyTree.Blank

/-- A character with the Unicode property `White_Space`. -/
def isBlank (character : Char) : Bool :=
  let code := character.toNat
  (0x09 ≤ code && code ≤ 0x0d) || code == 0x20 || code == 0x85 || code == 0xa0 || code == 0x1680 ||
    (0x2000 ≤ code && code ≤ 0x200a) || code == 0x2028 || code == 0x2029 || code == 0x202f ||
    code == 0x205f || code == 0x3000

/-- The text without the blanks at either end. -/
def trim (text : String) : String :=
  String.ofList
    ((text.toList.dropWhile isBlank).reverse.dropWhile isBlank).reverse

theorem dropWhile_eq_self {characters : List Char}
    (solid : ∀ character ∈ characters, isBlank character = false) :
    characters.dropWhile isBlank = characters := by
  cases characters with
  | nil => rfl
  | cons character rest =>
      exact List.dropWhile_cons_of_neg (Bool.eq_false_iff.mp (solid character List.mem_cons_self))

theorem trim_eq_self {text : String}
    (solid : ∀ character ∈ text.toList, isBlank character = false) : trim text = text := by
  have solid_reverse : ∀ character ∈ text.toList.reverse, isBlank character = false :=
    fun character member => solid character (List.mem_reverse.mp member)
  rw [trim, dropWhile_eq_self solid, dropWhile_eq_self solid_reverse, List.reverse_reverse,
    String.ofList_toList]

example : trim "\u00a0 xpub\n" = "xpub" := by decide
example : trim "\u200bxpub" = "\u200bxpub" := by decide

end KeyTree.Blank
