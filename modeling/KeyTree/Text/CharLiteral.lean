/-!
# Characters quoted in messages

Messages about a bad character show it between single quotes, with escapes for the quote, the
backslash and everything that does not print.
-/

namespace KeyTree.CharLiteral

/--
A character up to U+00FF that leaves no mark of its own: a control, or a special space or hyphen.
-/
def isInvisible (character : Char) : Bool :=
  let code := character.toNat
  code < 0x20 || (0x7f ≤ code && code ≤ 0xa0) || code == 0xad

/-- How a character up to U+00FF stands between the quotes. -/
def escape (character : Char) : List Char :=
  match character with
  | '\x00' => ['\\', '0']
  | '\t' => ['\\', 't']
  | '\n' => ['\\', 'n']
  | '\r' => ['\\', 'r']
  | '\'' => ['\\', '\'']
  | '\\' => ['\\', '\\']
  | _ =>
      if isInvisible character then
        ['\\', 'u', '\x7b'] ++ Nat.toDigits 16 character.toNat ++ ['\x7d']
      else [character]

/-- A character up to U+00FF between single quotes. -/
def quote (character : Char) : String :=
  String.ofList ('\'' :: escape character ++ ['\''])

example : quote 'z' = "'z'" := by decide
example : quote '\'' = "'\\''" := by decide
example : quote '\x7f' = "'\\u\x7b7f\x7d'" := by decide

end KeyTree.CharLiteral
