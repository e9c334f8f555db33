/-!
# Arguments by their shape

An argument that starts with a hyphen and goes on names options: one by its long name after two
hyphens, or several by their letters after one.  A long name may be followed by an equals sign and a
value.
-/

namespace KeyTree.CommandLine

/-- The shapes of an argument. -/
inductive Argument where
  /-- Two hyphens, after which every argument is plain. -/
  | separator
  /-- The long name of an option, and the value attached to it. -/
  | long (name : String) (attached? : Option String)
  /-- The letters of options; a value may be among them. -/
  | letters (letters : List Char)
  /-- Anything else: a value, a command or an operand. -/
  | plain (text : String)
  deriving DecidableEq

namespace Argument

/-- The text after the first equals sign. -/
def attachment? (body : List Char) : Option String :=
  match body.dropWhile (· ≠ '=') with
  | _ :: value => some (String.ofList value)
  | [] => none

/-- The shape of an argument. -/
def ofText (text : String) : Argument :=
  match text.toList with
  | ['-', '-'] => separator
  | '-' :: '-' :: body => long (String.ofList (body.takeWhile (· ≠ '='))) (attachment? body)
  | '-' :: letter :: rest => letters (letter :: rest)
  | _ => plain text

example : ofText "--seed=a=b" = long "seed" (some "a=b") := by decide
example : ofText "-cp256" = letters ['c', 'p', '2', '5', '6'] := by decide
example : ofText "-" = plain "-" := by decide

end Argument

end KeyTree.CommandLine
