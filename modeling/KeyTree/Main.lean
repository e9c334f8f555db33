import KeyTree.CommandLine.Outcome

/-!
# The program
-/

/-- Carries out a call of the program. -/
def main (arguments : List String) : IO UInt32 := do
  let outcome := KeyTree.CommandLine.Outcome.ofArguments arguments
  (← IO.getStdout).putStr outcome.output
  (← IO.getStderr).putStr outcome.errors
  return outcome.exitCode.toUInt32
