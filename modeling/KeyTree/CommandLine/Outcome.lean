import KeyTree.CommandLine.Parser

/-!
# What a call of the program brings about

A call prints a report and ends with exit code 0, or it prints an error: with exit code 1 if the
command fails, and with exit code 2 if the arguments are no use.
-/

namespace KeyTree.CommandLine

/-- What a call leaves behind. -/
structure Outcome where
  exitCode : UInt8
  /-- The text on standard output. -/
  output : String
  /-- The text on standard error. -/
  errors : String
  deriving DecidableEq

/-- The name and the version of the program. -/
def versionText : String := "hdkey 0.1.0\n"

/-- How the program is called. -/
def helpText : String :=
  "Usage: hdkey [--json] [--log-level LEVEL] COMMAND\n" ++
  "\n" ++
  "Commands:\n" ++
  "  derive -s SEED [-c CURVE] [-p PATH]         derive an extended key pair from a hex seed\n" ++
  "  public -k KEY -p PATH [-c CURVE]            derive a child from an extended public key\n" ++
  "  inspect KEY [-c CURVE]                      print the fields of an extended key\n"

namespace Outcome

/-- A text printed on standard output. -/
def printed (output : String) : Outcome := ⟨0, output, ""⟩

/-- The outcome of a call that stops before its command. -/
def ofStop : Stop → Outcome
  | .help => printed helpText
  | .version => printed versionText
  | .misuse misuse => ⟨2, "", s!"error: {misuse.message}\n"⟩

/-- The outcome of a command. -/
def ofCall (call : Call) : Outcome :=
  match call.command.report call.layout with
  | .ok report => printed report
  | .error failure => ⟨1, "", failure.text⟩

/-- The outcome of a call with these arguments. -/
def ofArguments (arguments : List String) : Outcome :=
  match Call.ofArguments arguments with
  | .ok call => ofCall call
  | .error stop => ofStop stop

end Outcome

end KeyTree.CommandLine
