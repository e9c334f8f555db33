import KeyTree.CommandLine.Choice
import KeyTree.Error

/-!
# Calls without a command

Arguments make up no command if they ask for a text about the program, or if they are no use.
-/

namespace KeyTree.CommandLine

/-- Why the arguments make up no command. -/
inductive Misuse where
  | noCommand
  /-- An argument names nothing that is known here. -/
  | unknownArgument (argument : String)
  /-- A flag has a value attached. -/
  | needlessValue (flag : Flag)
  /-- An option has no value. -/
  | missingValue (setting : Setting)
  | repeated (choice : Choice)
  /-- The value of an option is refused. -/
  | refusedValue (setting : Setting) (error : Error)
  /-- An option is missing without which the command cannot run. -/
  | missing (setting : Setting)
  deriving DecidableEq

/-- The wording of a misuse. -/
def Misuse.message : Misuse → String
  | noCommand => "no command is given"
  | unknownArgument argument => s!"unexpected argument '{argument}'"
  | needlessValue flag => s!"'--{(Choice.flag flag).long}' takes no value"
  | missingValue setting => s!"'--{(Choice.setting setting).long}' needs a value"
  | repeated choice => s!"'--{choice.long}' is given twice"
  | refusedValue setting error => s!"'--{(Choice.setting setting).long}': {error.message}"
  | missing setting => s!"'--{(Choice.setting setting).long}' is required"

/-- What ends the reading of the arguments before there is a command. -/
inductive Stop where
  /-- The help text is asked for. -/
  | help
  /-- The version is asked for. -/
  | version
  /-- The arguments are no use. -/
  | misuse (misuse : Misuse)
  deriving DecidableEq

end KeyTree.CommandLine
