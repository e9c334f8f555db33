import KeyTree.CommandLine.Argument
import KeyTree.CommandLine.Command

/-!
# Reading a call of the program

The arguments are read from the left on two levels: those before the word of the command, and those
after it.  Each level has options of its own; the layout and the amount of logging can be set on
both.
-/

namespace KeyTree.CommandLine

/-- What may be given on a level. -/
structure Level where
  choices : List Choice
  /-- The setting that a plain argument stands for. -/
  operand? : Option Setting := none
  /-- The commands that a plain argument may name. -/
  verbs : List Verb := []

namespace Level

/-- The options of every level. -/
def shared : List Choice := [.flag .json, .setting .logLevel, .flag .help]

/-- The level before the command. -/
def outer : Level where
  choices := .flag .version :: shared
  verbs := Verb.all

/-- The level after the word of a command. -/
def ofVerb : Verb → Level
  | .derive => { choices := .setting .curve :: .setting .seed :: .setting .path :: shared }
  | .derivePublic => { choices := .setting .curve :: .setting .key :: .setting .path :: shared }
  | .inspect => { choices := .setting .curve :: shared, operand? := some .key }

variable (level : Level)

/-- The option with this long name. -/
def long? (name : String) : Option Choice :=
  level.choices.find? fun choice => choice.long == name

/-- The option with this letter. -/
def letter? (letter : Char) : Option Choice :=
  level.choices.find? fun choice => choice.letter? == some letter

/-- The command that an argument names. -/
def verb? (argument : String) : Option Verb :=
  level.verbs.find? fun verb => verb.word == argument

/-- The word for help, which stands among the commands and may have one of them after it. -/
def helpWord : String := "help"

/-- The argument is the word for help on a level with commands. -/
def asksForHelp (argument : String) : Bool :=
  !level.verbs.isEmpty && argument == helpWord

/-- What the word for help leads to with these arguments after it. -/
def readHelp : List String → Stop
  | [] => .help
  | topic :: rest =>
      if level.asksForHelp topic || (level.verb? topic).isSome then
        match rest with
        | [] => .help
        | other :: _ => .misuse (.unknownArgument other)
      else .misuse (.unknownArgument topic)

/-- The settings after a plain argument. -/
def readOperand (given : Settings) (text : String) : Except Stop Settings :=
  match level.operand? with
  | some setting => given.assign setting text
  | none => .error (.misuse (.unknownArgument text))

/-- The settings after an option by its long name, and the setting whose value is still to come. -/
def readLong (given : Settings) (name : String) (attached? : Option String) :
    Except Stop (Settings × Option Setting) :=
  match level.long? name, attached? with
  | none, _ => .error (.misuse (.unknownArgument ("--" ++ name)))
  | some (.flag flag), none => do return (← given.raise flag, none)
  | some (.flag flag), some _ => .error (.misuse (.needlessValue flag))
  | some (.setting setting), none => return (given, some setting)
  | some (.setting setting), some value => do return (← given.assign setting value, none)

/-- The value that follows the letter of an option; an equals sign before it does not count. -/
def attachedValue : List Char → Option String
  | [] => none
  | '=' :: value => some (String.ofList value)
  | value => some (String.ofList value)

/-- The settings after options by their letters, and the setting whose value is still to come. -/
def readLetters (given : Settings) : List Char → Except Stop (Settings × Option Setting)
  | [] => return (given, none)
  | letter :: rest =>
      match level.letter? letter with
      | none => .error (.misuse (.unknownArgument (String.ofList ['-', letter])))
      | some (.flag flag) => do readLetters (← given.raise flag) rest
      | some (.setting setting) =>
          match attachedValue rest with
          | none => return (given, some setting)
          | some value => do return (← given.assign setting value, none)

/--
The settings after one argument that is no separator, and the setting whose value is still to come.
-/
def readArgument (given : Settings) : Argument → Except Stop (Settings × Option Setting)
  | .separator => return (given, none)
  | .long name attached? => level.readLong given name attached?
  | .letters letters => level.readLetters given letters
  | .plain text => do return (← level.readOperand given text, none)

/-- The settings after the value of a setting, which must be a plain argument. -/
def readValue (given : Settings) (setting : Setting) (argument : String) : Except Stop Settings :=
  match Argument.ofText argument with
  | .plain value => given.assign setting value
  | _ => .error (.misuse (.missingValue setting))

/--
The settings of a level, and the command with its arguments if one is named.  The first argument is
the value of a setting if one is still to come.
-/
def read (given : Settings) (awaiting? : Option Setting) :
    List String → Except Stop (Settings × Option (Verb × List String))
  | [] =>
      match awaiting? with
      | some setting => .error (.misuse (.missingValue setting))
      | none => return (given, none)
  | argument :: rest =>
      match awaiting? with
      | some setting => do read (← readValue given setting argument) none rest
      | none =>
          if level.asksForHelp argument then .error (level.readHelp rest)
          else
            match level.verb? argument, Argument.ofText argument with
            | some verb, _ => return (given, some (verb, rest))
            | none, .separator => do return (← rest.foldlM level.readOperand given, none)
            | none, shape => do
                let (given, awaiting?) ← level.readArgument given shape
                read given awaiting? rest

end Level

/-- A command, and the layout of its report. -/
structure Call where
  command : Command
  layout : Layout
  deriving DecidableEq

/-- The call that arguments make up. -/
def Call.ofArguments (arguments : List String) : Except Stop Call := do
  let (before, verb?) ← Level.outer.read {} none arguments
  let some (verb, rest) := verb? | throw (.misuse .noCommand)
  let (after, _) ← (Level.ofVerb verb).read {} none rest
  let command ← Command.ofSettings after verb
  return { command, layout := if before.json || after.json then .json else .lines }

end KeyTree.CommandLine
