import KeyTree.CommandLine.Misuse

/-!
# What a call of the program sets

Flags and settings are taken in one by one.  Each can be given once, and a value that names no curve
or no path is refused at once.
-/

namespace KeyTree.CommandLine

/-- The flags and the settings given so far. -/
structure Settings where
  /-- Reports are printed as JSON. -/
  json : Bool := false
  /-- How much is logged. -/
  logLevel? : Option String := none
  curve? : Option Curve := none
  seed? : Option String := none
  path? : Option Path := none
  key? : Option String := none

namespace Settings

/-- The value for a setting that has none so far. -/
def once {value : Type} (setting : Setting) (current? : Option value) (next : value) :
    Except Stop (Option value) :=
  match current? with
  | some _ => .error (.misuse (.repeated (.setting setting)))
  | none => .ok (some next)

/-- Refuses a setting because of an error in its value. -/
def checked {value : Type} (setting : Setting) (parsed : Except Error value) : Except Stop value :=
  parsed.mapError fun error => .misuse (.refusedValue setting error)

/-- The settings after a flag. -/
def raise (given : Settings) : Flag → Except Stop Settings
  | .json =>
      if given.json then .error (.misuse (.repeated (.flag .json)))
      else .ok { given with json := true }
  | .help => .error .help
  | .version => .error .version

/-- The settings after an option with a value. -/
def assign (given : Settings) (setting : Setting) (value : String) : Except Stop Settings := do
  match setting with
  | .logLevel => return { given with logLevel? := ← once setting given.logLevel? value }
  | .curve =>
      let curve ← checked setting (Curve.ofText value)
      return { given with curve? := ← once setting given.curve? curve }
  | .seed => return { given with seed? := ← once setting given.seed? value }
  | .path =>
      let path ← checked setting (Path.ofText value)
      return { given with path? := ← once setting given.path? path }
  | .key => return { given with key? := ← once setting given.key? value }

/-- The value of a setting without which a command cannot run. -/
def require {value : Type} (setting : Setting) : Option value → Except Stop value
  | some value => .ok value
  | none => .error (.misuse (.missing setting))

end Settings

end KeyTree.CommandLine
