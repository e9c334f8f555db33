/-!
# Options of the program

An option is a flag, or a setting with a value.  Each has a long name, and most have a letter.
-/

namespace KeyTree.CommandLine

/-- The options without a value. -/
inductive Flag where
  | json
  | help
  | version
  deriving DecidableEq

/-- The options with a value. -/
inductive Setting where
  /-- How much is logged; nothing here is. -/
  | logLevel
  | curve
  | seed
  | path
  | key
  deriving DecidableEq

/-- An option of either sort. -/
inductive Choice where
  | flag (flag : Flag)
  | setting (setting : Setting)
  deriving DecidableEq

namespace Choice

/-- The long name of an option. -/
def long : Choice → String
  | flag .json => "json"
  | flag .help => "help"
  | flag .version => "version"
  | setting .logLevel => "log-level"
  | setting .curve => "curve"
  | setting .seed => "seed"
  | setting .path => "path"
  | setting .key => "key"

/-- The letter of an option. -/
def letter? : Choice → Option Char
  | flag .json | setting .logLevel => none
  | flag .help => some 'h'
  | flag .version => some 'V'
  | setting .curve => some 'c'
  | setting .seed => some 's'
  | setting .path => some 'p'
  | setting .key => some 'k'

end Choice

end KeyTree.CommandLine
