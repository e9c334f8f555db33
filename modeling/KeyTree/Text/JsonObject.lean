import KeyTree.Text.Decimal

/-!
# JSON objects

A report can be printed as one flat JSON object: a member a line, in the order in which they are
given, indented by two spaces.
-/

namespace KeyTree.JsonObject

/-- The value of a member. -/
inductive Value where
  /-- A text of digits, letters and punctuation marks, none of which JSON escapes. -/
  | text (text : String)
  | number (number : Nat)
  | boolean (truth : Bool)
  | null
  deriving DecidableEq

/-- How a value is written. -/
def Value.written : Value → String
  | text characters => "\"" ++ characters ++ "\""
  | number value => String.ofList (Decimal.ofNat value)
  | boolean true => "true"
  | boolean false => "false"
  | null => "null"

/-- How a member is written. -/
def member (name : String) (value : Value) : String :=
  "  \"" ++ name ++ "\": " ++ value.written

/-- The text of an object with at least one member. -/
def render (members : List (String × Value)) : String :=
  let lines := members.map fun (name, value) => member name value
  "\x7b\n" ++ ",\n".intercalate lines ++ "\n\x7d\n"

example :
    render [("depth", .number 0), ("family", .null)] =
      "\x7b\n  \"depth\": 0,\n  \"family\": null\n\x7d\n" := by
  decide

end KeyTree.JsonObject
