/-!
# Diagnostic texts

A diagnostic shows a value with the name of its kind and of each of its fields.  Whatever is secret
about the value stays out of it.
-/

namespace KeyTree.Diagnostic

/-- The text of a value of a kind with named fields. -/
def fields (kind : String) (values : List (String × String)) : String :=
  let shown := values.map fun (name, value) => name ++ ": " ++ value
  kind ++ " \x7b " ++ ", ".intercalate shown ++ " \x7d"

/-- The text of a value that may be absent. -/
def optional : Option String → String
  | some value => "Some(" ++ value ++ ")"
  | none => "None"

end KeyTree.Diagnostic
