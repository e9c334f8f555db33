import KeyTree.Text.JsonObject
import KeyTree.Text.LabelledLines

/-!
# Layouts of reports
-/

namespace KeyTree

/-- How a report is printed. -/
inductive Layout where
  | lines
  | json
  deriving DecidableEq

/-- The text of a report with these lines and these JSON members. -/
def Layout.render (lines : List (String × String)) (members : List (String × JsonObject.Value)) :
    Layout → String
  | .lines => LabelledLines.render lines
  | .json => JsonObject.render members

end KeyTree
