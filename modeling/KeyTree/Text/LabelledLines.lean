/-!
# Labelled lines

A report can be printed as lines, each with a label and a value; the values start in one column.
-/

namespace KeyTree.LabelledLines

/-- The number of characters before the column of the values. -/
def margin : Nat := 20

/-- The line of a label shorter than the margin and its value. -/
def line (label value : String) : String :=
  let mark := label ++ ":"
  mark ++ String.ofList (List.replicate (margin - mark.length) ' ') ++ value ++ "\n"

/-- The text of labels and their values. -/
def render (lines : List (String × String)) : String :=
  String.join (lines.map fun (label, value) => line label value)

example : line "depth" "3" = "depth:              3\n" := by decide

end KeyTree.LabelledLines
