import KeyTree.Path.Basic

/-!
# Reading derivation paths

A path is written as `m` and segments after slashes.  A segment is a row of decimal digits with a
value up to that of the first hardened index, and then a single quote if the index is hardened.  The
largest value names the first hardened index with the quote or without it.
-/

namespace KeyTree.Path

/-- Why a text is not a path. -/
inductive Defect where
  /-- There is no text. -/
  | emptyPath
  /-- The part before the first slash is not `m`. -/
  | noMaster
  /-- A segment has no digits. -/
  | emptySegment
  /-- A segment holds something else than digits. -/
  | notNumber (segment : String)
  /-- The value of a segment is too large. -/
  | tooLarge (segment : String)
  deriving DecidableEq

/-- The wording of a defect. -/
def Defect.message : Defect → String
  | emptyPath => "empty path"
  | noMaster => "path must start with 'm'"
  | emptySegment => "empty segment"
  | notNumber segment => s!"segment '{segment}' is not a number"
  | tooLarge segment => s!"segment '{segment}' exceeds 2^31"

/-- The largest value of a segment. -/
def largestValue : ChildIndex := ChildIndex.hardenedBit

/-- The parts of a text between slashes. -/
def parts : List Char → List (List Char)
  | [] => [[]]
  | character :: rest =>
      match character, parts rest with
      | '/', later => [] :: later
      | _, [] => [[character]]
      | _, first :: later => (character :: first) :: later

/-- The digits of a segment, and whether a quote follows them. -/
def splitQuote (segment : List Char) : List Char × Bool :=
  if segment.getLast? = some '\'' then (segment.dropLast, true) else (segment, false)

/-- The index that a segment names. -/
def parseSegment (segment : List Char) : Except Defect ChildIndex :=
  let (digits, hardened) := splitQuote segment
  if digits.isEmpty then .error .emptySegment
  else if !digits.all Char.isDigit then .error (.notNumber (String.ofList segment))
  else
    match (Decimal.toWord? digits).filter (· ≤ largestValue) with
    | some index => .ok (if hardened then ChildIndex.harden index else index)
    | none => .error (.tooLarge (String.ofList segment))

/-- The path that a text names, or its first defect from the left. -/
def parse (text : String) : Except Defect Path :=
  match parts text.toList with
  | [[]] => .error .emptyPath
  | ['m'] :: segments => (segments.mapM parseSegment).map Path.mk
  | _ => .error .noMaster

end KeyTree.Path
