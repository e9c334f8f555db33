import KeyTree.CommandLine.Outcome
import KeyTree.Proofs.Path.Grammar
import KeyTree.Proofs.Report.Agreement

/-!
# Reading the arguments of a call

Names of curves, texts of paths and extended keys are plain arguments.  From this the arguments of
the three commands are read one after the other, and make up the call that they spell out.
-/

namespace KeyTree.CommandLine

/-! ## Plain arguments -/

theorem Argument.ofText_of_head?_ne {text : String} (head_ne : text.toList.head? ≠ some '-') :
    ofText text = .plain text := by
  rw [ofText]
  split
  · next text_eq => simp [text_eq] at head_ne
  · next text_eq => simp [text_eq] at head_ne
  · next text_eq => simp [text_eq] at head_ne
  · rfl

theorem Argument.eq_of_plain {text other : String} (plain : ofText text = .plain other) :
    other = text := by
  rw [ofText] at plain
  split at plain <;> cases plain
  rfl

theorem Argument.ofText_name (curve : Curve) : ofText curve.name = .plain curve.name := by
  cases curve <;> decide

theorem Argument.ofText_path {text : String} {path : Path} (parsed : Path.ofText text = .ok path) :
    ofText text = .plain text := by
  obtain ⟨segments, text_eq, -, -⟩ := Path.exists_segments_of_ofText parsed
  refine ofText_of_head?_ne ?_
  simp [text_eq]

theorem Argument.ofText_record (record : Record) : ofText record.text = .plain record.text := by
  refine ofText_of_head?_ne fun head_eq => ?_
  exact (Record.solid_of_mem_text (List.mem_of_mem_head? head_eq)).1 rfl

theorem ofText_name (curve : Curve) : Curve.ofText curve.name = .ok curve := by
  cases curve <;> decide +kernel

/-! ## Reading the arguments -/

section Read

variable {level : Level} {given later : Settings} {argument value : String} {letter : Char}
  {setting : Setting} {rest : List String}

/-- On a level without commands, an argument is read by its shape. -/
theorem read_argument (verbs_eq : level.verbs = []) {shape : Argument}
    (shape_eq : Argument.ofText argument = shape) (shape_ne : shape ≠ .separator) :
    level.read given none (argument :: rest) =
      level.readArgument given shape >>= fun read => level.read read.1 read.2 rest := by
  have asks : level.asksForHelp argument = false := by simp [Level.asksForHelp, verbs_eq]
  have unnamed : level.verb? argument = none := by simp [Level.verb?, verbs_eq]
  rw [Level.read, asks, unnamed, shape_eq]
  cases shape with
  | separator => contradiction
  | long name attached? => rfl
  | letters letters => rfl
  | plain text => rfl

/-- An option by its letter leaves its setting to the next argument. -/
theorem read_letter (verbs_eq : level.verbs = [])
    (shape_eq : Argument.ofText argument = .letters [letter])
    (found : level.letter? letter = some (.setting setting)) :
    level.read given none (argument :: rest) = level.read given (some setting) rest := by
  rw [read_argument verbs_eq shape_eq (by simp), Level.readArgument, Level.readLetters, found]
  rfl

/-- An operand is the value of the setting that operands stand for. -/
theorem read_operand (verbs_eq : level.verbs = [])
    (plain : Argument.ofText argument = .plain argument) (stands : level.operand? = some setting)
    (assigned : given.assign setting argument = .ok later) :
    level.read given none (argument :: rest) = level.read later none rest := by
  rw [read_argument verbs_eq plain (by simp), Level.readArgument, Level.readOperand, stands]
  simp only [assigned]
  rfl

theorem read_value (plain : Argument.ofText value = .plain value)
    (assigned : given.assign setting value = .ok later) :
    level.read given (some setting) (value :: rest) = level.read later none rest := by
  rw [Level.read, Level.readValue, plain]
  simp only [assigned]
  rfl

theorem read_value_of_ne (shape_ne : Argument.ofText value ≠ .plain value) :
    level.read given (some setting) (value :: rest) =
      .error (.misuse (.missingValue setting)) := by
  have refused : Level.readValue given setting value =
      .error (.misuse (.missingValue setting)) := by
    rw [Level.readValue]
    split
    · next text plain => exact absurd (Argument.eq_of_plain plain ▸ plain) shape_ne
    · rfl
  rw [Level.read, refused]
  rfl

end Read

/-! ## Calls -/

/-- The arguments that choose a layout. -/
def layoutArguments : Layout → List String
  | .lines => []
  | .json => ["--json"]

/-- The arguments of a derivation from a seed. -/
def deriveArguments (layout : Layout) (curve : Curve) (seed path : String) : List String :=
  layoutArguments layout ++ ["derive", "-c", curve.name, "-s", seed, "-p", path]

/-- The arguments of a derivation from an extended public key. -/
def publicArguments (layout : Layout) (curve : Curve) (key path : String) : List String :=
  layoutArguments layout ++ ["public", "-c", curve.name, "-k", key, "-p", path]

/-- The arguments of an inspection for a curve. -/
def inspectArguments (layout : Layout) (curve : Curve) (key : String) : List String :=
  layoutArguments layout ++ ["inspect", "-c", curve.name, key]

/-- A layout and the word of a command are all that is read before the command. -/
theorem read_outer (layout : Layout) (verb : Verb) (rest : List String) :
    Level.outer.read {} none (layoutArguments layout ++ verb.word :: rest) =
      .ok ({ json := decide (layout = .json) }, some (verb, rest)) := by
  have named : ∀ given : Settings,
      Level.outer.read given none (verb.word :: rest) = .ok (given, some (verb, rest)) := by
    intro given
    have asks : Level.outer.asksForHelp verb.word = false := by cases verb <;> decide
    have found : Level.outer.verb? verb.word = some verb := by cases verb <;> decide
    rw [Level.read, asks, found]
    rfl
  cases layout with
  | lines => exact named {}
  | json => exact named { json := true }

/-- What is read after the word of a command makes up the call. -/
theorem call_ofArguments {layout : Layout} {verb : Verb} {rest : List String} {given : Settings}
    (read : (Level.ofVerb verb).read {} none rest = .ok (given, none))
    (quiet : given.json = false) :
    Call.ofArguments (layoutArguments layout ++ verb.word :: rest) =
      (Command.ofSettings given verb).map fun command => ⟨command, layout⟩ := by
  rw [Call.ofArguments, read_outer]
  simp only [bind, Except.bind, read, quiet]
  rcases Command.ofSettings given verb with stop | command
  · rfl
  · cases layout <;> rfl

theorem call_of_stop {layout : Layout} {verb : Verb} {rest : List String} {stop : Stop}
    (read : (Level.ofVerb verb).read {} none rest = .error stop) :
    Call.ofArguments (layoutArguments layout ++ verb.word :: rest) = .error stop := by
  rw [Call.ofArguments, read_outer]
  simp only [bind, Except.bind, read]

theorem assign_curve (curve : Curve) :
    Settings.assign {} .curve curve.name = .ok { curve? := some curve } := by
  rw [Settings.assign, ofText_name]
  rfl

theorem assign_path {given : Settings} (unset : given.path? = none) {text : String} {path : Path}
    (parsed : Path.ofText text = .ok path) :
    given.assign .path text = .ok { given with path? := some path } := by
  rw [Settings.assign, parsed]
  simp only [unset]
  rfl

/-- The option `-c` with the name of a curve. -/
theorem read_curve {verb : Verb} (found : (Level.ofVerb verb).letter? 'c' = some (.setting .curve))
    (verbs_eq : (Level.ofVerb verb).verbs = []) (curve : Curve) (rest : List String) :
    (Level.ofVerb verb).read {} none ("-c" :: curve.name :: rest) =
      (Level.ofVerb verb).read { curve? := some curve } none rest := by
  rw [read_letter verbs_eq (by decide) found,
    read_value (Argument.ofText_name curve) (assign_curve curve)]

theorem shape_seed : Argument.ofText "-s" = .letters ['s'] := by decide

theorem shape_path : Argument.ofText "-p" = .letters ['p'] := by decide

theorem shape_key : Argument.ofText "-k" = .letters ['k'] := by decide

theorem ofArguments_derive (layout : Layout) (curve : Curve) {seed pathText : String}
    {path : Path} (plain : Argument.ofText seed = .plain seed)
    (parsed : Path.ofText pathText = .ok path) :
    Call.ofArguments (deriveArguments layout curve seed pathText) =
      .ok ⟨.derive curve seed path, layout⟩ := by
  have read : (Level.ofVerb .derive).read {} none ["-c", curve.name, "-s", seed, "-p", pathText] =
      .ok ({ curve? := some curve, seed? := some seed, path? := some path }, none) := by
    rw [read_curve rfl rfl, read_letter rfl shape_seed rfl, read_value plain rfl,
      read_letter rfl shape_path rfl,
      read_value (Argument.ofText_path parsed) (assign_path rfl parsed)]
    rfl
  exact call_ofArguments read rfl

/-- A seed that looks like an option is taken for a missing value. -/
theorem ofArguments_derive_of_ne (layout : Layout) (curve : Curve) {seed : String}
    (pathText : String) (shape_ne : Argument.ofText seed ≠ .plain seed) :
    Call.ofArguments (deriveArguments layout curve seed pathText) =
      .error (.misuse (.missingValue .seed)) := by
  have read : (Level.ofVerb .derive).read {} none ["-c", curve.name, "-s", seed, "-p", pathText] =
      .error (.misuse (.missingValue .seed)) := by
    rw [read_curve rfl rfl, read_letter rfl shape_seed rfl, read_value_of_ne shape_ne]
  exact call_of_stop read

theorem ofArguments_public (layout : Layout) (curve : Curve) (record : Record) {pathText : String}
    {path : Path} (parsed : Path.ofText pathText = .ok path) :
    Call.ofArguments (publicArguments layout curve record.text pathText) =
      .ok ⟨.derivePublic curve record.text path, layout⟩ := by
  have read : (Level.ofVerb .derivePublic).read {} none
      ["-c", curve.name, "-k", record.text, "-p", pathText] =
      .ok ({ curve? := some curve, key? := some record.text, path? := some path }, none) := by
    rw [read_curve rfl rfl, read_letter rfl shape_key rfl,
      read_value (Argument.ofText_record record) rfl, read_letter rfl shape_path rfl,
      read_value (Argument.ofText_path parsed) (assign_path rfl parsed)]
    rfl
  exact call_ofArguments read rfl

theorem ofArguments_inspect (layout : Layout) (curve : Curve) (record : Record) :
    Call.ofArguments (inspectArguments layout curve record.text) =
      .ok ⟨.inspect record.text (some curve), layout⟩ := by
  have read : (Level.ofVerb .inspect).read {} none ["-c", curve.name, record.text] =
      .ok ({ curve? := some curve, key? := some record.text }, none) := by
    rw [read_curve rfl rfl, read_operand rfl (Argument.ofText_record record) rfl rfl]
    rfl
  exact call_ofArguments read rfl

end KeyTree.CommandLine
