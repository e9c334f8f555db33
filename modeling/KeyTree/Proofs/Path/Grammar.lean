import KeyTree.Error
import KeyTree.Proofs.Text.Decimal

/-!
# The texts of paths

A path is read from `m` and segments after slashes.  This file says which segments have an index and
what is wrong with the others, and that reading a text gives the indices of its segments, or else
the first thing from the left that is wrong.
-/

namespace KeyTree

/-- A hardened index is the index with its highest bit set. -/
theorem ChildIndex.harden_eq_or (index : ChildIndex) : harden index = index ||| hardenedBit := by
  apply UInt32.toNat_inj.mp
  have index_lt := index.toNat_lt
  rw [toNat_harden, UInt32.toNat_or, toNat_hardenedBit]
  have place_lt : index.toNat % 2147483648 < 2 ^ 31 := Nat.mod_lt _ (by decide)
  have value_eq : index.toNat = index.toNat % 2147483648 ∨
      index.toNat = 2147483648 + index.toNat % 2147483648 := by omega
  generalize index.toNat % 2147483648 = place at place_lt value_eq ⊢
  have place_or : 2147483648 + place = 2147483648 ||| place :=
    Nat.two_pow_add_eq_or_of_lt place_lt 1
  rcases value_eq with normal | hardened
  · rw [normal, place_or, Nat.or_comm]
  · -- The bit is there already.
    rw [hardened, place_or, Nat.or_assoc, Nat.or_comm place, ← Nat.or_assoc, Nat.or_self]

namespace Path

/-- What stands between two slashes, apart from one quote at its end. -/
structure Segment where
  body : List Char
  /-- A quote follows the body. -/
  quoted : Bool
  /-- The body ends in no quote unless another follows it. -/
  getLast?_body : quoted = false → body.getLast? ≠ some '\''

namespace Segment

variable (segment : Segment)

/-- The characters of a segment. -/
def written : List Char :=
  segment.body ++ if segment.quoted then ['\''] else []

/-- The number that the digits of a segment stand for. -/
def value : Nat :=
  Nat.ofDigits 10 (segment.body.reverse.map Decimal.digit)

/-- The segment is a row of digits whose value is not too large, and perhaps a quote. -/
structure WellFormed : Prop where
  body_ne : segment.body ≠ []
  isDigit : ∀ character ∈ segment.body, character.isDigit
  value_le : segment.value ≤ 2 ^ 31

/-- The index of a segment: its value, with the highest bit set if there is a quote. -/
def index : ChildIndex :=
  if segment.quoted then UInt32.ofNat segment.value ||| 0x80000000
  else UInt32.ofNat segment.value

/-- What is wrong with a segment. -/
inductive Spoiled : Defect → Prop where
  /-- Nothing comes before the quote. -/
  | empty (body_eq : segment.body = []) : Spoiled .emptySegment
  /-- A character is no digit. -/
  | notNumber {character : Char} (member : character ∈ segment.body)
      (other : character.isDigit = false) : Spoiled (.notNumber (String.ofList segment.written))
  /-- The value is too large. -/
  | tooLarge (isDigit : ∀ character ∈ segment.body, character.isDigit)
      (value_gt : 2 ^ 31 < segment.value) : Spoiled (.tooLarge (String.ofList segment.written))

variable {segment}

/-! ## Reading a segment -/

theorem exists_written (characters : List Char) : ∃ segment : Segment,
    segment.written = characters := by
  by_cases quoted : characters.getLast? = some '\''
  · obtain ⟨body, rfl⟩ := List.getLast?_eq_some_iff.mp quoted
    exact ⟨⟨body, true, by simp⟩, rfl⟩
  · exact ⟨⟨characters, false, fun _ => quoted⟩, List.append_nil characters⟩

theorem splitQuote_written (segment : Segment) :
    splitQuote segment.written = (segment.body, segment.quoted) := by
  rcases quoted_eq : segment.quoted with - | -
  · have unquoted := segment.getLast?_body quoted_eq
    rw [splitQuote, written, quoted_eq, if_neg Bool.false_ne_true, List.append_nil,
      if_neg unquoted]
  · rw [splitQuote, written, quoted_eq, if_pos rfl, if_pos List.getLast?_concat,
      List.dropLast_concat]

theorem toNat_body (segment : Segment) : Decimal.toNat segment.body = segment.value :=
  Decimal.toNat_eq_ofDigits segment.body

theorem all_isDigit (isDigit : ∀ character ∈ segment.body, character.isDigit) :
    segment.body.all Char.isDigit = true :=
  List.all_eq_true.mpr isDigit

/-- Only values up to the first hardened index pass. -/
theorem filter_word? (number : Nat) :
    (Decimal.word? number).filter (· ≤ largestValue) =
      if number ≤ 2 ^ 31 then some (UInt32.ofNat number) else none := by
  rw [Decimal.word?]
  by_cases fits : number < UInt32.size
  · have exact_eq : (UInt32.ofNat number).toNat = number := by
      rw [UInt32.toNat_ofNat']
      exact Nat.mod_eq_of_lt fits
    have le_iff : UInt32.ofNat number ≤ largestValue ↔ number ≤ 2 ^ 31 := by
      rw [UInt32.le_iff_toNat_le, exact_eq, largestValue, ChildIndex.toNat_hardenedBit]
      norm_num
    simp only [fits, ↓reduceIte, Option.filter_some, decide_eq_true_eq, le_iff]
  · have large : ¬number ≤ 2 ^ 31 := by
      rw [UInt32.size] at fits
      omega
    rw [if_neg fits, if_neg large, Option.filter_none]

theorem parseSegment_of_wellFormed (wellFormed : segment.WellFormed) :
    parseSegment segment.written = .ok segment.index := by
  have word_eq := Decimal.toWord?_eq wellFormed.isDigit
  rw [toNat_body] at word_eq
  simp only [parseSegment, splitQuote_written, List.isEmpty_iff, wellFormed.body_ne, ↓reduceIte,
    all_isDigit wellFormed.isDigit, Bool.not_true, Bool.false_eq_true, word_eq, filter_word?,
    wellFormed.value_le, index, ChildIndex.harden_eq_or]
  rfl

theorem parseSegment_of_spoiled {defect : Defect} (spoiled : segment.Spoiled defect) :
    parseSegment segment.written = .error defect := by
  cases spoiled with
  | empty body_eq => simp only [parseSegment, splitQuote_written, body_eq, List.isEmpty_nil,
      ↓reduceIte]
  | @notNumber character member other =>
      have body_ne : segment.body ≠ [] := List.ne_nil_of_mem member
      have not_all : segment.body.all Char.isDigit = false :=
        List.all_eq_false.mpr ⟨character, member, by simp [other]⟩
      simp only [parseSegment, splitQuote_written, List.isEmpty_iff, body_ne, ↓reduceIte, not_all,
        Bool.not_false]
  | tooLarge isDigit value_gt =>
      have body_ne : segment.body ≠ [] := by
        intro body_eq
        rw [value, body_eq] at value_gt
        contradiction
      have word_eq := Decimal.toWord?_eq isDigit
      rw [toNat_body] at word_eq
      simp only [parseSegment, splitQuote_written, List.isEmpty_iff, body_ne, ↓reduceIte,
        all_isDigit isDigit, Bool.not_true, Bool.false_eq_true, word_eq, filter_word?,
        Nat.not_le.mpr value_gt]

/-- Every segment has an index or something wrong with it. -/
theorem wellFormed_or_spoiled (segment : Segment) :
    segment.WellFormed ∨ ∃ defect, segment.Spoiled defect := by
  by_cases body_eq : segment.body = []
  · exact .inr ⟨_, .empty body_eq⟩
  · by_cases isDigit : ∀ character ∈ segment.body, character.isDigit
    · rcases Nat.lt_or_ge (2 ^ 31) segment.value with value_gt | value_le
      · exact .inr ⟨_, .tooLarge isDigit value_gt⟩
      · exact .inl ⟨body_eq, isDigit, value_le⟩
    · simp only [not_forall, Bool.not_eq_true] at isDigit
      obtain ⟨character, member, other⟩ := isDigit
      exact .inr ⟨_, .notNumber member other⟩

theorem slash_not_mem_written_iff : '/' ∉ segment.written ↔ '/' ∉ segment.body := by
  rw [written]
  split <;> simp

theorem WellFormed.slash_not_mem (wellFormed : segment.WellFormed) : '/' ∉ segment.body := by
  intro member
  have decimal := wellFormed.isDigit '/' member
  contradiction

end Segment

/-! ## Texts and their segments -/

/-- The segments, each after a slash. -/
def joined (segments : List Segment) : List Char :=
  segments.flatMap fun segment => '/' :: segment.written

/-- The first thing from the left that keeps a text from being a path. -/
inductive FirstDefect : List Char → Defect → Prop where
  | emptyPath : FirstDefect [] .emptyPath
  /-- What comes before the first slash is not `m`. -/
  | noMaster {text : List Char} (text_ne : text ≠ [])
      (start_ne : text.takeWhile (· ≠ '/') ≠ ['m']) : FirstDefect text .noMaster
  /-- All segments before this one are well-formed, and a slash or nothing comes after it. -/
  | segment {before : List Segment} {first : Segment} {rest : List Char} {defect : Defect}
      (accepted : ∀ segment ∈ before, segment.WellFormed) (whole : '/' ∉ first.body)
      (rest_eq : ∀ character ∈ rest.head?, character = '/') (spoiled : first.Spoiled defect) :
      FirstDefect ('m' :: joined before ++ '/' :: first.written ++ rest) defect

theorem parts_eq_splitOn (text : List Char) : parts text = text.splitOn '/' := by
  induction text with
  | nil => rfl
  | cons character rest ih =>
      rw [List.splitOn_cons_eq_if_modifyHead, ← ih]
      have rest_ne : parts rest ≠ [] := ih ▸ List.splitOn_ne_nil '/' rest
      rcases parts_eq : parts rest with - | ⟨first, later⟩
      · contradiction
      · by_cases slash : character = '/'
        · subst slash
          simp [parts, parts_eq]
        · simp [parts, parts_eq, slash]

/-- A text is cut at its slashes and nowhere else. -/
theorem parts_append {first : List Char} {pieces : List (List Char)} (first_whole : '/' ∉ first)
    (whole : ∀ piece ∈ pieces, '/' ∉ piece) :
    parts (first ++ pieces.flatMap ('/' :: ·)) = first :: pieces := by
  rw [parts_eq_splitOn]
  induction pieces generalizing first with
  | nil =>
      rw [List.flatMap_nil, List.append_nil]
      exact List.splitOn_eq_singleton first_whole
  | cons piece pieces ih =>
      rw [List.flatMap_cons, List.cons_append,
        List.splitOn_append_cons_self_of_not_mem first_whole,
        ih (whole piece List.mem_cons_self) fun other member =>
          whole other (List.mem_cons_of_mem piece member)]

theorem exists_pieces (text : List Char) :
    ∃ (first : List Char) (pieces : List (List Char)), '/' ∉ first ∧
      (∀ piece ∈ pieces, '/' ∉ piece) ∧ text = first ++ pieces.flatMap ('/' :: ·) := by
  induction text with
  | nil => exact ⟨[], [], by simp⟩
  | cons character rest ih =>
      obtain ⟨first, pieces, first_whole, whole, rfl⟩ := ih
      by_cases slash : character = '/'
      · subst slash
        exact ⟨[], first :: pieces, by simp, by simpa using ⟨first_whole, whole⟩, by simp⟩
      · exact ⟨character :: first, pieces, by simp [Ne.symm slash, first_whole], whole, rfl⟩

theorem takeWhile_start {first : List Char} (first_whole : '/' ∉ first)
    (pieces : List (List Char)) :
    (first ++ pieces.flatMap ('/' :: ·)).takeWhile (· ≠ '/') = first := by
  have inside : ∀ character ∈ first, decide (character ≠ '/') = true := fun character member =>
    decide_eq_true fun slash => first_whole (slash ▸ member)
  rw [List.takeWhile_append_of_pos inside]
  cases pieces <;> simp

theorem joined_eq (segments : List Segment) :
    joined segments = (segments.map Segment.written).flatMap ('/' :: ·) := by
  rw [List.flatMap_map]
  rfl

theorem exists_segments (pieces : List (List Char)) :
    ∃ segments : List Segment, segments.map Segment.written = pieces := by
  induction pieces with
  | nil => exact ⟨[], rfl⟩
  | cons piece pieces ih =>
      obtain ⟨segments, rfl⟩ := ih
      obtain ⟨segment, rfl⟩ := Segment.exists_written piece
      exact ⟨segment :: segments, rfl⟩

/-- A text that starts with `m` is read segment by segment. -/
theorem parse_of_master {text : String} {segments : List Segment}
    (text_eq : text.toList = 'm' :: joined segments)
    (whole : ∀ segment ∈ segments, '/' ∉ segment.body) :
    parse text =
      ((segments.map Segment.written).mapM parseSegment).map Path.mk := by
  have parts_eq : parts text.toList = ['m'] :: segments.map Segment.written := by
    have pieces_whole : ∀ piece ∈ segments.map Segment.written, '/' ∉ piece := by
      intro piece member
      obtain ⟨segment, segment_mem, rfl⟩ := List.mem_map.mp member
      exact Segment.slash_not_mem_written_iff.mpr (whole segment segment_mem)
    rw [text_eq, joined_eq]
    exact @parts_append ['m'] _ (by simp) pieces_whole
  rw [parse, parts_eq]
  rfl

theorem mapM_parseSegment_of_wellFormed {segments : List Segment}
    (wellFormed : ∀ segment ∈ segments, segment.WellFormed) :
    (segments.map Segment.written).mapM parseSegment = .ok (segments.map Segment.index) := by
  induction segments with
  | nil => rfl
  | cons segment segments ih =>
      rw [List.map_cons, List.mapM_cons,
        Segment.parseSegment_of_wellFormed (wellFormed segment List.mem_cons_self),
        ih fun other member => wellFormed other (List.mem_cons_of_mem segment member)]
      rfl

/-- The first spoiled segment decides, whatever comes after it. -/
theorem mapM_parseSegment_of_spoiled {before after : List Segment} {first : Segment}
    {defect : Defect} (accepted : ∀ segment ∈ before, segment.WellFormed)
    (spoiled : first.Spoiled defect) :
    ((before ++ first :: after).map Segment.written).mapM parseSegment = .error defect := by
  rw [List.map_append, List.mapM_append, mapM_parseSegment_of_wellFormed accepted, List.map_cons,
    List.mapM_cons, Segment.parseSegment_of_spoiled spoiled]
  rfl

theorem parse_of_wellFormed {text : String} {segments : List Segment}
    (text_eq : text.toList = 'm' :: joined segments)
    (wellFormed : ∀ segment ∈ segments, segment.WellFormed) :
    parse text = .ok ⟨segments.map Segment.index⟩ := by
  rw [parse_of_master text_eq fun segment member => (wellFormed segment member).slash_not_mem,
    mapM_parseSegment_of_wellFormed wellFormed]
  rfl

theorem parse_of_start_ne {text : String} (text_ne : text.toList ≠ [])
    (start_ne : text.toList.takeWhile (· ≠ '/') ≠ ['m']) : parse text = .error .noMaster := by
  obtain ⟨first, pieces, first_whole, whole, text_eq⟩ := exists_pieces text.toList
  have parts_eq : parts text.toList = first :: pieces := by
    rw [text_eq]
    exact parts_append first_whole whole
  rw [text_eq, takeWhile_start first_whole] at start_ne
  rw [parse, parts_eq]
  split
  · next none_left =>
      obtain ⟨rfl, rfl⟩ : first = [] ∧ pieces = [] := by simpa using none_left
      exact absurd text_eq text_ne
  · next master => exact absurd (List.cons.inj master).1 start_ne
  · rfl

/-- What the first defect is decides why a text is refused. -/
theorem parse_of_firstDefect {text : String} {defect : Defect}
    (found : FirstDefect text.toList defect) : parse text = .error defect := by
  generalize text_eq : text.toList = characters at found
  cases found with
  | emptyPath => rw [parse, text_eq]; rfl
  | noMaster text_ne start_ne =>
      rw [← text_eq] at text_ne start_ne
      exact parse_of_start_ne text_ne start_ne
  | @segment before first rest defect accepted whole rest_eq spoiled =>
      obtain ⟨start, pieces, start_whole, pieces_whole, rfl⟩ := exists_pieces rest
      -- What follows the segment begins with a slash, so the cut comes right after the segment.
      obtain rfl : start = [] := by
        cases start with
        | nil => rfl
        | cons character start =>
            obtain rfl : character = '/' := rest_eq character rfl
            simp at start_whole
      obtain ⟨after, rfl⟩ := exists_segments pieces
      have joined_all : text.toList = 'm' :: joined (before ++ first :: after) := by
        simp [text_eq, joined, List.flatMap_map]
      rw [parse_of_master joined_all, mapM_parseSegment_of_spoiled accepted spoiled]
      · rfl
      · intro segment member
        rcases List.mem_append.mp member with earlier | here_or_later
        · exact (accepted segment earlier).slash_not_mem
        · rcases List.mem_cons.mp here_or_later with rfl | later
          · exact whole
          · exact Segment.slash_not_mem_written_iff.mp
              (pieces_whole _ (List.mem_map_of_mem later))

/-- All segments are well-formed, or one of them is the first that is not. -/
theorem wellFormed_or_firstSpoiled (segments : List Segment) :
    (∀ segment ∈ segments, segment.WellFormed) ∨
      ∃ before first after defect, segments = before ++ first :: after ∧
        (∀ segment ∈ before, segment.WellFormed) ∧ first.Spoiled defect := by
  induction segments with
  | nil => exact .inl (by simp)
  | cons segment segments ih =>
      rcases segment.wellFormed_or_spoiled with wellFormed | ⟨defect, spoiled⟩
      · rcases ih with all | ⟨before, first, after, defect, rfl, accepted, spoiled⟩
        · exact .inl (by simpa using ⟨wellFormed, all⟩)
        · exact .inr ⟨segment :: before, first, after, defect, rfl,
            by simpa using ⟨wellFormed, accepted⟩, spoiled⟩
      · exact .inr ⟨[], segment, segments, defect, rfl, by simp, spoiled⟩

/-- Every text is in the grammar or has a first defect. -/
theorem grammar_or_firstDefect (text : List Char) :
    (∃ segments, text = 'm' :: joined segments ∧ ∀ segment ∈ segments, segment.WellFormed) ∨
      ∃ defect, FirstDefect text defect := by
  by_cases text_ne : text = []
  · subst text_ne
    exact .inr ⟨.emptyPath, .emptyPath⟩
  · obtain ⟨start, pieces, start_whole, pieces_whole, rfl⟩ := exists_pieces text
    by_cases start_eq : start = ['m']
    · obtain ⟨segments, rfl⟩ := exists_segments pieces
      rw [start_eq, ← joined_eq]
      rcases wellFormed_or_firstSpoiled segments with
        all | ⟨before, first, after, defect, rfl, accepted, spoiled⟩
      · exact .inl ⟨segments, rfl, all⟩
      · have whole : '/' ∉ first.body :=
          Segment.slash_not_mem_written_iff.mp (pieces_whole _ (by simp))
        have rest_eq : ∀ character ∈ (joined after).head?, character = '/' := by
          cases after <;> simp [joined]
        refine .inr ⟨defect, ?_⟩
        have found := FirstDefect.segment accepted whole rest_eq spoiled
        simpa [joined] using found
    · exact .inr ⟨_, .noMaster text_ne (by rwa [takeWhile_start start_whole])⟩

/-- A text that names a path is in the grammar. -/
theorem exists_segments_of_ofText {text : String} {path : Path} (read : ofText text = .ok path) :
    ∃ segments, text.toList = 'm' :: joined segments ∧
      (∀ segment ∈ segments, segment.WellFormed) ∧ path.indices = segments.map Segment.index := by
  rcases grammar_or_firstDefect text.toList with ⟨segments, text_eq, all⟩ | ⟨defect, found⟩
  · rw [ofText, parse_of_wellFormed text_eq all] at read
    obtain rfl := Except.ok.inj read
    exact ⟨segments, text_eq, all, rfl⟩
  · rw [ofText, parse_of_firstDefect found] at read
    cases read

/--
Reading a text gives the indices of its segments exactly if it is in the grammar, and otherwise the
first defect from the left; the error shows the text and says what the defect is.
-/
theorem ofText_grammar (text : String) :
    (∀ path, ofText text = .ok path ↔ ∃ segments, text.toList = 'm' :: joined segments ∧
      (∀ segment ∈ segments, segment.WellFormed) ∧
        path.indices = segments.map Segment.index) ∧
      (∀ error, ofText text = .error error ↔
        ∃ defect, FirstDefect text.toList defect ∧ error = .invalidPath text defect) ∧
      ∀ defect, (Error.invalidPath text defect).message =
        s!"invalid derivation path: '{text}': " ++ match defect with
          | .emptyPath => "empty path"
          | .noMaster => "path must start with 'm'"
          | .emptySegment => "empty segment"
          | .notNumber segment => s!"segment '{segment}' is not a number"
          | .tooLarge segment => s!"segment '{segment}' exceeds 2^31" := by
  refine ⟨fun path => ?_, fun error => ?_, ?_⟩
  · constructor
    · exact exists_segments_of_ofText
    · rintro ⟨segments, text_eq, all, indices_eq⟩
      rw [ofText, parse_of_wellFormed text_eq all, ← indices_eq]
      rfl
  · constructor
    · intro refused
      rcases grammar_or_firstDefect text.toList with ⟨segments, text_eq, all⟩ | ⟨defect, found⟩
      · rw [ofText, parse_of_wellFormed text_eq all] at refused
        cases refused
      · rw [ofText, parse_of_firstDefect found] at refused
        exact ⟨defect, found, (Except.error.inj refused).symm⟩
    · rintro ⟨defect, found, rfl⟩
      rw [ofText, parse_of_firstDefect found]
      rfl
  · rintro (- | - | - | segment | segment) <;> rfl

example : parse "m/007/2147483648'" = .ok ⟨[7, 0x80000000]⟩ := by decide
example : parse "m/0''/x" = .error (.notNumber "0''") := by decide

end Path

end KeyTree
