import KeyTree.Proofs.Path.Grammar

/-!
# The canonical text of a path

Of all texts that name a path, one is written for it.  It is the text in which no segment has a
digit too many, and in which the first hardened index is not named by its own value.
-/

namespace KeyTree.Path

namespace Segment

/-- The digits are trimmed, and stand for the place of an index within its half of the range. -/
structure Canonical (segment : Segment) : Prop where
  trimmed : Decimal.Trimmed segment.body
  value_lt : segment.value < 2 ^ 31

/-- The segment that is written for an index. -/
def ofIndex (index : ChildIndex) : Segment where
  body := Decimal.ofNat (ChildIndex.place index).toNat
  quoted := ChildIndex.isHardened index
  getLast?_body := by
    intro _ last
    have decimal := Decimal.isDigit_of_mem_ofNat (List.mem_of_getLast? last)
    contradiction

variable {segment : Segment} {index : ChildIndex}

/-! ## The segment of an index -/

theorem place_lt (index : ChildIndex) : (ChildIndex.place index).toNat < 2 ^ 31 := by
  rw [ChildIndex.toNat_place]
  exact Nat.mod_lt _ (by decide)

theorem written_ofIndex (index : ChildIndex) : (ofIndex index).written = segmentText index := rfl

theorem value_ofIndex (index : ChildIndex) :
    (ofIndex index).value = (ChildIndex.place index).toNat := by
  rw [← toNat_body]
  exact Decimal.toNat_ofNat _

theorem canonical_ofIndex (index : ChildIndex) : (ofIndex index).Canonical where
  trimmed := Decimal.trimmed_ofNat _
  value_lt := by
    rw [value_ofIndex]
    exact place_lt index

theorem wellFormed_ofIndex (index : ChildIndex) : (ofIndex index).WellFormed where
  body_ne := Decimal.ofNat_ne_nil _
  isDigit := fun _ => Decimal.isDigit_of_mem_ofNat
  value_le := (canonical_ofIndex index).value_lt.le

/-- The value of a canonical segment is the place of its index, and the quote tells its half. -/
theorem Canonical.toNat_index (canonical : segment.Canonical) :
    segment.index.toNat = segment.value + if segment.quoted then 2 ^ 31 else 0 := by
  have value_lt := canonical.value_lt
  have value_eq : (UInt32.ofNat segment.value).toNat = segment.value := by
    rw [UInt32.toNat_ofNat']
    omega
  rcases quoted_eq : segment.quoted with - | -
  · rw [index, quoted_eq, if_neg Bool.false_ne_true, if_neg Bool.false_ne_true, value_eq,
      Nat.add_zero]
  · have harden_eq := ChildIndex.harden_eq_or (UInt32.ofNat segment.value)
    rw [ChildIndex.hardenedBit] at harden_eq
    rw [index, quoted_eq, if_pos rfl, if_pos rfl, ← harden_eq, ChildIndex.toNat_harden, value_eq,
      ChildIndex.toNat_hardenedBit]
    omega

theorem Canonical.toNat_place_index (canonical : segment.Canonical) :
    (ChildIndex.place segment.index).toNat = segment.value := by
  have value_lt := canonical.value_lt
  rw [ChildIndex.toNat_place, canonical.toNat_index, ChildIndex.toNat_hardenedBit]
  split <;> omega

theorem Canonical.isHardened_index (canonical : segment.Canonical) :
    ChildIndex.isHardened segment.index = segment.quoted := by
  have value_lt := canonical.value_lt
  rw [Bool.eq_iff_iff, ChildIndex.isHardened_iff, canonical.toNat_index,
    ChildIndex.toNat_hardenedBit]
  cases segment.quoted with
  | false => simpa using value_lt
  | true => simp

theorem index_ofIndex (index : ChildIndex) : (ofIndex index).index = index := by
  apply UInt32.toNat_inj.mp
  have index_lt := index.toNat_lt
  have half := @ChildIndex.isHardened_iff index
  rw [(canonical_ofIndex index).toNat_index, value_ofIndex, ChildIndex.toNat_place, ofIndex]
  rw [ChildIndex.toNat_hardenedBit] at half ⊢
  split
  · next hardened =>
      have large := half.mp hardened
      omega
  · next normal =>
      have small := mt half.mpr normal
      omega

/-- The digits of a canonical segment are those of the place of its index. -/
theorem ofIndex_index (wellFormed : segment.WellFormed) (canonical : segment.Canonical) :
    (ofIndex segment.index).written = segment.written := by
  have body_eq : Decimal.ofNat segment.value = segment.body := by
    rw [← toNat_body]
    exact Decimal.ofNat_toNat wellFormed.isDigit wellFormed.body_ne canonical.trimmed
  rw [written_ofIndex, segmentText, canonical.toNat_place_index, canonical.isHardened_index,
    body_eq, written]

/-- A segment is written for its index exactly if it is canonical. -/
theorem ofIndex_index_iff (wellFormed : segment.WellFormed) :
    (ofIndex segment.index).written = segment.written ↔ segment.Canonical := by
  constructor
  · intro same
    have split_eq := congrArg splitQuote same
    rw [splitQuote_written, splitQuote_written] at split_eq
    have body_eq : (ofIndex segment.index).body = segment.body := (Prod.mk.inj split_eq).1
    obtain ⟨trimmed, value_lt⟩ := canonical_ofIndex segment.index
    rw [value, body_eq] at value_lt
    rw [body_eq] at trimmed
    exact ⟨trimmed, value_lt⟩
  · exact ofIndex_index wellFormed

end Segment

/-! ## The text of a path -/

theorem characters_eq (path : Path) :
    path.characters = 'm' :: joined (path.indices.map Segment.ofIndex) := by
  rw [joined, List.flatMap_map]
  rfl

/-- What is written for a path is read as the path. -/
theorem ofText_text (path : Path) : ofText path.text = .ok path := by
  have text_eq : path.text.toList = 'm' :: joined (path.indices.map Segment.ofIndex) := by
    rw [text, String.toList_ofList, characters_eq]
  have wellFormed : ∀ segment ∈ path.indices.map Segment.ofIndex, segment.WellFormed := by
    intro segment member
    obtain ⟨index, -, rfl⟩ := List.mem_map.mp member
    exact Segment.wellFormed_ofIndex index
  have indices_eq : (path.indices.map Segment.ofIndex).map Segment.index = path.indices := by
    rw [List.map_map]
    exact List.map_id'' Segment.index_ofIndex path.indices
  rw [ofText, parse_of_wellFormed text_eq wellFormed, indices_eq]
  rfl

theorem text_inj {path other : Path} : path.text = other.text ↔ path = other := by
  refine ⟨fun same => ?_, congrArg text⟩
  have read := ofText_text path
  rw [same, ofText_text other] at read
  exact (Except.ok.inj read).symm

/-- The segment of an index is all that a path of one step adds to its text. -/
theorem segmentText_inj {index other : ChildIndex} :
    segmentText index = segmentText other ↔ index = other := by
  refine ⟨fun same => ?_, congrArg segmentText⟩
  have texts_eq : (⟨[index]⟩ : Path).text = (⟨[other]⟩ : Path).text := by
    simp only [text, characters, List.flatMap_cons, same]
  exact List.singleton_inj.mp (congrArg indices (text_inj.mp texts_eq))

/-- A row of segments shows where each of them begins and ends. -/
theorem joined_eq_iff {segments others : List Segment}
    (wellFormed : ∀ segment ∈ segments, segment.WellFormed)
    (others_wellFormed : ∀ segment ∈ others, segment.WellFormed) :
    joined segments = joined others ↔
      segments.map Segment.written = others.map Segment.written := by
  have parts_joined : ∀ row : List Segment, (∀ segment ∈ row, segment.WellFormed) →
      parts (joined row) = [] :: row.map Segment.written := by
    intro row row_wellFormed
    rw [joined_eq]
    refine @parts_append [] _ (List.not_mem_nil) fun piece member => ?_
    obtain ⟨segment, segment_mem, rfl⟩ := List.mem_map.mp member
    exact Segment.slash_not_mem_written_iff.mpr (row_wellFormed segment segment_mem).slash_not_mem
  constructor
  · intro same
    have parts_eq := congrArg parts same
    rw [parts_joined segments wellFormed, parts_joined others others_wellFormed] at parts_eq
    exact (List.cons.inj parts_eq).2
  · intro same
    rw [joined_eq, joined_eq, same]

/-- A text is written for the path that it names exactly if all its segments are canonical. -/
theorem text_eq_iff {text : String} {segments : List Segment}
    (text_eq : text.toList = 'm' :: joined segments)
    (wellFormed : ∀ segment ∈ segments, segment.WellFormed) :
    Path.text ⟨segments.map Segment.index⟩ = text ↔
      ∀ segment ∈ segments, segment.Canonical := by
  have rewritten_wellFormed : ∀ segment ∈ segments.map fun segment =>
      Segment.ofIndex segment.index, segment.WellFormed := by
    intro segment member
    obtain ⟨original, -, rfl⟩ := List.mem_map.mp member
    exact Segment.wellFormed_ofIndex original.index
  have rewritten : (⟨segments.map Segment.index⟩ : Path).characters =
      'm' :: joined (segments.map fun segment => Segment.ofIndex segment.index) := by
    rw [characters_eq, List.map_map]
    rfl
  calc Path.text ⟨segments.map Segment.index⟩ = text
      ↔ joined (segments.map fun segment => Segment.ofIndex segment.index) = joined segments := by
        rw [Path.text, rewritten, ← String.toList_inj, String.toList_ofList, text_eq,
          List.cons_inj_right]
    _ ↔ ∀ segment ∈ segments, (Segment.ofIndex segment.index).written = segment.written := by
        rw [joined_eq_iff rewritten_wellFormed wellFormed, List.map_map, List.map_inj_left]
        rfl
    _ ↔ ∀ segment ∈ segments, segment.Canonical :=
        forall₂_congr fun segment member => Segment.ofIndex_index_iff (wellFormed segment member)

/--
Reading the text of a path gives the path, so no two paths have one text.  A text that names a path
is its text exactly if all segments are canonical, and otherwise the path has another text.
-/
theorem text_canonical :
    (∀ path : Path, ofText path.text = .ok path) ∧ Function.Injective Path.text ∧
      ∀ text path, ofText text = .ok path →
        ∃ segments, text.toList = 'm' :: joined segments ∧
          (∀ segment ∈ segments, segment.WellFormed) ∧
          (path.text = text ↔ ∀ segment ∈ segments, segment.Canonical) ∧
          ((∃ segment ∈ segments, ¬segment.Canonical) →
            path.text ≠ text ∧ ofText path.text = .ok path) := by
  refine ⟨ofText_text, fun _ _ => text_inj.mp, ?_⟩
  intro text path read
  obtain ⟨segments, text_eq, wellFormed, indices_eq⟩ := exists_segments_of_ofText read
  obtain rfl : path = ⟨segments.map Segment.index⟩ := congrArg Path.mk indices_eq
  have written_iff := text_eq_iff text_eq wellFormed
  refine ⟨segments, text_eq, wellFormed, written_iff, ?_⟩
  rintro ⟨segment, member, spoiled⟩
  exact ⟨fun same => spoiled (written_iff.mp same segment member), ofText_text _⟩

/-- A text with superfluous zeros that names the first hardened index by its value. -/
theorem text_canonical_superfluous :
    ofText "m/007/2147483648" = .ok ⟨[7, 0x80000000]⟩ ∧
      (⟨[7, 0x80000000]⟩ : Path).text = "m/7/0'" ∧
      ∃ segments, "m/007/2147483648".toList = 'm' :: joined segments ∧
        ∃ segment ∈ segments, ¬segment.Canonical := by
  have read : ofText "m/007/2147483648" = .ok ⟨[7, 0x80000000]⟩ := by decide
  have written : (⟨[7, 0x80000000]⟩ : Path).text = "m/7/0'" := by decide +kernel
  obtain ⟨segments, text_eq, -, canonical_iff, -⟩ := text_canonical.2.2 _ _ read
  refine ⟨read, written, segments, text_eq, ?_⟩
  by_contra all_canonical
  push Not at all_canonical
  have same := canonical_iff.mpr all_canonical
  rw [written] at same
  contradiction

end KeyTree.Path
