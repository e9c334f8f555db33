/-!
# Byte strings of a fixed width

Chain codes, scalars, key slots and hash outputs all have a width that never varies, so the width is
part of their type.  Joining and cutting are inverse to each other, which is what the layouts of
records and derivation messages rest on.
-/

namespace KeyTree

/-- A byte string of exactly `width` bytes. -/
structure Bytes (width : Nat) where
  /-- The bytes from left to right. -/
  toList : List UInt8
  /-- There are `width` of them. -/
  length_toList : toList.length = width
  deriving DecidableEq

namespace Bytes

variable {width left right : Nat}

@[ext]
theorem ext {first second : Bytes width} (same : first.toList = second.toList) :
    first = second := by
  cases first
  cases second
  simp_all

/-- The byte string with these bytes, if there are exactly `width` of them. -/
def ofList? (width : Nat) (bytes : List UInt8) : Option (Bytes width) :=
  if length_eq : bytes.length = width then some ⟨bytes, length_eq⟩ else none

theorem ofList?_eq_some_iff {bytes : List UInt8} {value : Bytes width} :
    ofList? width bytes = some value ↔ bytes = value.toList := by
  constructor
  · intro accepted
    unfold ofList? at accepted
    split at accepted
    · cases accepted
      rfl
    · contradiction
  · rintro rfl
    simp [ofList?, value.length_toList]

theorem ofList?_eq_none_iff {bytes : List UInt8} :
    ofList? width bytes = none ↔ bytes.length ≠ width := by
  simp [ofList?]

@[simp]
theorem ofList?_toList (value : Bytes width) : ofList? width value.toList = some value :=
  ofList?_eq_some_iff.mpr rfl

/-- The byte string that holds zeros only. -/
def zero (width : Nat) : Bytes width :=
  ⟨List.replicate width 0, List.length_replicate⟩

/-- The byte string of a single byte. -/
def singleton (byte : UInt8) : Bytes 1 :=
  ⟨[byte], rfl⟩

/-- Two byte strings one after the other. -/
def append (first : Bytes left) (second : Bytes right) : Bytes (left + right) :=
  ⟨first.toList ++ second.toList, by simp [first.length_toList, second.length_toList]⟩

instance : HAppend (Bytes left) (Bytes right) (Bytes (left + right)) where
  hAppend := append

@[simp]
theorem toList_append (first : Bytes left) (second : Bytes right) :
    (first ++ second).toList = first.toList ++ second.toList := rfl

@[simp]
theorem toList_singleton (byte : UInt8) : (singleton byte).toList = [byte] := rfl

/-- The first `left` bytes. -/
def takeLeft (bytes : Bytes (left + right)) : Bytes left :=
  ⟨bytes.toList.take left, by simp [bytes.length_toList]⟩

/-- All but the first `left` bytes. -/
def dropLeft (bytes : Bytes (left + right)) : Bytes right :=
  ⟨bytes.toList.drop left, by simp [bytes.length_toList]⟩

@[simp]
theorem takeLeft_append (first : Bytes left) (second : Bytes right) :
    takeLeft (first ++ second) = first := by
  ext1
  simp [takeLeft, List.take_left' first.length_toList]

@[simp]
theorem dropLeft_append (first : Bytes left) (second : Bytes right) :
    dropLeft (first ++ second) = second := by
  ext1
  simp [dropLeft, List.drop_left' first.length_toList]

@[simp]
theorem takeLeft_append_dropLeft (bytes : Bytes (left + right)) :
    (bytes.takeLeft ++ bytes.dropLeft : Bytes (left + right)) = bytes := by
  ext1
  simp [takeLeft, dropLeft]

theorem append_inj {first third : Bytes left} {second fourth : Bytes right} :
    (first ++ second : Bytes (left + right)) = third ++ fourth ↔
      first = third ∧ second = fourth := by
  constructor
  · intro same
    exact ⟨by simpa using congrArg takeLeft same, by simpa using congrArg dropLeft same⟩
  · rintro ⟨rfl, rfl⟩
    rfl

/-- The first byte of a byte string that has one. -/
def head (bytes : Bytes (1 + width)) : UInt8 :=
  bytes.toList.head (by
    intro empty
    have length_eq := bytes.length_toList
    simp [empty] at length_eq
    omega)

@[simp]
theorem head_singleton_append (byte : UInt8) (rest : Bytes width) :
    head (singleton byte ++ rest) = byte := rfl

theorem singleton_head_append_dropLeft (bytes : Bytes (1 + width)) :
    (singleton bytes.head ++ bytes.dropLeft : Bytes (1 + width)) = bytes := by
  obtain ⟨list, length_eq⟩ := bytes
  cases list with
  | nil => simp at length_eq; omega
  | cons byte rest => rfl

/-- All bytes are zero. -/
def isZero (bytes : Bytes width) : Bool :=
  bytes.toList.all (· == 0)

end Bytes

end KeyTree
