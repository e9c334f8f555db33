import KeyTree.Hash.Word

/-!
# RIPEMD-160

A block passes through two lines of eighty rounds, which differ in the order of the message words,
in the rotations, in the round functions and in their constants.  The two results are added
crosswise to the state.
-/

namespace KeyTree.Hash

/-- The five working words of RIPEMD-160. -/
structure Ripemd160State where
  a : UInt32
  b : UInt32
  c : UInt32
  d : UInt32
  e : UInt32

namespace Ripemd160

/-- A mixing function of three words. -/
abbrev Mix := UInt32 → UInt32 → UInt32 → UInt32

/--
Sixteen rounds of a line: their function, their constant, and what each takes and how far it
rotates.
-/
structure Stage where
  /-- The mixing function of these rounds. -/
  mix : Mix
  /-- The constant added in these rounds. -/
  constant : UInt32
  /-- The positions in the block of the words that the rounds take. -/
  order : List (Fin 16)
  /-- How far each round rotates towards the high end. -/
  rotations : List Nat

/-- Exclusive or of all three. -/
def parity : Mix := fun x y z => x ^^^ y ^^^ z

/-- The second where the first is set, the third elsewhere. -/
def chooseByFirst : Mix := fun x y z => (x &&& y) ||| (~~~x &&& z)

/-- The first or not the second, exclusive or the third. -/
def orNotSecond : Mix := fun x y z => (x ||| ~~~y) ^^^ z

/-- The first where the third is set, the second elsewhere. -/
def chooseByThird : Mix := fun x y z => (x &&& z) ||| (y &&& ~~~z)

/-- The first, exclusive or the second or not the third. -/
def orNotThird : Mix := fun x y z => x ^^^ (y ||| ~~~z)

/-- The left line. -/
def leftLine : List Stage := [
  { mix := parity
    constant := 0x00000000
    order := [0, 1, 2, 3, 4, 5, 6, 7, 8, 9, 10, 11, 12, 13, 14, 15]
    rotations := [11, 14, 15, 12, 5, 8, 7, 9, 11, 13, 14, 15, 6, 7, 9, 8] },
  { mix := chooseByFirst
    constant := 0x5a827999
    order := [7, 4, 13, 1, 10, 6, 15, 3, 12, 0, 9, 5, 2, 14, 11, 8]
    rotations := [7, 6, 8, 13, 11, 9, 7, 15, 7, 12, 15, 9, 11, 7, 13, 12] },
  { mix := orNotSecond
    constant := 0x6ed9eba1
    order := [3, 10, 14, 4, 9, 15, 8, 1, 2, 7, 0, 6, 13, 11, 5, 12]
    rotations := [11, 13, 6, 7, 14, 9, 13, 15, 14, 8, 13, 6, 5, 12, 7, 5] },
  { mix := chooseByThird
    constant := 0x8f1bbcdc
    order := [1, 9, 11, 10, 0, 8, 12, 4, 13, 3, 7, 15, 14, 5, 6, 2]
    rotations := [11, 12, 14, 15, 14, 15, 9, 8, 9, 14, 5, 6, 8, 6, 5, 12] },
  { mix := orNotThird
    constant := 0xa953fd4e
    order := [4, 0, 5, 9, 7, 12, 2, 10, 14, 1, 3, 8, 11, 6, 15, 13]
    rotations := [9, 15, 5, 11, 6, 8, 13, 12, 5, 12, 13, 14, 11, 8, 5, 6] }]

/-- The right line. -/
def rightLine : List Stage := [
  { mix := orNotThird
    constant := 0x50a28be6
    order := [5, 14, 7, 0, 9, 2, 11, 4, 13, 6, 15, 8, 1, 10, 3, 12]
    rotations := [8, 9, 9, 11, 13, 15, 15, 5, 7, 7, 8, 11, 14, 14, 12, 6] },
  { mix := chooseByThird
    constant := 0x5c4dd124
    order := [6, 11, 3, 7, 0, 13, 5, 10, 14, 15, 8, 12, 4, 9, 1, 2]
    rotations := [9, 13, 15, 7, 12, 8, 9, 11, 7, 7, 12, 7, 6, 15, 13, 11] },
  { mix := orNotSecond
    constant := 0x6d703ef3
    order := [15, 5, 1, 3, 7, 14, 6, 9, 11, 8, 12, 2, 10, 0, 4, 13]
    rotations := [9, 7, 15, 11, 8, 6, 6, 14, 12, 13, 5, 14, 13, 13, 7, 5] },
  { mix := chooseByFirst
    constant := 0x7a6d76e9
    order := [8, 6, 4, 1, 3, 11, 15, 0, 5, 12, 2, 13, 9, 7, 10, 14]
    rotations := [15, 5, 8, 11, 14, 14, 6, 14, 6, 9, 12, 9, 12, 5, 15, 8] },
  { mix := parity
    constant := 0x00000000
    order := [12, 15, 10, 4, 1, 5, 8, 7, 6, 2, 13, 14, 0, 3, 9, 11]
    rotations := [8, 5, 12, 9, 12, 5, 14, 6, 8, 13, 6, 5, 15, 13, 11, 11] }]

/-- Rotation towards the high end. -/
def rotateLeft (word : UInt32) (amount : Nat) : UInt32 :=
  Word.rotateRight word (32 - amount)

/-- One round on a word of the message. -/
def round (stage : Stage) (state : Ripemd160State) (input : UInt32) (rotation : Nat) :
    Ripemd160State where
  a := state.e
  b := rotateLeft (state.a + stage.mix state.b state.c state.d + input + stage.constant) rotation +
    state.e
  c := state.b
  d := rotateLeft state.c 10
  e := state.d

/-- The rounds of one line of a block. -/
def line (stages : List Stage) (block : Vector UInt32 16) (state : Ripemd160State) :
    Ripemd160State :=
  stages.foldl (fun state stage =>
    (stage.order.zip stage.rotations).foldl (fun state (position, rotation) =>
      round stage state block[position] rotation) state) state

/-- The state after a block. -/
def compress (state : Ripemd160State) (block : Vector UInt32 16) : Ripemd160State :=
  let left := line leftLine block state
  let right := line rightLine block state
  { a := state.b + left.c + right.d
    b := state.c + left.d + right.e
    c := state.d + left.e + right.a
    d := state.e + left.a + right.b
    e := state.a + left.b + right.c }

/-- The state before the first block. -/
def initial : Ripemd160State :=
  ⟨0x67452301, 0xefcdab89, 0x98badcfe, 0x10325476, 0xc3d2e1f0⟩

end Ripemd160

/-- The RIPEMD-160 hash of a message. -/
def ripemd160 (message : List UInt8) : Bytes 20 :=
  let state := (blocks UInt32 .littleEndian message).foldl Ripemd160.compress Ripemd160.initial
  let words := #v[state.e, state.d, state.c, state.b, state.a]
  ByteOrder.littleEndian.write 20
    (words.foldl (fun value word => value * ByteOrder.capacity 4 + word.toNat) 0)

end KeyTree.Hash
