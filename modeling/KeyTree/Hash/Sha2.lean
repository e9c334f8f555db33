import KeyTree.Hash.Word

/-!
# SHA-256 and SHA-512

The two hashes are one scheme over words of different width.  A block passes through one round for
each round constant; the sixteen words of the block feed the first rounds, and a sliding window over
the last sixteen words makes those of the later rounds.
-/

namespace KeyTree.Hash

/-- The eight working words of a SHA-2 hash. -/
structure Sha2State (word : Type) where
  /-- The first word, which takes both sums of a round. -/
  a : word
  b : word
  c : word
  d : word
  /-- The fifth word, which takes the first sum of a round. -/
  e : word
  f : word
  g : word
  h : word

/-- What distinguishes one SHA-2 hash from another. -/
structure Sha2 (word : Type) where
  /-- The state before the first block. -/
  initial : Sha2State word
  /-- One constant for each round. -/
  constants : List word
  /-- Rotations of the first working word. -/
  firstRotations : Nat × Nat × Nat
  /-- Rotations of the fifth working word. -/
  fifthRotations : Nat × Nat × Nat
  /-- Two rotations and a shift of the second word of the window. -/
  secondMixing : Nat × Nat × Nat
  /-- Two rotations and a shift of the fifteenth word of the window. -/
  fifteenthMixing : Nat × Nat × Nat

namespace Sha2

variable {word : Type} [Word word]

/-- The exclusive or of three rotations. -/
@[specialize]
def rotations (amounts : Nat × Nat × Nat) (x : word) : word :=
  Word.rotateRight x amounts.1 ^^^ Word.rotateRight x amounts.2.1 ^^^ Word.rotateRight x amounts.2.2

/-- The exclusive or of two rotations and a shift. -/
@[specialize]
def mixing (amounts : Nat × Nat × Nat) (x : word) : word :=
  Word.rotateRight x amounts.1 ^^^ Word.rotateRight x amounts.2.1 ^^^ Word.shiftRight x amounts.2.2

/-- The window without its first word and with the word that follows its last. -/
@[specialize]
def slide (variant : Sha2 word) (window : Vector word 16) : Vector word 16 :=
  let next := mixing variant.fifteenthMixing window[14] + window[9] +
    mixing variant.secondMixing window[1] + window[0]
  Vector.ofFn fun position : Fin 16 =>
    if inside : position.val + 1 < 16 then window[position.val + 1] else next

/-- One round with a round constant and a word of the message. -/
@[specialize]
def round (variant : Sha2 word) (state : Sha2State word) (constant input : word) :
    Sha2State word :=
  let chosen := (state.e &&& state.f) ^^^ (~~~state.e &&& state.g)
  let majority := (state.a &&& state.b) ^^^ (state.a &&& state.c) ^^^ (state.b &&& state.c)
  let firstSum := state.h + rotations variant.fifthRotations state.e + chosen + constant + input
  let secondSum := rotations variant.firstRotations state.a + majority
  { a := firstSum + secondSum
    b := state.a
    c := state.b
    d := state.c
    e := state.d + firstSum
    f := state.e
    g := state.f
    h := state.g }

/-- All rounds of a block, each on the first word of the window. -/
@[specialize]
def rounds (variant : Sha2 word) :
    List word → Vector word 16 → Sha2State word → Sha2State word
  | [], _, state => state
  | constant :: constants, window, state =>
      rounds variant constants (slide variant window) (round variant state constant window[0])

/-- The state after a block. -/
@[specialize]
def compress (variant : Sha2 word) (state : Sha2State word) (block : Vector word 16) :
    Sha2State word :=
  let result := rounds variant variant.constants block state
  { a := state.a + result.a
    b := state.b + result.b
    c := state.c + result.c
    d := state.d + result.d
    e := state.e + result.e
    f := state.f + result.f
    g := state.g + result.g
    h := state.h + result.h }

/-- The bytes of the state after the whole message. -/
@[specialize]
def digest (variant : Sha2 word) (message : List UInt8) : Bytes (8 * Word.width word) :=
  let state := (blocks word .bigEndian message).foldl (compress variant) variant.initial
  let words := #v[state.a, state.b, state.c, state.d, state.e, state.f, state.g, state.h]
  ByteOrder.bigEndian.write (8 * Word.width word)
    (words.foldl (fun value x => value * ByteOrder.capacity (Word.width word) + Word.toNat x) 0)

end Sha2

/-- The SHA-256 scheme. -/
def sha256Scheme : Sha2 UInt32 where
  initial :=
    ⟨0x6a09e667, 0xbb67ae85, 0x3c6ef372, 0xa54ff53a,
      0x510e527f, 0x9b05688c, 0x1f83d9ab, 0x5be0cd19⟩
  constants := [
    0x428a2f98, 0x71374491, 0xb5c0fbcf, 0xe9b5dba5, 0x3956c25b, 0x59f111f1, 0x923f82a4, 0xab1c5ed5,
    0xd807aa98, 0x12835b01, 0x243185be, 0x550c7dc3, 0x72be5d74, 0x80deb1fe, 0x9bdc06a7, 0xc19bf174,
    0xe49b69c1, 0xefbe4786, 0x0fc19dc6, 0x240ca1cc, 0x2de92c6f, 0x4a7484aa, 0x5cb0a9dc, 0x76f988da,
    0x983e5152, 0xa831c66d, 0xb00327c8, 0xbf597fc7, 0xc6e00bf3, 0xd5a79147, 0x06ca6351, 0x14292967,
    0x27b70a85, 0x2e1b2138, 0x4d2c6dfc, 0x53380d13, 0x650a7354, 0x766a0abb, 0x81c2c92e, 0x92722c85,
    0xa2bfe8a1, 0xa81a664b, 0xc24b8b70, 0xc76c51a3, 0xd192e819, 0xd6990624, 0xf40e3585, 0x106aa070,
    0x19a4c116, 0x1e376c08, 0x2748774c, 0x34b0bcb5, 0x391c0cb3, 0x4ed8aa4a, 0x5b9cca4f, 0x682e6ff3,
    0x748f82ee, 0x78a5636f, 0x84c87814, 0x8cc70208, 0x90befffa, 0xa4506ceb, 0xbef9a3f7, 0xc67178f2]
  firstRotations := (2, 13, 22)
  fifthRotations := (6, 11, 25)
  secondMixing := (7, 18, 3)
  fifteenthMixing := (17, 19, 10)

/-- The SHA-512 scheme. -/
def sha512Scheme : Sha2 UInt64 where
  initial :=
    ⟨0x6a09e667f3bcc908, 0xbb67ae8584caa73b, 0x3c6ef372fe94f82b, 0xa54ff53a5f1d36f1,
      0x510e527fade682d1, 0x9b05688c2b3e6c1f, 0x1f83d9abfb41bd6b, 0x5be0cd19137e2179⟩
  constants := [
    0x428a2f98d728ae22, 0x7137449123ef65cd, 0xb5c0fbcfec4d3b2f, 0xe9b5dba58189dbbc,
    0x3956c25bf348b538, 0x59f111f1b605d019, 0x923f82a4af194f9b, 0xab1c5ed5da6d8118,
    0xd807aa98a3030242, 0x12835b0145706fbe, 0x243185be4ee4b28c, 0x550c7dc3d5ffb4e2,
    0x72be5d74f27b896f, 0x80deb1fe3b1696b1, 0x9bdc06a725c71235, 0xc19bf174cf692694,
    0xe49b69c19ef14ad2, 0xefbe4786384f25e3, 0x0fc19dc68b8cd5b5, 0x240ca1cc77ac9c65,
    0x2de92c6f592b0275, 0x4a7484aa6ea6e483, 0x5cb0a9dcbd41fbd4, 0x76f988da831153b5,
    0x983e5152ee66dfab, 0xa831c66d2db43210, 0xb00327c898fb213f, 0xbf597fc7beef0ee4,
    0xc6e00bf33da88fc2, 0xd5a79147930aa725, 0x06ca6351e003826f, 0x142929670a0e6e70,
    0x27b70a8546d22ffc, 0x2e1b21385c26c926, 0x4d2c6dfc5ac42aed, 0x53380d139d95b3df,
    0x650a73548baf63de, 0x766a0abb3c77b2a8, 0x81c2c92e47edaee6, 0x92722c851482353b,
    0xa2bfe8a14cf10364, 0xa81a664bbc423001, 0xc24b8b70d0f89791, 0xc76c51a30654be30,
    0xd192e819d6ef5218, 0xd69906245565a910, 0xf40e35855771202a, 0x106aa07032bbd1b8,
    0x19a4c116b8d2d0c8, 0x1e376c085141ab53, 0x2748774cdf8eeb99, 0x34b0bcb5e19b48a8,
    0x391c0cb3c5c95a63, 0x4ed8aa4ae3418acb, 0x5b9cca4f7763e373, 0x682e6ff3d6b2b8a3,
    0x748f82ee5defb2fc, 0x78a5636f43172f60, 0x84c87814a1f0ab72, 0x8cc702081a6439ec,
    0x90befffa23631e28, 0xa4506cebde82bde9, 0xbef9a3f7b2c67915, 0xc67178f2e372532b,
    0xca273eceea26619c, 0xd186b8c721c0c207, 0xeada7dd6cde0eb1e, 0xf57d4f7fee6ed178,
    0x06f067aa72176fba, 0x0a637dc5a2c898a6, 0x113f9804bef90dae, 0x1b710b35131c471b,
    0x28db77f523047d84, 0x32caab7b40c72493, 0x3c9ebe0a15c9bebc, 0x431d67c49c100d4c,
    0x4cc5d4becb3e42b6, 0x597f299cfc657e2a, 0x5fcb6fab3ad6faec, 0x6c44198c4a475817]
  firstRotations := (28, 34, 39)
  fifthRotations := (14, 18, 41)
  secondMixing := (1, 8, 7)
  fifteenthMixing := (19, 61, 6)

/-- The SHA-256 hash of a message. -/
def sha256 (message : List UInt8) : Bytes 32 :=
  sha256Scheme.digest message

/-- The SHA-512 hash of a message. -/
def sha512 (message : List UInt8) : Bytes 64 :=
  sha512Scheme.digest message

end KeyTree.Hash
