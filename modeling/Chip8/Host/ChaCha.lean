import Chip8.Machine.Basic

/-!
# The generator of the host

The random bytes of a session come from a ChaCha keystream. ChaCha turns a key of eight words
into an endless row of words, sixteen to a block. A block begins as a square of words: four
constants, the key, a counter of two words and two zeros. It is stirred by twelve rounds,
alternately down the columns and along the diagonals, and then added to what it was before.
Block number `i` depends on the key and `i` alone, so any word of the keystream can be computed
without the words before it. Byte number `k` of the stream is the low byte of word number `k`.

The machine takes its generator as it comes (`Machine.withSeed`), and `Machine.ofSeed` gives it
this one.
-/

namespace Chip8

namespace ChaCha

/-- The key of a keystream. -/
abbrev Key := Vector UInt32 8

/-- A square of four by four words, row by row. -/
abbrev Square := Vector UInt32 16

/-! ### Rounds -/

/-- The word turned left by `k` bits, for `k` from 1 to 31. -/
def rotateLeft (w k : UInt32) : UInt32 :=
  (w <<< k) ||| (w >>> (32 - k))

/-- The four steps that mix the words at four places of a square. -/
def quarterRound (s : Square) (a b c d : Fin 16) : Square :=
  let a₁ := s[a] + s[b]
  let d₁ := rotateLeft (s[d] ^^^ a₁) 16
  let c₁ := s[c] + d₁
  let b₁ := rotateLeft (s[b] ^^^ c₁) 12
  let a₂ := a₁ + b₁
  let d₂ := rotateLeft (d₁ ^^^ a₂) 8
  let c₂ := c₁ + d₂
  let b₂ := rotateLeft (b₁ ^^^ c₂) 7
  (((s.set a a₂).set b b₂).set c c₂).set d d₂

/-- The four columns and then the four diagonals of a square. -/
def lines : List (Fin 16 × Fin 16 × Fin 16 × Fin 16) :=
  [(0, 4, 8, 12), (1, 5, 9, 13), (2, 6, 10, 14), (3, 7, 11, 15),
   (0, 5, 10, 15), (1, 6, 11, 12), (2, 7, 8, 13), (3, 4, 9, 14)]

/-- A round down the columns and a round along the diagonals. -/
def doubleRound (s : Square) : Square :=
  lines.foldl (fun s (a, b, c, d) => quarterRound s a b c d) s

/-! ### Blocks -/

/-- The number of double rounds that stir a block. -/
def doubleRounds : Nat := 6

/-- The square that a block begins as. -/
def initial (key : Key) (counter : Nat) : Square :=
  #v[0x61707865, 0x3320646e, 0x79622d32, 0x6b206574,
     key[0], key[1], key[2], key[3], key[4], key[5], key[6], key[7],
     UInt32.ofNat counter, UInt32.ofNat (counter / UInt32.size), 0, 0]

/-- The words of one block. -/
def block (key : Key) (counter : Nat) : Square :=
  let before := initial key counter
  Vector.zipWith (· + ·) (Nat.repeat doubleRound doubleRounds before) before

/-- Word number `i` of the keystream. -/
def word (key : Key) (i : Nat) : UInt32 :=
  have : i % 16 < 16 := Nat.mod_lt _ (by decide)
  (block key (i / 16))[i % 16]

/-! ### Keys from seeds -/

/-- One step of the linear generator that stretches a seed. -/
def stretch (s : UInt64) : UInt64 :=
  s * 6364136223846793005 + 11634580027462260723

/-- The word that a state of the linear generator gives: some of its upper bits, turned
right by its five highest. -/
def stretchedWord (s : UInt64) : UInt32 :=
  let w := (((s >>> 18) ^^^ s) >>> 27).toUInt32
  let k := (s >>> 59).toUInt32
  if k = 0 then w else rotateLeft w (32 - k)

/-- The key for a seed: the words of the eight states that follow it. -/
def keyOfSeed (seed : UInt64) : Key :=
  Vector.ofFn fun i => stretchedWord (Nat.repeat stretch (i.val + 1) seed)

/-- The bytes of the stream for a seed. -/
def generator : Generator :=
  fun seed k => (word (keyOfSeed seed) k).toUInt8

end ChaCha

/-- A machine with these settings, with the random bytes of this generator for a seed. -/
def Machine.ofSeed (s : Settings) (seed : UInt64) : Machine :=
  .withSeed ChaCha.generator s seed

end Chip8
