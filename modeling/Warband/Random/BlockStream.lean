/-!
# A seeded stream of random words

The stream of a seed is the key stream of the ChaCha cipher with twelve rounds,
a 64-bit block counter that starts at zero and stream number zero. The key comes
from the seed by eight steps of a linear congruential generator whose output is
permuted by a shift and a rotation. Everything is a function of the seed and the
position, so a word can be read without reading those before it.
-/
namespace Warband.Random.BlockStream

def rotateLeft (x : UInt32) (n : UInt32) : UInt32 :=
  (x <<< n) ||| (x >>> (32 - n))

/-- The sixteen words that one block is computed in. -/
abbrev Block := Array UInt32

def Block.word (b : Block) (i : Nat) : UInt32 := b.getD i 0

/-- The quarter round on four places of a block. -/
def quarterRound (b : Block) (i j k l : Nat) : Block :=
  let a := b.word i + b.word j
  let d := rotateLeft (b.word l ^^^ a) 16
  let c := b.word k + d
  let e := rotateLeft (b.word j ^^^ c) 12
  let a := a + e
  let d := rotateLeft (d ^^^ a) 8
  let c := c + d
  let e := rotateLeft (e ^^^ c) 7
  (((b.setIfInBounds i a).setIfInBounds j e).setIfInBounds k c).setIfInBounds l d

/-- Four quarter rounds on the columns and four on the diagonals. -/
def doubleRound (b : Block) : Block :=
  [(0, 4, 8, 12), (1, 5, 9, 13), (2, 6, 10, 14), (3, 7, 11, 15),
    (0, 5, 10, 15), (1, 6, 11, 12), (2, 7, 8, 13), (3, 4, 9, 14)].foldl
    (fun b (i, j, k, l) => quarterRound b i j k l) b

/-- Six double rounds are twelve rounds. -/
def doubleRounds : Nat := 6

/-- The four constant words, the key, and the block counter in two words. -/
def start (key : List UInt32) (counter : Nat) : Block :=
  ([0x61707865, 0x3320646e, 0x79622d32, 0x6b206574] ++ key ++
    [UInt32.ofNat counter, UInt32.ofNat (counter / UInt32.size), 0, 0]).toArray

def block (key : List UInt32) (counter : Nat) : Block :=
  let first := start key counter
  let last := doubleRounds.fold (fun _ _ b => doubleRound b) first
  Array.zipWith (· + ·) last first

/-- One step of the key generator: the next state and the word it puts out. -/
def keyStep (state : UInt64) : UInt64 × UInt32 :=
  let next := state * 6364136223846793005 + 11634580027462260723
  let word := (((next >>> 18) ^^^ next) >>> 27).toUInt32
  let turn := (next >>> 59).toUInt32
  (next, (word >>> turn) ||| (word <<< ((32 - turn) % 32)))

/-- The eight key words of a seed. -/
def key (seed : UInt64) : List UInt32 :=
  go 8 seed
where
  go : Nat → UInt64 → List UInt32
    | 0, _ => []
    | n + 1, state =>
      let (next, word) := keyStep state
      word :: go n next

/-- The word at a position of the stream of `seed`. -/
def word (seed : UInt64) : Nat → UInt32 :=
  let k := key seed
  fun position => (block k (position / 16)).word (position % 16)

end Warband.Random.BlockStream
