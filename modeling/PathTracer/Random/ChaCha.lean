/-! The random stream behind frames: the key stream of ChaCha with twelve
rounds, a counter of 64 bits and no nonce. -/
namespace PathTracer.ChaCha

/-- The sixteen words of a block, as four rows of four. -/
structure Row where
  a : UInt32
  b : UInt32
  c : UInt32
  d : UInt32
  deriving Repr, DecidableEq, Inhabited

structure Block where
  first : Row
  second : Row
  third : Row
  fourth : Row
  deriving Repr, DecidableEq, Inhabited

namespace Row

def zipWith (f : UInt32 → UInt32 → UInt32) (r s : Row) : Row :=
  ⟨f r.a s.a, f r.b s.b, f r.c s.c, f r.d s.d⟩

/-- Rotate every word to the left. -/
def rotateBits (r : Row) (n : UInt32) : Row :=
  let turn (x : UInt32) : UInt32 := (x <<< n) ||| (x >>> (32 - n))
  ⟨turn r.a, turn r.b, turn r.c, turn r.d⟩

/-- Move every word one place to the left. -/
def shift (r : Row) : Row := ⟨r.b, r.c, r.d, r.a⟩

def toList (r : Row) : List UInt32 := [r.a, r.b, r.c, r.d]

end Row

namespace Block

/-- Add the second row into the first, and mix the fourth row with the result. -/
def mixUpper (x : Block) (n : UInt32) : Block :=
  let first := x.first.zipWith (· + ·) x.second
  { x with first := first, fourth := (x.fourth.zipWith (· ^^^ ·) first).rotateBits n }

/-- Add the fourth row into the third, and mix the second row with the result. -/
def mixLower (x : Block) (n : UInt32) : Block :=
  let third := x.third.zipWith (· + ·) x.fourth
  { x with third := third, second := (x.second.zipWith (· ^^^ ·) third).rotateBits n }

/-- The quarter round of all four columns at once. -/
def columnRound (x : Block) : Block :=
  (((x.mixUpper 16).mixLower 12).mixUpper 8).mixLower 7

/-- Turn diagonals into columns. -/
def toDiagonals (x : Block) : Block :=
  ⟨x.first, x.second.shift, x.third.shift.shift, x.fourth.shift.shift.shift⟩

/-- Turn columns back into diagonals. -/
def ofDiagonals (x : Block) : Block :=
  ⟨x.first, x.second.shift.shift.shift, x.third.shift.shift, x.fourth.shift⟩

/-- One round over the columns and one over the diagonals. -/
def doubleRound (x : Block) : Block :=
  x.columnRound.toDiagonals.columnRound.ofDiagonals

/-- The words of the block after twelve rounds, added to those before. -/
def keyStream (x : Block) : List UInt32 :=
  let mixed := Nat.repeat doubleRound 6 x
  let sum (f : Block → Row) : List UInt32 := ((f mixed).zipWith (· + ·) (f x)).toList
  sum Block.first ++ sum Block.second ++ sum Block.third ++ sum Block.fourth

end Block

/-- The words of "expand 32-byte k". -/
def constants : Row := ⟨0x61707865, 0x3320646e, 0x79622d32, 0x6b206574⟩

end PathTracer.ChaCha

namespace PathTracer

/-- A key together with the number of words already taken from its stream. -/
structure ChaCha where
  low : ChaCha.Row
  high : ChaCha.Row
  position : Nat
  deriving Repr, DecidableEq, Inhabited

end PathTracer

namespace PathTracer.ChaCha

/-- The block with the given number. -/
def block (rng : ChaCha) (counter : Nat) : Block :=
  ⟨constants, rng.low, rng.high, ⟨counter.toUInt32, (counter / 0x100000000).toUInt32, 0, 0⟩⟩

/-- The step of the generator that spreads a seed over a key. -/
def seedStep (seed : UInt64) : UInt64 :=
  seed * 6364136223846793005 + 11634580027462260723

/-- The word of the key that the generator gives in a state: a shift, then a
rotation to the right by an amount in the highest bits. -/
def seedWord (state : UInt64) : UInt32 :=
  let x := (((state >>> 18) ^^^ state) >>> 27).toUInt32
  let n := (state >>> 59).toUInt32
  (x >>> n) ||| (x <<< ((32 - n) % 32))

/-- Four words of the key from four states in a row, and the last state. -/
def seedRow (seed : UInt64) : Row × UInt64 :=
  let s1 := seedStep seed
  let s2 := seedStep s1
  let s3 := seedStep s2
  let s4 := seedStep s3
  (⟨seedWord s1, seedWord s2, seedWord s3, seedWord s4⟩, s4)

/-- The stream that a seed determines. -/
def ofSeed (seed : UInt64) : ChaCha :=
  let (low, state) := seedRow seed
  ⟨low, (seedRow state).1, 0⟩

/-- The next word of the stream. -/
def next (rng : ChaCha) : UInt32 × ChaCha :=
  ((rng.block (rng.position / 16)).keyStream.getD (rng.position % 16) 0,
    { rng with position := rng.position + 1 })

/-- A number from zero up to but not including one, on a grid of 24 bits. -/
def nextUnit (rng : ChaCha) : Float32 × ChaCha :=
  let (word, rng) := rng.next
  ((word >>> 8).toFloat32 * (1.0 / 16777216.0), rng)

end PathTracer.ChaCha
