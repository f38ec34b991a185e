/-! Small random streams of one 32-bit word, one for each pixel and pass. -/
namespace PathTracer

/-- The step of the congruential generator. -/
def Pcg.advance (state : UInt32) : UInt32 :=
  state * 747796405 + 2891336453

/-- The output permutation: a shift by an amount that the state itself gives,
a product, and a fixed shift. -/
def Pcg.permute (state : UInt32) : UInt32 :=
  let word := ((state >>> ((state >>> 28) + 4)) ^^^ state) * 277803737
  (word >>> 22) ^^^ word

/-- A word mixed by one step and one permutation. -/
def Pcg.hash (word : UInt32) : UInt32 :=
  Pcg.permute (Pcg.advance word)

structure Pcg where
  state : UInt32
  deriving Repr, DecidableEq

namespace Pcg

/-- The stream of a pixel in a frame. Passes that must not share random
numbers differ in their salt. -/
def start (pixel frameSeed salt : UInt32) : Pcg :=
  ⟨hash (pixel ^^^ hash (frameSeed ^^^ hash salt))⟩

/-- A number from zero up to but not including one, and the stream after it. -/
def next (rng : Pcg) : Float32 × Pcg :=
  ((permute rng.state >>> 8).toFloat32 * (1.0 / 16777216.0), ⟨advance rng.state⟩)

end Pcg

end PathTracer
