import PathTracer.Render.Target
import PathTracer.Vector

/-! Settings of the renderer that last between sessions. A scene overrides
some of them for the main view. -/
namespace PathTracer

structure Settings where
  maxSamples : Nat
  maxDepth : Nat
  background : Vec3 Float32
  resolution : Extent
  iconSize : Nat
  iconSamples : Nat
  iconMaxDepth : Nat
  iconBackground : Vec3 Float32
  /-- Number of threads, zero for as many as the machine suggests. No result
  depends on it. -/
  workers : Nat
  /-- Seed of the random stream, if it is to be the same in every session. -/
  seed : Option Nat
  deriving Repr, DecidableEq

namespace Settings

def default : Settings where
  maxSamples := 10000
  maxDepth := 6
  background := .splat 0.02
  resolution := ⟨800, 600⟩
  iconSize := 128
  iconSamples := 64
  iconMaxDepth := 2
  iconBackground := .splat 0.1
  workers := 0
  seed := none

instance : Inhabited Settings := ⟨default⟩

/-- Settings with every depth and size raised to at least one. -/
def sanitize (s : Settings) : Settings :=
  { s with
    maxDepth := max s.maxDepth 1
    iconMaxDepth := max s.iconMaxDepth 1
    iconSize := max s.iconSize 1
    resolution := ⟨max s.resolution.width 1, max s.resolution.height 1⟩ }

end Settings

end PathTracer
