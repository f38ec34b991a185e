import PathTracer.Geometry.Intersection

/-! The nearest point at which a ray meets something, and the sphere on which
materials are shown. -/
namespace PathTracer

/-- Distance of what a ray does not meet. -/
def farDistance : Float32 := 10000.0

structure Hit where
  t : Float32
  normal : Vec3 Float32
  /-- Index of the material, negative where the ray meets nothing. -/
  material : Float32
  /-- Index of a second material plus the share of the first one, or zero for
  a hit of one material. -/
  blend : Float32
  deriving Repr, DecidableEq, Inhabited

namespace Hit

/-- A ray that leaves the scene. -/
def miss : Hit := ⟨farDistance, .zero, -1.0, 0.0⟩

/-- A hit of one material. -/
def ofMaterial (t : Float32) (normal : Vec3 Float32) (material : Int) : Hit :=
  ⟨t, normal, .ofInt material, 0.0⟩

/-- Blend the material with a second one. The weight is the share of the first
and is kept away from zero and one, so that the code is never zero. -/
def blended (h : Hit) (secondary : Int) (weight : Float32) : Hit :=
  { h with blend := .ofNat secondary.toNat + Scalar.clamp weight 0.0001 0.999 }

def isHit (h : Hit) : Bool :=
  0.0 ≤ h.material

/-- The nearer of two hits, the first of equally near ones. -/
def nearer (best next : Hit) : Hit :=
  if next.t < best.t then next else best

/-- The nearer of a hit and one that may not exist. -/
def orNearer (best : Hit) (next : Option Hit) : Hit :=
  next.elim best best.nearer

/-- The hit of a ray with a sphere in the world. -/
def ofSphere? (origin direction center : Vec3 Float32) (radius : Float32) (material : Int) :
    Option Hit :=
  (intersectSphere origin direction center radius).map fun t =>
    .ofMaterial t (origin + direction * t - center).normalize material

/-- The hit of a ray with the unit sphere at the origin. -/
def ofPreview (origin direction : Vec3 Float32) (material : Int) : Hit :=
  match intersectSphere origin direction .zero 1.0 with
  | some t => .ofMaterial t (origin + direction * t).normalize material
  | none => .miss

end Hit

end PathTracer
