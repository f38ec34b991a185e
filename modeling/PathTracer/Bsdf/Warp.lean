import PathTracer.Vector

/-! Directions drawn from pairs of uniform numbers, and the weights that
combine several ways of drawing. -/
namespace PathTracer.Bsdf

variable {α : Type} [Scalar α]

/-- A direction at an azimuth, with the given sine and cosine of its angle
from the third axis. -/
def polar (sine cosine azimuth : α) : Vec3 α :=
  ⟨sine * Scalar.cos azimuth, sine * Scalar.sin azimuth, cosine⟩

/-- The sine that belongs to a cosine, between zero and one. -/
def sineOf (cosine : α) : α :=
  Scalar.saturate (Scalar.sqrt (1.0 - cosine * cosine))

/-- A half vector after the distribution of a clear coat. -/
def sampleGtr1 (roughness r1 r2 : α) : Vec3 α :=
  let a := Scalar.max roughness 0.001
  let a2 := a * a
  let cosine := Scalar.sqrt ((1.0 - Scalar.pow a2 (1.0 - r2)) / (1.0 - a2))
  polar (sineOf cosine) cosine (r1 * Scalar.tau)

/-- A half vector after the distribution of a rough surface. -/
def sampleGtr2 (roughness r1 r2 : α) : Vec3 α :=
  let a := Scalar.max roughness 0.001
  let cosine := Scalar.sqrt ((1.0 - r2) / (1.0 + (a * a - 1.0) * r2))
  polar (sineOf cosine) cosine (r1 * Scalar.tau)

/-- A half vector for a roughness that differs between the two tangents. -/
def sampleGtr2Anisotropic (ax ay r1 r2 : α) : Vec3 α :=
  let azimuth := r1 * Scalar.tau
  let tangent := Scalar.sqrt (r2 / (1.0 - r2))
  Vec3.normalize ⟨tangent * ax * Scalar.cos azimuth, tangent * ay * Scalar.sin azimuth, 1.0⟩

/-- A direction above the plane with a density in proportion to its cosine. -/
def cosineHemisphere (r1 r2 : α) : Vec3 α :=
  let r := Scalar.sqrt r1
  let azimuth := Scalar.tau * r2
  let x := r * Scalar.cos azimuth
  let y := r * Scalar.sin azimuth
  ⟨x, y, Scalar.sqrt (Scalar.max (1.0 - x * x - y * y) 0.0)⟩

def uniformHemisphere (r1 r2 : α) : Vec3 α :=
  polar (Scalar.sqrt (Scalar.max (1.0 - r1 * r1) 0.0)) r1 (Scalar.tau * r2)

def uniformSphere (r1 r2 : α) : Vec3 α :=
  let z : α := 1.0 - 2.0 * r1
  polar (Scalar.sqrt (Scalar.max (1.0 - z * z) 0.0)) z (Scalar.tau * r2)

/-- The weight of a sample of density `a` where one of density `b` was
possible, by the squares of both. -/
def powerHeuristic (a b : α) : α :=
  let t := a * a
  t / (b * b + t)

/-- The solid angle of a cone with the given half angle. -/
def coneSolidAngle (halfAngle : α) : α :=
  2.0 * Scalar.pi * (1.0 - Scalar.cos halfAngle)

end PathTracer.Bsdf
