import PathTracer.Bsdf.Warp
import PathTracer.Render.Pass.Sight

/-! The pass that finds the material of a hit and chooses a light for it. -/
namespace PathTracer.Pass

/-- Half the angle under which a sun is seen, in radians. -/
def sunAngle : Float32 := 0.0047

/-- Two axes across a direction. -/
def crossAxes (n : Vec3 Float32) : Vec3 Float32 × Vec3 Float32 :=
  let up : Vec3 Float32 := if n.z.abs < 0.999 then .axisZ else .axisX
  let tangent := (up.cross n).normalize
  (tangent, n.cross tangent)

/-- A direction in a cone around an axis, uniform in its solid angle. -/
def sampleCone (axis : Vec3 Float32) (halfAngle r1 r2 : Float32) : Vec3 Float32 :=
  let cosine := 1.0 - r1 * (1.0 - halfAngle.cos)
  let sine := (Scalar.max (1.0 - cosine * cosine) 0.0).sqrt
  let azimuth : Float32 := Scalar.tau * r2
  let (tangent, bitangent) := crossAxes axis
  (tangent * (azimuth.cos * sine) + bitangent * (azimuth.sin * sine) + axis * cosine).normalize

/-- The index that the depth channel gives as its material. -/
def materialIndex (p : Pixel) : Int :=
  Binary32.toInt32 (Binary32.round p.depth.w)

/-- The parameters of the hit, blended if its code says so. -/
def hitMaterial (s : Site) (p : Pixel) (inputs : Material.Inputs) : SurfaceParams Float32 :=
  let first := s.tracer.resolve (materialIndex p) inputs
  let code := p.depth.z
  if 0.0 < code then
    let whole := Binary32.floor code
    (s.tracer.resolve (Binary32.toInt32 whole) inputs).blend first (code - whole)
  else first

/-- Direction towards a random point of a light, and the distance to it. -/
def aim (s : Site) (light : LightEntry) (position normal : Vec3 Float32) (rng : Pcg) :
    Vec3 Float32 × Float32 :=
  let (r1, rng) := rng.next
  let (r2, _) := rng.next
  let place := s.slot light.slot
  if light.isSun then (sampleCone place.truncate sunAngle r1 r2, farDistance)
  else
    let point := place.truncate + Bsdf.uniformSphere r1 r2 * place.w
    let origin := position + toward normal (point - position) * rayEpsilon
    let distance := (point - origin).length
    ((point - origin) / Scalar.max distance 0.000001, distance)

/-- The index of the light that a random number chooses among several. -/
def lightIndex (r : Float32) (count : Nat) : Nat :=
  min (Binary32.toNat32 (r * .ofNat count)) (count - 1)

/-- The position of the current hit. -/
def hitPosition (p : Pixel) : Vec3 Float32 :=
  p.camOrigin.truncate + p.camDir.truncate * p.depth.x

/-- Number of bounces before the current one. -/
def bounceCount (p : Pixel) : Nat :=
  Binary32.toNat32 p.absorption.w

/-- The pixel without a light for its hit. -/
def withoutLight (p : Pixel) : Pixel :=
  { p with lightOrigin := ⟨0.0, 0.0, 0.0, -1.0⟩ }

/-- Choose a light and a point on it. The first number of the stream chooses
the light. -/
def chooseLight (s : Site) (rng : Pcg) (p : Pixel) : Pixel × Vec3 Float32 :=
  if s.frame.lights.isEmpty then (withoutLight p, .zero)
  else
    let (r, rng) := rng.next
    let index := lightIndex r s.frame.lights.size
    let normal := p.normal.truncate
    let (direction, distance) := aim s (s.frame.light index) (hitPosition p) normal rng
    let origin := hitPosition p + toward normal direction * rayEpsilon
    ({ p with
        lightOrigin := origin.extend (.ofNat index)
        lightDir := direction.extend distance }, direction)

/-- Find the material of the hit and choose a light for it. -/
def resolve (s : Site) (p : Pixel) : Pixel :=
  if p.isMiss then withoutLight p
  else
    let inputs := s.inputs (hitPosition p) p.camDir.truncate p.normal.truncate p.depth.y
    let material := hitMaterial s p inputs
    let (p, direction) := chooseLight s (s.stream (bounceCount p * 8 + 1)) p
    { p with params := material.pack direction }

end PathTracer.Pass
