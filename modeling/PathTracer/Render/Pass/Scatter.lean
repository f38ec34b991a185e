import PathTracer.Bsdf.Sampling
import PathTracer.Render.Pass.Direct

/-! The pass that gathers the light of the current hit and sends the path on. -/
namespace PathTracer.Pass

/-- End the path with the light that it has gathered. -/
def finish (radiance : Vec3 Float32) (p : Pixel) : Pixel :=
  { p with
    radiance := radiance.extend 0.0
    normal := p.normal.truncate.extend (-1.0) }

/-- The first sphere among the lights that has the material of a hit. -/
def findLight (s : Site) (material : Float32) : Option LightEntry :=
  s.frame.lights.find? fun l => !l.isSun && sameMaterial l.params.z material

/-- Share of light that is left after the way through the medium. -/
def transmittance (p : Pixel) : Vec3 Float32 :=
  (-p.absorption.truncate * p.depth.x).map Float32.exp

/-- End a path that leaves the scene with the light of the environment. -/
def leave (s : Site) (p : Pixel) : Pixel :=
  let inputs := s.inputs p.camOrigin.truncate p.camDir.truncate .zero p.depth.y
  let color := s.tracer.background inputs s.frame.background.truncate
  finish (p.radiance.truncate + color * p.throughput.truncate) p

/-- The weight of light that a path finds by itself against light that was
sampled at its source. -/
def emissionWeight (s : Site) (p : Pixel) : Float32 :=
  if 0.0 < p.throughput.w then
    match findLight s p.depth.w with
    | none => 1.0
    | some light =>
      let cosine := Scalar.max (p.normal.truncate.dot p.camDir.truncate).abs 0.000001
      let density := p.depth.x * p.depth.x / (light.area * cosine)
        / Float32.ofNat s.frame.lights.size
      Bsdf.powerHeuristic p.throughput.w density
  else 1.0

/-- The absorption of a medium that leaves the given share of light. -/
def absorptionOf (extinction : Vec3 Float32) : Vec3 Float32 :=
  let positive (x : Float32) : Float32 := if 0.000001 < x then x else 0.000001
  extinction.map fun x => -(positive x).log / 0.2

/-- The medium behind the hit: none where the path leaves a body, and that of
the body where it enters one. -/
def mediumAfter (shade : Bsdf.Shading Float32) (direction : Vec3 Float32) (p : Pixel) :
    Vec3 Float32 :=
  let slope := p.normal.truncate.dot p.camDir.truncate
  if direction.dot shade.facing < 0.0 && slope < 0.0 then absorptionOf shade.material.extinction
  else if 0.0 < slope then .zero
  else p.absorption.truncate

/-- Send the path on in a sampled direction. -/
def continueAlong (shade : Bsdf.Shading Float32) (sample : Bsdf.Sample Float32)
    (radiance carried : Vec3 Float32) (p : Pixel) : Pixel :=
  let weight := sample.f * (shade.facing.dot sample.l).abs / sample.pdf
  let origin := hitPosition p + toward p.normal.truncate sample.l * rayEpsilon
  { p with
    radiance := radiance.extend 0.0
    throughput := (carried * weight).extend sample.pdf
    absorption := (mediumAfter shade sample.l p).extend (.ofNat (bounceCount p + 1))
    camOrigin := origin.extend 0.0
    camDir := sample.l.extend 0.0 }

/-- Gather the light of a surface and choose the next direction. -/
def scatterSurface (s : Site) (p : Pixel) : Pixel :=
  let carried := p.throughput.truncate * transmittance p
  let emission := p.params.params.emission
  if 0.0 < emission.x || 0.0 < emission.y || 0.0 < emission.z then
    finish (p.radiance.truncate + emission * carried * emissionWeight s p) p
  else
    let radiance := p.radiance.truncate + p.direct.truncate * carried
    let shade := shading p
    let (sample, _) := Bsdf.sample shade (-p.camDir.truncate) shade.facing
      (s.stream (bounceCount p * 8 + 3))
    if sample.pdf ≤ 0.0 then finish radiance p
    else continueAlong shade sample radiance carried p

/-- Gather the light of the current hit and send the path on. A path that has
ended stays as it is. -/
def scatter (s : Site) (p : Pixel) : Pixel :=
  if p.isDone then p
  else if p.isMiss then leave s p
  else scatterSurface s p

end PathTracer.Pass
