import PathTracer.Bsdf.Evaluation
import PathTracer.Render.Pass.Resolve

/-! The pass that adds the light of the chosen light source. -/
namespace PathTracer.Pass

/-- A sun is seen when its shadow ray comes at least this far. -/
def sunVisible : Float32 := 1000.0

/-- The shading of the current hit. -/
def shading (p : Pixel) : Bsdf.Shading Float32 :=
  .make p.params.params p.normal.truncate p.camDir.truncate

/-- The parameters of the material of a light at one of its points. -/
def lightMaterial (s : Site) (light : LightEntry) (point normal : Vec3 Float32) :
    SurfaceParams Float32 :=
  s.tracer.resolve light.material
    ⟨point, -normal, normal, .splat 0.5, s.viewSize, 0.0, 0.5⟩

/-- What a light sends along a shadow ray: the density with which its point
was chosen, its radiance, and the weight against sampling by the surface. -/
structure Arrival where
  density : Float32
  emission : Vec3 Float32
  weight : Float32

/-- The light of a sun. Sampling by the surface never finds it. -/
def sunArrival (light : LightEntry) (p : Pixel) : Option Arrival :=
  if p.lightDepth.x < sunVisible then none
  else
    let density : Float32 := 1.0 / Bsdf.coneSolidAngle sunAngle
    some ⟨density, light.emission.truncate * density, 1.0⟩

/-- The light of a sphere, from a point that faces the surface. -/
def sphereArrival (s : Site) (light : LightEntry) (p : Pixel) (surfaceDensity : Float32) :
    Option Arrival :=
  if !sameMaterial p.lightDepth.w light.params.z then none
  else
    let l := p.lightDir.truncate
    let point := p.lightOrigin.truncate + l * p.lightDir.w
    let normal := (point - (s.slot light.slot).truncate).normalize
    let cosine := l.dot normal
    if 0.0 ≤ cosine then none
    else
      let density := p.lightDir.w * p.lightDir.w / (light.area * cosine.abs)
      let count := Float32.ofNat s.frame.lights.size
      some ⟨density, (lightMaterial s light point normal).emission,
        Bsdf.powerHeuristic (density / count) surfaceDensity⟩

/-- The light that the chosen light source sends to the camera by way of the
current hit. -/
def contribution (s : Site) (p : Pixel) : Option (Vec3 Float32) :=
  let light := chosenLight s p
  let l := p.lightDir.truncate
  let shade := shading p
  if l.dot shade.facing ≤ 0.0 then none
  else
    let e := Bsdf.evaluate shade (-p.camDir.truncate) shade.facing l
    if e.pdf ≤ 0.0 then none
    else
      let arrival := if light.isSun then sunArrival light p else sphereArrival s light p e.pdf
      arrival.map fun a =>
        e.f * a.weight * (shade.facing.dot l).abs * a.emission
          / (a.density / Float32.ofNat s.frame.lights.size)

/-- Keep the light of the chosen light source in the pixel. -/
def direct (s : Site) (p : Pixel) : Pixel :=
  if hasLight p then
    { p with direct := ((contribution s p).getD .zero).extend 0.0 }
  else { p with direct := .splat 0.0 }

end PathTracer.Pass
