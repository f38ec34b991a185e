import PathTracer.Render.Film
import PathTracer.Render.Tracer

/-! The passes that follow rays: the ray of the camera, the ray of a later
bounce, and the shadow ray towards a light. -/
namespace PathTracer.Pass

/-- The material number of a path that has ended. -/
def deadMaterial : Float32 := -100.0

/-- Keep a hit in the pixel, whose path goes on. -/
def record (s : Site) (hit : Hit) (p : Pixel) : Pixel :=
  { p with
    depth := ⟨hit.t, s.hash, hit.blend, hit.material⟩
    normal := hit.normal.extend 0.0 }

/-- The part of a number after the point, counted up from its floor. -/
def fraction (x : Float32) : Float32 :=
  x - Binary32.floor x

/-- A random point of the pixel. -/
def jitter (s : Site) : Vec2 Float32 :=
  let (x, rng) := (s.stream 0).next
  let (y, _) := rng.next
  ⟨s.coordinate.x + fraction (x + s.frame.randomVector.x),
    s.coordinate.y + fraction (y + s.frame.randomVector.y)⟩

/-- Start a path along a ray. -/
def start (origin direction : Vec3 Float32) (p : Pixel) : Pixel :=
  { p with
    camOrigin := origin.extend 0.0
    camDir := direction.extend 0.0
    radiance := .splat 0.0
    throughput := Vec3.one.extend 0.0
    absorption := .splat 0.0
    direct := .splat 0.0 }

/-- Start a new path through a random point of the pixel. -/
def primary (s : Site) (p : Pixel) : Pixel :=
  let (origin, direction) := s.frame.cameraRay (jitter s)
  record s (s.trace origin direction) (start origin direction p)

/-- Follow the path to its next hit, unless it has ended. -/
def bounce (s : Site) (p : Pixel) : Pixel :=
  if p.isDone then { p with depth := ⟨farDistance, 0.0, 0.0, deadMaterial⟩ }
  else record s (s.trace p.camOrigin.truncate p.camDir.truncate) p

/-- Whether a shadow ray was chosen for the current hit. -/
def hasLight (p : Pixel) : Bool :=
  !(decide (p.lightOrigin.w < 0.0) || p.isMiss)

/-- The light that was chosen for the shadow ray. -/
def chosenLight (s : Site) (p : Pixel) : LightEntry :=
  s.frame.light (Binary32.toNat64 p.lightOrigin.w)

/-- Follow the shadow ray. Without shadows it always reaches the light. -/
def shadow (s : Site) (p : Pixel) : Pixel :=
  if !hasLight p then { p with lightDepth := ⟨0.0, 0.0, 0.0, Hit.miss.material⟩ }
  else if s.frame.noShadows then
    let light := chosenLight s p
    let reached := if light.isSun then farDistance else p.lightDir.w
    { p with lightDepth := ⟨reached, 0.0, 0.0, light.params.z⟩ }
  else
    let hit := s.trace p.lightOrigin.truncate p.lightDir.truncate
    { p with lightDepth := ⟨hit.t, 0.0, 0.0, hit.material⟩ }

end PathTracer.Pass
