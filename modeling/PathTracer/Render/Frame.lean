import PathTracer.Random.ChaCha
import PathTracer.Scene.Shapes
import PathTracer.Settings.Basic

/-! Everything that one sample of an image reads besides the film: the camera,
the background, the lights and the random numbers of the frame. Thumbnails
have a camera and a sun of their own, so that they look the same whatever the
view of the scene is. -/
namespace PathTracer

/-- A light as the passes read it, in two vectors of numbers. -/
structure LightEntry where
  /-- Kind (0 for a sun, 1 for a sphere), slot, material and radius. -/
  params : Vec4 Float32
  /-- Radiance of a sun, and the area. -/
  emission : Vec4 Float32
  deriving Repr, DecidableEq, Inhabited

namespace LightEntry

/-- The entry that stands in an empty list. -/
def zero : LightEntry := ⟨.splat 0.0, .splat 0.0⟩

def kindNumber : LightKind → Float32
  | .sun => 0.0
  | .sphere => 1.0

def ofLight (l : Light) : LightEntry where
  params := ⟨kindNumber l.kind, .ofNat l.data, .ofInt l.material, l.radius⟩
  emission := l.emission.extend l.area

def isSun (e : LightEntry) : Bool :=
  e.params.x < 0.5

/-- Slot of the direction or the sphere in the constant data. -/
def slot (e : LightEntry) : Nat :=
  Binary32.toNat64 e.params.y

def material (e : LightEntry) : Int :=
  Binary32.toInt32 (Binary32.round e.params.z)

def area (e : LightEntry) : Float32 :=
  e.emission.w

end LightEntry

structure Frame where
  extent : Extent
  /-- Position of the camera and half height of the image plane. -/
  cameraOrigin : Vec4 Float32
  /-- Point that the camera looks at, and one if it is orthographic. -/
  cameraLookAt : Vec4 Float32
  background : Vec4 Float32
  /-- Random numbers of the frame, the first two of which move its rays. -/
  randomVector : Vec4 Float32
  seed : UInt32
  /-- Number of samples that the film already holds. -/
  sampleIndex : Nat
  maxDepth : Nat
  /-- Material on the preview sphere, negative for the scene itself. -/
  preview : Int
  noShadows : Bool
  lights : Array LightEntry
  data : Array (Vec4 Float32)
  deriving Repr, DecidableEq

namespace Frame

/-- A frame of one bounce without camera, background and lights. -/
def blank (extent : Extent) (data : Array (Vec4 Float32)) : Frame where
  extent := extent
  cameraOrigin := .splat 0.0
  cameraLookAt := .splat 0.0
  background := .splat 0.0
  randomVector := .splat 0.0
  seed := 0
  sampleIndex := 0
  maxDepth := 1
  preview := -1
  noShadows := false
  lights := #[]
  data := data

def withCamera (f : Frame) (c : Camera) : Frame :=
  { f with
    cameraOrigin := c.origin.extend c.scale
    cameraLookAt := c.lookAt.extend (if c.orthographic then 1.0 else 0.0) }

def withBackground (f : Frame) (color : Vec3 Float32) : Frame :=
  { f with background := color.extend 1.0 }

/-- Set the number of bounces, which is at least one. -/
def withMaxDepth (f : Frame) (depth : Nat) : Frame :=
  { f with maxDepth := max depth 1 }

def addLight (f : Frame) (l : Light) : Frame :=
  { f with lights := f.lights.push (.ofLight l) }

/-- Draw the seed of the frame and its random vector. -/
def randomize (f : Frame) (rng : ChaCha) : Frame × ChaCha :=
  let (seed, rng) := rng.next
  let (x, rng) := rng.nextUnit
  let (y, rng) := rng.nextUnit
  let (z, rng) := rng.nextUnit
  let (w, rng) := rng.nextUnit
  ({ f with seed := seed, randomVector := ⟨x, y, z, w⟩ }, rng)

/-- The list of lights that is bound for the passes, which is never empty. -/
def boundLights (f : Frame) : Array LightEntry :=
  if f.lights.isEmpty then #[.zero] else f.lights

/-- The light with an index. There are only zeros past the last. -/
def light (f : Frame) (index : Nat) : LightEntry :=
  f.lights.getD index .zero

/-- The frame of one sample of the view of a scene, before its random numbers
are drawn. -/
def ofView (scene : Scene) (settings : Settings) (camera : Camera) (extent : Extent)
    (sampleIndex : Nat) : Frame :=
  let lit := scene.entities.lights.foldl addLight (blank extent scene.data)
  { ((lit.withCamera camera).withBackground
      (scene.render.background.getD settings.background)).withMaxDepth
        (scene.render.depth.getD settings.maxDepth) with
    sampleIndex := sampleIndex }

/-- The frame of one sample of the view of a scene. It needs a camera. -/
def main (scene : Scene) (settings : Settings) (extent : Extent) (sampleIndex : Nat)
    (rng : ChaCha) : Except Failure (Frame × ChaCha) :=
  match scene.entities.camera with
  | none => .error (.compile ⟨.missingCamera, 0⟩)
  | some camera => .ok ((ofView scene settings camera extent sampleIndex).randomize rng)

/-- The camera of all thumbnails. -/
def iconCamera : Camera where
  origin := ⟨0.0, 0.0, -3.2⟩
  lookAt := .zero
  fieldOfView := 40.0
  orthographic := false

/-- Direction to the sun of all thumbnails. -/
def iconSunDirection : Vec3 Float32 :=
  Vec3.normalize ⟨0.3, 0.5, -1.0⟩

/-- The sun of all thumbnails, with its direction in a slot. -/
def iconSun (slot : Nat) : Light where
  kind := .sun
  data := slot
  material := -1
  radius := 0.0
  emission := .splat 4.0

/-- The frame of one sample of a thumbnail, before its random numbers are
drawn. The sun has its slot after the data of the scene. -/
def ofThumbnail (scene : Scene) (preview : Int) (settings : Settings) (extent : Extent)
    (sampleIndex : Nat) : Frame :=
  let data := scene.data.push (iconSunDirection.extend 0.0)
  let lit := (blank extent data).addLight (iconSun scene.data.size)
  { ((lit.withCamera iconCamera).withBackground settings.iconBackground).withMaxDepth
      settings.iconMaxDepth with
    preview := preview
    noShadows := true
    sampleIndex := sampleIndex }

/-- The frame of one sample of a thumbnail. It shows a material on the preview
sphere, or the shapes of the scene if there is no such material. -/
def icon (scene : Scene) (preview : Int) (settings : Settings) (extent : Extent)
    (sampleIndex : Nat) (rng : ChaCha) : Frame × ChaCha :=
  (ofThumbnail scene preview settings extent sampleIndex).randomize rng

/-- The direction and the two axes across it in which the camera of a frame
sees. Right is the first axis of the world when it looks straight up or down. -/
def cameraAxes (f : Frame) : Vec3 Float32 × Vec3 Float32 × Vec3 Float32 :=
  let forward := (f.cameraLookAt.truncate - f.cameraOrigin.truncate).normalize
  let across := Vec3.axisY.cross forward
  let right := if across.length < 0.0001 then .axisX else across.normalize
  (forward, right, forward.cross right)

/-- The ray of the camera through a point of the image, in pixels. -/
def cameraRay (f : Frame) (point : Vec2 Float32) : Vec3 Float32 × Vec3 Float32 :=
  let width := Float32.ofNat f.extent.width
  let height := Float32.ofNat f.extent.height
  let x := point.x / width * 2.0 - 1.0
  let y := 1.0 - point.y / height * 2.0
  let origin := f.cameraOrigin.truncate
  let scale := f.cameraOrigin.w
  let (forward, right, up) := f.cameraAxes
  let offset := right * (x * scale * width / height) + up * (y * scale)
  if 0.5 < f.cameraLookAt.w then (origin + offset, forward)
  else (origin, (forward + offset).normalize)

end Frame

end PathTracer
