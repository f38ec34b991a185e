import PathTracer.Random.Pcg
import PathTracer.Render.Frame

/-! What the passes of a sample need of a scene besides the frame: its
materials, its environment and its geometry. -/
namespace PathTracer

/-- The nearest hit of a ray, given the constant data of a frame. -/
abbrev Geometry : Type :=
  Array (Vec4 Float32) → Vec3 Float32 → Vec3 Float32 → Hit

structure Tracer where
  materials : List Material.Program
  environment : Option Material.Program
  geometry : Geometry

namespace Tracer

/-- The tracer of a scene with a geometry of its own. -/
def withGeometry (s : Scene) (geometry : Geometry) : Tracer :=
  ⟨s.materials, s.environment, geometry⟩

/-- The tracer of the shapes of a scene. -/
def ofScene (s : Scene) : Tracer :=
  withGeometry s (Shapes.ofEntities s.entities).trace

/-- The material at an index, which negative numbers never are. -/
def material? (t : Tracer) (index : Int) : Option Material.Program :=
  if index < 0 then none else t.materials[index.toNat]?

/-- The parameters of a material at a point, the default ones if there is no
such material. -/
def resolve (t : Tracer) (index : Int) (inputs : Material.Inputs) : SurfaceParams Float32 :=
  (t.material? index).elim .default fun m => m.evaluate inputs

/-- The color that a ray sees where it leaves the scene. -/
def background (t : Tracer) (inputs : Material.Inputs) (color : Vec3 Float32) : Vec3 Float32 :=
  t.environment.elim color fun e => e.evaluateEnvironment inputs color

end Tracer

/-- A pixel of a frame at which the passes run. -/
structure Site where
  tracer : Tracer
  frame : Frame
  index : Nat

namespace Site

/-- The random stream of a pass. Passes differ in their salt. -/
def stream (s : Site) (salt : Nat) : Pcg :=
  .start s.index.toUInt32 s.frame.seed salt.toUInt32

/-- Column and row of the pixel. -/
def coordinate (s : Site) : Vec2 Float32 :=
  ⟨.ofNat (s.index % s.frame.extent.width), .ofNat (s.index / s.frame.extent.width)⟩

/-- The extent of the image as a vector. -/
def viewSize (s : Site) : Vec2 Float32 :=
  ⟨.ofNat s.frame.extent.width, .ofNat s.frame.extent.height⟩

/-- A number that is the same in every sample of the pixel. -/
def hash (s : Site) : Float32 :=
  (Pcg.hash s.index.toUInt32).toFloat32 / 4294967296.0

/-- What a material sees at a point of the pixel's path. -/
def inputs (s : Site) (position direction normal : Vec3 Float32) (hash : Float32) :
    Material.Inputs :=
  let uv : Vec2 Float32 :=
    ⟨(s.coordinate.x + 0.5) / s.viewSize.x, (s.coordinate.y + 0.5) / s.viewSize.y⟩
  ⟨position, direction, normal, uv, s.viewSize, hash, uv.y⟩

/-- The nearest hit of a ray in what the frame shows. -/
def trace (s : Site) (origin direction : Vec3 Float32) : Hit :=
  if 0 ≤ s.frame.preview then Hit.ofPreview origin direction s.frame.preview
  else s.tracer.geometry s.frame.data origin direction

/-- A vector of the frame's data. -/
def slot (s : Site) (index : Nat) : Vec4 Float32 :=
  PathTracer.slot s.frame.data index

end Site

/-- Rays start this far from the surface that they leave. -/
def rayEpsilon : Float32 := 0.001

/-- The normal on the side of a direction. -/
def toward (n l : Vec3 Float32) : Vec3 Float32 :=
  if 0.0 < n.dot l then n else -n

/-- Whether two material numbers stand for the same material. -/
def sameMaterial (a b : Float32) : Bool :=
  (a - b).abs < 0.1

end PathTracer
