import PathTracer.Geometry.Hit
import PathTracer.Scene.Compile

/-! The shapes that rays of a scene can meet: its primitives, and the spheres
of its lights. Numbers are read from the constant data, so that the shapes
stay the same while the data moves. -/
namespace PathTracer

/-- A vector of the constant data. There is nothing but zeros past its end. -/
def slot (data : Array (Vec4 Float32)) (index : Nat) : Vec4 Float32 :=
  data.getD index (.splat 0.0)

/-- The placement recorded in three slots. -/
def Placement.ofSlots (data : Array (Vec4 Float32)) (object : Nat) : Placement Float32 :=
  ⟨(slot data object).truncate, (slot data (object + 1)).truncate, (slot data (object + 2)).x⟩

namespace Primitive

/-- Distance and normal of the point where a ray in the object's space meets
a primitive. -/
def intersectLocal (p : Primitive) (data : Array (Vec4 Float32))
    (origin direction : Vec3 Float32) : Option (Float32 × Vec3 Float32) :=
  let d := slot data p.data
  match p.kind with
  | .sphere => (intersectSphere origin direction d.truncate d.w).map fun t =>
      (t, (origin + direction * t - d.truncate).normalize)
  | .box =>
    (Box.around d.truncate (slot data (p.data + 1)).truncate).intersect origin direction
  | .plane => (intersectPlane origin direction d.truncate d.w).map fun t => (t, d.truncate)

/-- The hit of a ray with a primitive of a placed object. -/
def hit? (p : Primitive) (data : Array (Vec4 Float32)) (origin direction : Vec3 Float32) :
    Option Hit :=
  let place := Placement.ofSlots data p.object
  let (localOrigin, localDirection) := place.toLocal origin direction
  (p.intersectLocal data localOrigin localDirection).map fun (t, normal) =>
    .ofMaterial (t * place.scale) (rotateEuler normal place.rotation) p.material

end Primitive

/-- The sphere of a light, by the slot of its center and radius. -/
structure Lamp where
  data : Nat
  material : Int
  deriving Repr, DecidableEq

/-- The hit of a ray with the sphere of a light. -/
def Lamp.hit? (l : Lamp) (data : Array (Vec4 Float32)) (origin direction : Vec3 Float32) :
    Option Hit :=
  let d := slot data l.data
  Hit.ofSphere? origin direction d.truncate d.w l.material

/-- The lamp of a light, which a sun does not have. -/
def Light.lamp? (l : Light) : Option Lamp :=
  match l.kind with
  | .sun => none
  | .sphere => some ⟨l.data, l.material⟩

/-- Everything of a scene that a ray can meet. -/
structure Shapes where
  primitives : List Primitive
  lamps : List Lamp
  deriving Repr, DecidableEq

namespace Shapes

def ofEntities (e : Entities) : Shapes :=
  ⟨e.primitives, e.lights.filterMap Light.lamp?⟩

/-- The hits of a ray with each shape, primitives first. -/
def candidates (s : Shapes) (data : Array (Vec4 Float32)) (origin direction : Vec3 Float32) :
    List (Option Hit) :=
  s.primitives.map (fun p => p.hit? data origin direction)
    ++ s.lamps.map fun l => l.hit? data origin direction

/-- The nearest hit of a ray, the first of equally near ones. -/
def trace (s : Shapes) (data : Array (Vec4 Float32)) (origin direction : Vec3 Float32) : Hit :=
  (s.candidates data origin direction).foldl Hit.orNearer .miss

end Shapes

end PathTracer
