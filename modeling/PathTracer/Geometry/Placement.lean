import PathTracer.Vector

/-! Where an object stands: a position, a rotation by angles in degrees about
the first, second and third axis in this order, and a scale. -/
namespace PathTracer

variable {α : Type} [Scalar α]

/-- Turn the plane vector `(a, b)` by an angle in degrees. -/
def rotateAxis (a b degrees : α) : α × α :=
  let angle := Scalar.radians degrees
  let s := Scalar.sin angle
  let c := Scalar.cos angle
  (a * c - b * s, a * s + b * c)

/-- Rotate a point about the three axes. -/
def rotateEuler (p degrees : Vec3 α) : Vec3 α :=
  let (y, z) := rotateAxis p.y p.z degrees.x
  let (z, x) := rotateAxis z p.x degrees.y
  let (x, y) := rotateAxis x y degrees.z
  ⟨x, y, z⟩

/-- Undo a rotation, last axis first. -/
def rotateEulerInv (p degrees : Vec3 α) : Vec3 α :=
  let (x, y) := rotateAxis p.x p.y (-degrees.z)
  let (z, x) := rotateAxis p.z x (-degrees.y)
  let (y, z) := rotateAxis y z (-degrees.x)
  ⟨x, y, z⟩

/-- The position, rotation and scale that add up along the way to a node. -/
structure Placement (α : Type) where
  position : Vec3 α
  rotation : Vec3 α
  scale : α
  deriving Repr, DecidableEq

namespace Placement

/-- The placement of a scene's root. -/
def identity : Placement α := ⟨.zero, .zero, 1.0⟩

/-- The placement of a node within another. Positions and rotations add up
and scales multiply. -/
def compose (outer inner : Placement α) : Placement α where
  position := outer.position + inner.position
  rotation := outer.rotation + inner.rotation
  scale := outer.scale * inner.scale

/-- A point of the object's space in the world. -/
def toWorld (p : Placement α) (point : Vec3 α) : Vec3 α :=
  p.position + rotateEuler (point * p.scale) p.rotation

/-- A ray in the object's space. Its direction keeps its length, so that
distances along it are those of the world divided by the scale. -/
def toLocal (p : Placement α) (origin direction : Vec3 α) : Vec3 α × Vec3 α :=
  (rotateEulerInv (origin - p.position) p.rotation / p.scale,
    rotateEulerInv direction p.rotation)

end Placement

end PathTracer
