import PathTracer.Vector

/-! Where a ray meets a sphere, a plane or a box. -/
namespace PathTracer

/-- Least positive distance at which a ray meets a sphere. -/
def intersectSphere (origin direction center : Vec3 Float32) (radius : Float32) :
    Option Float32 :=
  let offset := origin - center
  let b := offset.dot direction
  let c := offset.lengthSquared - radius * radius
  let h := b * b - c
  if h < 0.0 then none
  else
    let root := h.sqrt
    let near := -b - root
    if 0.0 < near then some near
    else
      let far := -b + root
      if 0.0 < far then some far else none

/-- Positive distance at which a ray meets the plane of all points whose
product with the normal is the offset. -/
def intersectPlane (origin direction normal : Vec3 Float32) (offset : Float32) :
    Option Float32 :=
  let slope := direction.dot normal
  if slope.abs < 0.000001 then none
  else
    let t := (offset - origin.dot normal) / slope
    if 0.0 < t then some t else none

/-- A box with faces along the axes. -/
structure Box where
  low : Vec3 Float32
  high : Vec3 Float32
  deriving Repr, DecidableEq

namespace Box

/-- The box around the origin with the given half extents. -/
def ofHalf (half : Vec3 Float32) : Box := ⟨-half, half⟩

/-- The box around a center with the given half extents. -/
def around (center half : Vec3 Float32) : Box := ⟨center - half, center + half⟩

/-- Whether a point lies in the box or on its faces. -/
def contains (b : Box) (p : Vec3 Float32) : Bool :=
  decide (b.low.x ≤ p.x) && decide (b.low.y ≤ p.y) && decide (b.low.z ≤ p.z)
    && decide (p.x ≤ b.high.x) && decide (p.y ≤ b.high.y) && decide (p.z ≤ b.high.z)

/-- The lesser number, the second if they do not compare. -/
def lesser (a b : Float32) : Float32 := if a < b then a else b

/-- The greater number, the second if they do not compare. -/
def greater (a b : Float32) : Float32 := if b < a then a else b

/-- Nearest positive distance at which a ray meets the box, with the normal of
the face there: against the ray where it enters, along it where it leaves. -/
def intersect (b : Box) (origin direction : Vec3 Float32) : Option (Float32 × Vec3 Float32) :=
  let inverse := direction.map (1.0 / ·)
  let t0 := (b.low - origin) * inverse
  let t1 := (b.high - origin) * inverse
  let entries := Vec3.zipWith lesser t0 t1
  let exits := Vec3.zipWith greater t0 t1
  let near := entries.maxElement
  let far := exits.minElement
  if far < near || far ≤ 0.0 then none
  else
    let entering := decide (0.0 < near)
    let (t, distances) := if entering then (near, entries) else (far, exits)
    let outward : Vec3 Float32 :=
      if distances.x == t then ⟨-Binary32.signum direction.x, 0.0, 0.0⟩
      else if distances.y == t then ⟨0.0, -Binary32.signum direction.y, 0.0⟩
      else ⟨0.0, 0.0, -Binary32.signum direction.z⟩
    some (t, if entering then outward else -outward)

end Box

end PathTracer
