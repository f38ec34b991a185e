import PathTracer.Render.Tracer

/-! A geometry with which the passes can be examined one at a time: camera
rays meet a card, and all other rays meet at most one lamp. -/
namespace PathTracer

/-- A card at height zero of the third axis, seen from below. -/
structure Card where
  material : Int
  /-- A second material, and the share of the first. -/
  blend : Option (Int × Float32)
  /-- Center, radius and material of a sphere. -/
  lamp : Option (Vec3 Float32 × Float32 × Int)

namespace Card

/-- The card where a ray meets it. -/
def front (c : Card) (origin direction : Vec3 Float32) : Hit :=
  let hit := Hit.ofMaterial (-origin.z / direction.z) ⟨0.0, 0.0, -1.0⟩ c.material
  c.blend.elim hit fun (secondary, weight) => hit.blended secondary weight

/-- The lamp where a ray meets it. -/
def lampHit (c : Card) (origin direction : Vec3 Float32) : Hit :=
  (c.lamp.bind fun (center, radius, material) =>
    Hit.ofSphere? origin direction center radius material).getD .miss

/-- Rays that start well below the card and go up meet it. -/
def geometry (c : Card) : Geometry := fun _ origin direction =>
  if origin.z < -4.0 && 0.0 < direction.z then c.front origin direction
  else c.lampHit origin direction

end Card

end PathTracer
