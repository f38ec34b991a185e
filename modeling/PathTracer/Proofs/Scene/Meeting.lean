import PathTracer.Proofs.Geometry.Candidates
import PathTracer.Proofs.Scene.Nesting
import PathTracer.Proofs.Scene.Tracing

/-! The shape that a ray meets. It is the first of the nearest shapes, primitives before
lamps, and the trace is the hit with it. What a scene has recorded of its shapes is told
from the graph. -/
namespace PathTracer

/-! ### The shape that is met -/

namespace Shape

/-- The material that is recorded of a shape. -/
def material : Shape → Int
  | primitive p => p.material
  | lamp l => l.material

/-- A hit carries the number of the material and nothing else of the shape. -/
theorem material_of_hit? {x : Shape} {data : Array (Vec4 Float32)}
    {origin direction : Vec3 Float32} {hit : Hit} (h : x.hit? data origin direction = some hit) :
    hit.material = .ofInt x.material := by
  cases x with
  | primitive p =>
      obtain ⟨_, -, rfl⟩ := Option.map_eq_some_iff.mp h
      rfl
  | lamp l =>
      obtain ⟨_, -, rfl⟩ := Option.map_eq_some_iff.mp h
      rfl

end Shape

namespace Shapes

variable (s : Shapes) (data : Array (Vec4 Float32)) (origin direction : Vec3 Float32)

/-- All shapes in the order in which the trace tests them. -/
def all : List Shape :=
  s.primitives.map .primitive ++ s.lamps.map .lamp

/-- The shape that a ray meets within reach. -/
def met? : Option Shape :=
  Shape.first? data origin direction s.all

theorem hits_eq_hits_all : s.hits data origin direction =
    Shape.hits data origin direction s.all := by
  rw [hits_eq_append, Shape.hits, all, List.filterMap_append, List.filterMap_map,
    List.filterMap_map]
  rfl

theorem trace_eq_met : s.trace data origin direction =
    ((s.met? data origin direction).bind (Shape.hit? data origin direction)).getD .miss := by
  rw [trace_eq_nearestOf, hits_eq_hits_all, Shape.nearestOf_hits, met?]

variable {s data origin direction}

/-- The trace is the hit with the shape that is met, within reach and as near as any. -/
theorem met?_eq_some {x : Shape} (h : s.met? data origin direction = some x) :
    x ∈ s.all ∧ x.hit? data origin direction = some (s.trace data origin direction) ∧
      Hit.IsNearest (s.hits data origin direction) (s.trace data origin direction) := by
  have hNearest := List.find?_some h
  rw [Shape.isNearest, Option.any_eq_true] at hNearest
  obtain ⟨hit, hHit, hLeast⟩ := hNearest
  have hTrace : s.trace data origin direction = hit := by
    rw [trace_eq_met, h, Option.bind_some, hHit, Option.getD_some]
  rw [hTrace, hits_eq_hits_all]
  exact ⟨List.mem_of_find?_eq_some h, hHit, of_decide_eq_true hLeast⟩

/-- No shape is met exactly where none is within reach. -/
theorem met?_eq_none_iff : s.met? data origin direction = none ↔
    ∀ hit ∈ s.hits data origin direction, ¬hit.t < farDistance := by
  constructor
  · intro h hit hMem hNear
    have hLeast := (Hit.foldl_nearer (s.hits data origin direction)).2 hit hMem
    rw [← trace_eq_nearestOf, trace_eq_met, h] at hLeast
    exact hLeast hNear
  · intro h
    by_contra hSome
    obtain ⟨x, hx⟩ := Option.ne_none_iff_exists'.mp hSome
    obtain ⟨-, hHit, hNearest⟩ := met?_eq_some hx
    rw [hits_eq_hits_all] at h
    exact h _ (List.mem_filterMap.mpr ⟨x, (met?_eq_some hx).1, hHit⟩) hNearest.1

theorem trace_eq_miss_of_met? (h : s.met? data origin direction = none) :
    s.trace data origin direction = .miss := by
  rw [trace_eq_met, h]
  rfl

/-- Some shape is met exactly where one is within reach. -/
theorem isSome_met?_iff : (s.met? data origin direction).isSome = true ↔
    ∃ hit ∈ s.hits data origin direction, hit.t < farDistance := by
  rw [Option.isSome_iff_ne_none, ne_eq, met?_eq_none_iff]
  push Not
  rfl

theorem mem_all_primitive {p : Primitive} : .primitive p ∈ s.all ↔ p ∈ s.primitives := by
  simp [all]

theorem mem_all_lamp {l : Lamp} : .lamp l ∈ s.all ↔ l ∈ s.lamps := by
  simp [all]

end Shapes

/-! ### Records of a scene -/

/-- A lamp is that of a sphere light, with its slot and its material. -/
theorem Light.lamp?_eq_some {l : Light} {x : Lamp} :
    l.lamp? = some x ↔ l.kind = .sphere ∧ x = ⟨l.data, l.material⟩ := by
  unfold lamp?
  cases l.kind <;> simp [eq_comm]

theorem Shapes.mem_all_lamp_ofEntities {e : Entities} {l : Lamp} :
    .lamp l ∈ (Shapes.ofEntities e).all ↔ ∃ light ∈ e.lights, light.lamp? = some l :=
  mem_all_lamp.trans List.mem_filterMap

namespace Scene

variable {s : Scene} {g : SceneGraph} {time : Float32} {render : Node}

theorem exists_recorded (h : g.compileAt time = .ok s) (hRender : g.findRender = .ok render)
    {p : Primitive} (hp : p ∈ s.entities.primitives) :
    ∃ o ∈ render.occurrences [], o.RecordedAs s.materialIndex? time s.data.toList p :=
  exists_of_forall₂ (recorded h hRender) hp

/-- The materials of primitives are indices, or stand for none, and those of lamps are
indices. -/
theorem material_bounds (h : g.compileAt time = .ok s) (hFits : s.materials.length ≤ 2 ^ 31) :
    (∀ p ∈ s.entities.primitives, p.material = -1 ∨
      0 ≤ p.material ∧ p.material < s.materials.length) ∧
    ∀ l ∈ s.entities.lights, l.kind = .sphere →
      0 ≤ l.material ∧ l.material < s.materials.length := by
  obtain ⟨c, hKnown, hLength, hEntities⟩ := known_of_compileAt h
  refine ⟨fun p hp => ?_, fun l hl hKind => ?_⟩
  · exact (hKnown.primitives p (hEntities ▸ hp)).imp_right (bounds_of_isIndex hLength hFits)
  · exact bounds_of_isIndex hLength hFits (hKnown.spheres l (hEntities ▸ hl) hKind)

/-- The material of a shape is an index. Only primitives may have none instead. The bound is
on numbers with a sign, which is why the materials have to fit them. -/
theorem bounds_of_mem_all (h : g.compileAt time = .ok s) (hFits : s.materials.length ≤ 2 ^ 31)
    {x : Shape} (hx : x ∈ (Shapes.ofEntities s.entities).all) :
    -1 ≤ x.material ∧ x.material < s.materials.length ∧
      ((∀ p, x = .primitive p → 0 ≤ p.material) → 0 ≤ x.material) := by
  obtain ⟨hPrimitives, hLights⟩ := material_bounds h hFits
  cases x with
  | primitive p =>
      have hBounds := hPrimitives p (Shapes.mem_all_primitive.mp hx)
      refine ⟨?_, ?_, fun hIndex => hIndex p rfl⟩
      · rcases hBounds with hNone | ⟨hIndex, -⟩ <;> exact (by omega : -1 ≤ p.material)
      · rcases hBounds with hNone | ⟨-, hLess⟩
        · exact (by omega : p.material < s.materials.length)
        · exact hLess
  | lamp l =>
      obtain ⟨light, hLight, hLamp⟩ := Shapes.mem_all_lamp_ofEntities.mp hx
      obtain ⟨hKind, rfl⟩ := Light.lamp?_eq_some.mp hLamp
      obtain ⟨hIndex, hLess⟩ := hLights light hLight hKind
      exact ⟨Int.le_trans (by decide) hIndex, hLess, fun _ => hIndex⟩

end Scene

end PathTracer
