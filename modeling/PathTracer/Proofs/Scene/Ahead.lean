import PathTracer.Proofs.Geometry.Slabs
import PathTracer.Proofs.Scene.Meeting

/-! Whether a ray meets shapes ahead of it. In the space of an object it does, but the
distance in the world is the product with the object's scale, and scales come from the
options of a graph as they are. -/
namespace PathTracer

open Binary32

/-! ### Distances that are not scaled -/

/-- A sphere is met ahead, if it is met. The distance is compared with zero before it is
returned, so that it is also a number. -/
theorem intersectSphere_pos {origin direction center : Vec3 Float32} {radius t : Float32}
    (h : intersectSphere origin direction center radius = some t) : 0.0 < t := by
  unfold intersectSphere at h
  dsimp only at h
  split at h
  · cases h
  · split at h
    · rename_i hNear
      cases h
      exact hNear
    · split at h
      · rename_i hFar
        cases h
        exact hFar
      · cases h

theorem intersectPlane_pos {origin direction normal : Vec3 Float32} {offset t : Float32}
    (h : intersectPlane origin direction normal offset = some t) : 0.0 < t := by
  unfold intersectPlane at h
  dsimp only at h
  split at h
  · cases h
  · split at h
    · rename_i hAhead
      cases h
      exact hAhead
    · cases h

namespace Primitive

variable (p : Primitive) (data : Array (Vec4 Float32)) (origin direction : Vec3 Float32)

/-- Where a ray meets a primitive, in the space of its object. -/
def localHit? : Option (Float32 × Vec3 Float32) :=
  let (localOrigin, localDirection) :=
    (Placement.ofSlots data p.object).toLocal origin direction
  p.intersectLocal data localOrigin localDirection

/-- The scale of the object of a primitive. -/
def scale : Float32 :=
  (Placement.ofSlots data p.object).scale

theorem hit?_eq_map : p.hit? data origin direction =
    (p.localHit? data origin direction).map fun (t, normal) =>
      .ofMaterial (t * p.scale data)
        (rotateEuler normal (Placement.ofSlots data p.object).rotation) p.material :=
  rfl

/-- A primitive that is met in the space of its object, but not ahead of the ray in the
world. -/
def TurnsBack : Prop :=
  ∃ t normal, p.localHit? data origin direction = some (t, normal) ∧ t * p.scale data ≤ 0.0

variable {p data origin direction}

/-- A sphere in an object whose scale is minus one. -/
def mirrored : Array (Vec4 Float32) :=
  #[.splat 0.0, .splat 0.0, ⟨-1.0, 0.0, 0.0, 0.0⟩, ⟨0.0, 0.0, 0.0, 1.0⟩]

/-- A ray that leaves the sphere behind turns back to it, provided that a turn by no angle
changes nothing. -/
theorem turnsBack_mirrored (hSin : (-0.0 : Float32).sin = -0.0)
    (hCos : (-0.0 : Float32).cos = 1.0) :
    (Primitive.mk .sphere 0 3 0).TurnsBack mirrored ⟨0.0, 0.0, 3.0⟩ ⟨0.0, 0.0, 1.0⟩ := by
  have hSlots : Placement.ofSlots mirrored 0 = ⟨⟨0.0, 0.0, 0.0⟩, ⟨0.0, 0.0, 0.0⟩, -1.0⟩ := rfl
  have hAngle : Scalar.radians (-(0.0 : Float32)) = -0.0 := by decide
  have hLocal : (Placement.ofSlots mirrored 0).toLocal ⟨0.0, 0.0, 3.0⟩ ⟨0.0, 0.0, 1.0⟩ =
      (⟨-0.0, -0.0, -3.0⟩, ⟨0.0, 0.0, 1.0⟩) := by
    simp only [hSlots, Placement.toLocal, rotateEulerInv, rotateAxis, hAngle, Scalar.sin,
      Scalar.cos, hSin, hCos]
    decide
  have hMet : (Primitive.mk .sphere 0 3 0).intersectLocal mirrored ⟨-0.0, -0.0, -3.0⟩
      ⟨0.0, 0.0, 1.0⟩ = some (2.0, ⟨0.0, 0.0, -1.0⟩) := by decide +kernel
  refine ⟨2.0, ⟨0.0, 0.0, -1.0⟩, ?_, by decide⟩
  simp only [localHit?, hLocal, hMet]

theorem pos_of_localHit? {t : Float32} {normal : Vec3 Float32}
    (h : p.localHit? data origin direction = some (t, normal)) : 0.0 < t ∨ t.isNaN = true := by
  unfold localHit? intersectLocal at h
  dsimp only at h
  split at h
  · obtain ⟨_, hSphere, hPair⟩ := Option.map_eq_some_iff.mp h
    cases hPair
    exact .inl (intersectSphere_pos hSphere)
  · exact Box.pos_or_isNaN h
  · obtain ⟨_, hPlane, hPair⟩ := Option.map_eq_some_iff.mp h
    cases hPair
    exact .inl (intersectPlane_pos hPlane)

theorem t_of_hit? {hit : Hit} (h : p.hit? data origin direction = some hit) :
    ∃ t normal, p.localHit? data origin direction = some (t, normal) ∧
      hit.t = t * p.scale data := by
  rw [hit?_eq_map] at h
  obtain ⟨⟨t, normal⟩, hLocal, rfl⟩ := Option.map_eq_some_iff.mp h
  exact ⟨t, normal, hLocal, rfl⟩

end Primitive

theorem Lamp.hit?_pos {l : Lamp} {data : Array (Vec4 Float32)} {origin direction : Vec3 Float32}
    {hit : Hit} (h : l.hit? data origin direction = some hit) : 0.0 < hit.t := by
  obtain ⟨t, hSphere, rfl⟩ := Option.map_eq_some_iff.mp h
  exact intersectSphere_pos hSphere

/-! ### The trace -/

namespace Shapes

variable {s : Shapes} {data : Array (Vec4 Float32)} {origin direction : Vec3 Float32}

theorem trace_le_far : (s.trace data origin direction).t ≤ farDistance := by
  cases hMet : s.met? data origin direction with
  | none =>
      rw [trace_eq_miss_of_met? hMet]
      decide
  | some x => exact le_of_lt (met?_eq_some hMet).2.2.1

/-- No hit is nearer than the trace. -/
theorem not_lt_trace {p : Primitive} (hp : p ∈ s.primitives) {t : Float32}
    {normal : Vec3 Float32} (h : p.localHit? data origin direction = some (t, normal)) :
    ¬t * p.scale data < (s.trace data origin direction).t := by
  rw [trace_eq_nearestOf]
  refine (Hit.foldl_nearer (s.hits data origin direction)).2 (.ofMaterial (t * p.scale data)
    (rotateEuler normal (Placement.ofSlots data p.object).rotation) p.material) ?_
  rw [hits_eq_append]
  refine List.mem_append_left _ (List.mem_filterMap.mpr ⟨p, hp, ?_⟩)
  rw [p.hit?_eq_map, h]
  rfl

/-- The trace is ahead of the ray unless a primitive turns back. -/
theorem trace_pos_iff_not_turnsBack : 0.0 < (s.trace data origin direction).t ↔
    ∀ p ∈ s.primitives, ¬p.TurnsBack data origin direction := by
  constructor
  · rintro hPos p hp ⟨t, normal, hLocal, hBehind⟩
    exact not_lt_trace hp hLocal (lt_of_le_of_lt hBehind hPos)
  · intro hAhead
    cases hMet : s.met? data origin direction with
    | none =>
        rw [trace_eq_miss_of_met? hMet]
        decide
    | some x =>
        obtain ⟨hMem, hHit, -⟩ := met?_eq_some hMet
        cases x with
        | lamp l => exact Lamp.hit?_pos hHit
        | primitive p =>
            obtain ⟨t, normal, hLocal, hDistance⟩ := Primitive.t_of_hit? hHit
            have hNumber := s.isNaN_trace data origin direction
            rw [hDistance] at hNumber ⊢
            refine pos_of_not_le hNumber fun hBehind => ?_
            exact hAhead p (mem_all_primitive.mp hMem) ⟨t, normal, hLocal, hBehind⟩

/-- It is behind the ray where a primitive is behind it. -/
theorem trace_neg_iff : (s.trace data origin direction).t < 0.0 ↔
    ∃ p ∈ s.primitives, ∃ t normal, p.localHit? data origin direction = some (t, normal) ∧
      t * p.scale data < 0.0 := by
  constructor
  · intro hBehind
    cases hMet : s.met? data origin direction with
    | none =>
        rw [trace_eq_miss_of_met? hMet] at hBehind
        exact absurd hBehind (by decide)
    | some x =>
        obtain ⟨hMem, hHit, -⟩ := met?_eq_some hMet
        cases x with
        | lamp l => exact absurd (lt_trans hBehind (Lamp.hit?_pos hHit)) (lt_irrefl _)
        | primitive p =>
            obtain ⟨t, normal, hLocal, hDistance⟩ := Primitive.t_of_hit? hHit
            exact ⟨p, mem_all_primitive.mp hMem, t, normal, hLocal, hDistance ▸ hBehind⟩
  · rintro ⟨p, hp, t, normal, hLocal, hBehind⟩
    have hReach : (s.trace data origin direction).t < 20000.0 :=
      s.trace_eq_nearestOf data origin direction ▸ Hit.nearestOf_t_lt _
    exact lt_of_not_lt_of_lt hReach (not_lt_trace hp hLocal) hBehind

end Shapes

/-! ### Scales -/

/-- All numbers with a property that multiplying keeps: so is the scale of placements
within each other. -/
theorem Placement.total_scale {P : Float32 → Prop} (hOne : P 1.0)
    (hMul : ∀ a b, P a → P b → P (a * b)) {placements : List (Placement Float32)}
    (h : ∀ p ∈ placements, P p.scale) : P (total placements).scale := by
  -- From the end, since the innermost scale is the last factor.
  induction placements using List.reverseRecOn with
  | nil => exact hOne
  | append_singleton outer p ih =>
      obtain ⟨hOuter, hInner⟩ := List.forall_mem_append.mp h
      rw [total_append_singleton]
      exact hMul _ _ (ih hOuter) (hInner p (List.mem_singleton_self p))

/-- The options of all objects around primitives give scales with a property. -/
def Node.ScalesAre (render : Node) (time : Float32) (P : Float32 → Prop) : Prop :=
  ∀ o ∈ render.occurrences [], ∀ n ∈ o.trail.objects, ∀ x,
    n.options.float1 "Scale" 1.0 time = .ok x → P x

/-- The third vector of a recorded placement begins with its scale. -/
theorem scale_of_slots {data : Array (Vec4 Float32)} {object : Nat} {place : Placement Float32}
    (h : place.slots <+: data.toList.drop object) :
    (Placement.ofSlots data object).scale = place.scale := by
  obtain ⟨rest, hRest⟩ := h
  have hThird : data[object + 2]? = some ⟨place.scale, 0.0, 0.0, 0.0⟩ := by
    rw [← Array.getElem?_toList, ← List.getElem?_drop, ← hRest]
    rfl
  simp [Placement.ofSlots, slot, Array.getD_eq_getD_getElem?, hThird]

namespace Scene

variable {s : Scene} {g : SceneGraph} {time : Float32} {render : Node}

/-- Multiplying keeps a property that all scales in a graph have. -/
theorem scale_of_compileAt (h : g.compileAt time = .ok s) (hRender : g.findRender = .ok render)
    {P : Float32 → Prop} (hOne : P 1.0) (hMul : ∀ a b, P a → P b → P (a * b))
    (hScales : render.ScalesAre time P) {p : Primitive} (hp : p ∈ s.entities.primitives) :
    P (p.scale s.data) := by
  obtain ⟨o, ho, hRecorded⟩ := exists_recorded h hRender hp
  obtain ⟨placements, hPlaced, hSlots⟩ := hRecorded.placement
  rw [Primitive.scale, scale_of_slots hSlots]
  refine Placement.total_scale hOne hMul fun place hPlace => ?_
  obtain ⟨n, hn, hAt⟩ := exists_of_forall₂ hPlaced hPlace
  exact hScales o ho n hn _ hAt.scale

end Scene

/-- The trace of a compiled scene is within reach. It is ahead of the ray unless there is a
primitive that is met ahead in the space of its object but turned back by its scale, and
behind the ray where the scaled distance is. Where all scales in the graph are one or more
the trace is ahead, and where none is negative it is not behind. What is met is at a
positive distance in the space of its object, and it is the scale that turns it. A scale
between zero and one may round a distance to zero, which is neither ahead nor behind. -/
theorem SceneGraph.trace_pos_iff {g : SceneGraph} {time : Float32} {s : Scene} {render : Node}
    (h : g.compileAt time = .ok s) (hRender : g.findRender = .ok render)
    (origin direction : Vec3 Float32) :
    let t := ((Shapes.ofEntities s.entities).trace s.data origin direction).t
    t ≤ farDistance ∧
      (∀ p ∈ s.entities.primitives, ∀ near normal,
        p.localHit? s.data origin direction = some (near, normal) →
          0.0 < near ∨ near.isNaN = true) ∧
      (0.0 < t ↔ ∀ p ∈ s.entities.primitives, ¬p.TurnsBack s.data origin direction) ∧
      (t < 0.0 ↔ ∃ p ∈ s.entities.primitives, ∃ near normal,
        p.localHit? s.data origin direction = some (near, normal) ∧
          near * p.scale s.data < 0.0) ∧
      (render.ScalesAre time (1.0 ≤ ·) → 0.0 < t) ∧
      (render.ScalesAre time (¬· < 0.0) → ¬t < 0.0) := by
  intro t
  refine ⟨Shapes.trace_le_far, fun p _ near normal => Primitive.pos_of_localHit?,
    Shapes.trace_pos_iff_not_turnsBack, Shapes.trace_neg_iff, fun hScales => ?_, fun hScales => ?_⟩
  · refine Shapes.trace_pos_iff_not_turnsBack.mpr ?_
    rintro p hp ⟨near, normal, hLocal, hBehind⟩
    have hScale : 1.0 ≤ p.scale s.data :=
      Scene.scale_of_compileAt (P := (1.0 ≤ ·)) h hRender (by decide)
        (fun _ _ => one_le_mul) hScales hp
    rcases Primitive.pos_of_localHit? hLocal with hPos | hNumber
    · exact lt_irrefl _ (lt_of_le_of_lt hBehind (mul_pos_of_one_le hPos hScale))
    · exact not_le_of_isNaN (isNaN_mul_left hNumber) hBehind
  · intro hBehind
    obtain ⟨p, hp, near, normal, hLocal, hNegative⟩ := Shapes.trace_neg_iff.mp hBehind
    have hScale : ¬p.scale s.data < 0.0 :=
      Scene.scale_of_compileAt (P := (¬· < 0.0)) h hRender (by decide)
        (fun _ _ => not_neg_mul) hScales hp
    refine not_neg_mul (fun hNear => ?_) hScale hNegative
    rcases Primitive.pos_of_localHit? hLocal with hPos | hNumber
    · exact lt_irrefl _ (lt_trans hNear hPos)
    · rw [isNaN_of_lt hNear] at hNumber
      cases hNumber

/-- A sphere in an object within another, neither of which is scaled, is ahead of every
ray that meets it. -/
theorem SceneGraph.trace_pos_iff_unscaled :
    let camera : Node := .new (.camera .perspective) .empty 2 []
    let sphere : Node := .new (.primitive .sphere) .empty 5 []
    let inner : Node := .new (.object .analytical) .empty 4 [sphere]
    let outer : Node := .new (.object .analytical) .empty 3 [inner]
    let render : Node := .new .render .empty 1 [camera, outer]
    let g : SceneGraph := ⟨[render]⟩
    ∃ s, g.compileAt 0.0 = .ok s ∧ g.findRender = .ok render ∧ ∀ origin direction,
      0.0 < ((Shapes.ofEntities s.entities).trace s.data origin direction).t := by
  intro camera sphere inner outer render g
  have hCompiles : (g.compileAt 0.0).isOk = true := by decide
  have hRender : g.findRender = .ok render := rfl
  have hScales : render.ScalesAre 0.0 (1.0 ≤ ·) := by
    intro o ho n hn x hx
    have hOccurrences : render.occurrences [] =
        [⟨sphere, [⟨render, [camera]⟩, ⟨outer, []⟩, ⟨inner, []⟩]⟩] := rfl
    rw [hOccurrences, List.mem_singleton] at ho
    subst ho
    have hOption : n.options.float1 "Scale" 1.0 0.0 = .ok 1.0 := by
      have hObjects : n ∈ [outer, inner] := hn
      simp only [List.mem_cons, List.not_mem_nil, or_false] at hObjects
      obtain rfl | rfl := hObjects <;> rfl
    obtain rfl : 1.0 = x := Except.ok.inj (hOption.symm.trans hx)
    decide
  obtain ⟨s, hScene⟩ := exists_ok_of_isOk hCompiles
  refine ⟨s, hScene, hRender, fun origin direction => ?_⟩
  obtain ⟨-, -, -, -, hAhead, -⟩ := trace_pos_iff hScene hRender origin direction
  exact hAhead hScales

end PathTracer
