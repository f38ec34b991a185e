import PathTracer.Proofs.Binary32.Index
import PathTracer.Proofs.Render.Bounds
import PathTracer.Proofs.Render.Thumbnail
import PathTracer.Proofs.Scene.Meeting

/-! What the passes take for a surface. They ask for the number of the material of a hit,
and that of a primitive outside of all materials is the number of a ray that leaves the
scene, so that its hits are taken for none. -/
namespace PathTracer

/-! ### Hits -/

namespace Shapes

variable {s : Shapes} {data : Array (Vec4 Float32)} {origin direction : Vec3 Float32}

/-- The trace of what is met has the number of its material. -/
theorem material_trace {x : Shape} (h : s.met? data origin direction = some x) :
    (s.trace data origin direction).material = .ofInt x.material :=
  Shape.material_of_hit? (met?_eq_some h).2.1

/-- The trace has the sign of an index only where a shape with an index is met. -/
theorem material_sign (hIndices : ∀ x ∈ s.all, -1 ≤ x.material) :
    let hit := s.trace data origin direction
    (hit.isHit = true ↔ ∃ x, s.met? data origin direction = some x ∧ 0 ≤ x.material) ∧
      (hit.material < 0.0 ↔ ¬hit.isHit = true) := by
  intro hit
  cases hMet : s.met? data origin direction with
  | none =>
      have hMiss : hit = .miss := trace_eq_miss_of_met? hMet
      rw [hMiss]
      simp only [reduceCtorEq, false_and, exists_false, iff_false]
      decide
  | some x =>
      have hMaterial : hit.material = .ofInt x.material := material_trace hMet
      obtain ⟨hIndex, hNone⟩ := Binary32.ofInt_sign (hIndices x (met?_eq_some hMet).1)
      rw [Hit.isHit, decide_eq_true_iff, hMaterial, hIndex, hNone]
      simp

end Shapes

/-! ### Records -/

namespace Scene

variable {s : Scene} {g : SceneGraph} {time : Float32} {render : Node}

/-- A recorded primitive has no index exactly where no material is named on its trail. -/
theorem material_neg_iff (hFits : s.materials.length ≤ 2 ^ 31) {o : Occurrence} {p : Primitive}
    (h : o.RecordedAs s.materialIndex? time s.data.toList p) :
    p.material < 0 ↔ o.trail.names = [] := by
  rw [h.material]
  cases hLast : o.trail.names.getLast? with
  | none => simp [List.getLast?_eq_none_iff.mp hLast]
  | some name =>
      have hMem := List.mem_of_getLast? hLast
      obtain ⟨k, hIndex⟩ := Option.isSome_iff_exists.mp (h.resolved name hMem)
      obtain ⟨hBound, -⟩ := List.findIdx?_eq_some_iff_getElem.mp hIndex
      rw [Option.bind_some, hIndex, Option.map_some, Option.getD_some,
        wrapIndex_of_lt (Nat.lt_of_lt_of_le hBound hFits)]
      exact iff_of_false (by omega) (List.ne_nil_of_mem hMem)

/-- A ray hits something exactly where it meets a shape that is not a primitive without an
index, and otherwise the number of its material is negative. -/
theorem isHit_trace_iff (h : g.compileAt time = .ok s) (hFits : s.materials.length ≤ 2 ^ 31)
    (origin direction : Vec3 Float32) :
    let hit := (Shapes.ofEntities s.entities).trace s.data origin direction
    let met := (Shapes.ofEntities s.entities).met? s.data origin direction
    (hit.isHit = true ↔
        met.isSome = true ∧ ∀ p, met = some (.primitive p) → 0 ≤ p.material) ∧
      (hit.material < 0.0 ↔ ¬hit.isHit = true) := by
  intro hit met
  have hIndices : ∀ x ∈ (Shapes.ofEntities s.entities).all, -1 ≤ x.material :=
    fun x hx => (bounds_of_mem_all h hFits hx).1
  obtain ⟨hSign, hNegative⟩ : (hit.isHit = true ↔ ∃ x, met = some x ∧ 0 ≤ x.material) ∧
      (hit.material < 0.0 ↔ ¬hit.isHit = true) := Shapes.material_sign hIndices
  refine ⟨hSign.trans ⟨?_, ?_⟩, hNegative⟩
  · rintro ⟨x, hMet, hIndex⟩
    refine ⟨Option.isSome_iff_exists.mpr ⟨x, hMet⟩, fun p hp => ?_⟩
    obtain rfl : x = .primitive p := Option.some.inj (hMet.symm.trans hp)
    exact hIndex
  · rintro ⟨hSome, hIndex⟩
    obtain ⟨x, hMet⟩ := Option.isSome_iff_exists.mp hSome
    refine ⟨x, hMet, (bounds_of_mem_all h hFits (Shapes.met?_eq_some hMet).1).2.2 ?_⟩
    rintro p rfl
    exact hIndex p hMet

end Scene

/-! ### Passes -/

namespace Pass

/-- A pixel that keeps a hit scatters at it unless the number of its material is
negative. -/
theorem shade_record (s : Site) (hit : Hit) (p : Pixel) :
    shade s (record s hit p) =
      if hit.material < 0.0 then leave s (lit s (record s hit p))
      else scatterSurface s (lit s (record s hit p)) := by
  have hRoute := route_lit s (p := record s hit p)
  simp only [Pixel.route, List.cons.injEq] at hRoute
  obtain ⟨-, -, -, -, -, hDepth, hNormal, -⟩ := hRoute
  have hOpen : (lit s (record s hit p)).isDone = false := by
    have hZero : decide ((0.0 : Float32) < 0.0) = false := by decide
    rw [Pixel.isDone, hNormal]
    exact hZero
  have hMiss : (lit s (record s hit p)).isMiss = decide (hit.material < 0.0) := by
    rw [Pixel.isMiss, hDepth]
    rfl
  change scatter s (lit s (record s hit p)) = _
  rw [scatter, hOpen, if_neg Bool.false_ne_true, hMiss]
  simp only [decide_eq_true_iff]

end Pass

/-- A pixel of the view of a scene traces its shapes. -/
theorem Site.trace_of_main {s : Scene} {settings : Settings} {extent : Extent} {sample : Nat}
    {rng next : ChaCha} {frame : Frame}
    (h : Frame.main s settings extent sample rng = .ok (frame, next)) (index : Nat)
    (origin direction : Vec3 Float32) :
    Site.trace ⟨.ofScene s, frame, index⟩ origin direction =
      (Shapes.ofEntities s.entities).trace s.data origin direction := by
  obtain ⟨hData, hPreview, -⟩ := Frame.main_eq_ok h
  have hScene : ¬0 ≤ frame.preview := by
    rw [hPreview]
    decide
  exact (if_neg hScene).trans (by rw [hData]; rfl)

/-- In an accepted graph a ray hits something exactly where it meets a shape within reach
that is not a primitive outside of all materials, and only there the passes of the view
scatter it at a surface. Where a primitive has no index no material is named on its trail,
so that a graph whose primitives all are inside of some material has no such places. Such a
primitive is met and then taken for the background, since both have the number minus one.
More materials than a signed number holds are left out: their indices can be negative too.
-/
theorem SceneGraph.trace_isHit_iff {g : SceneGraph} {time : Float32} {s : Scene} {render : Node}
    (h : g.compileAt time = .ok s) (hRender : g.findRender = .ok render)
    (hFits : s.materials.length ≤ 2 ^ 31) :
    List.Forall₂ (fun o p => p.material < 0 ↔ o.trail.names = []) (render.occurrences [])
        s.entities.primitives ∧
      ∀ origin direction : Vec3 Float32,
        let shapes := Shapes.ofEntities s.entities
        let hit := shapes.trace s.data origin direction
        let met := shapes.met? s.data origin direction
        (met.isSome = true ↔ ∃ near ∈ shapes.hits s.data origin direction, near.t < farDistance) ∧
          (hit.isHit = true ↔
            met.isSome = true ∧ ∀ p, met = some (.primitive p) → 0 ≤ p.material) ∧
          ((∀ o ∈ render.occurrences [], o.trail.names ≠ []) →
            (hit.isHit = true ↔ met.isSome = true)) ∧
          ∀ settings extent sample rng frame next index pixel,
            Frame.main s settings extent sample rng = .ok (frame, next) →
              let site : Site := ⟨.ofScene s, frame, index⟩
              let kept := Pass.record site (site.trace origin direction) pixel
              Pass.shade site kept =
                if hit.isHit then Pass.scatterSurface site (Pass.lit site kept)
                else Pass.leave site (Pass.lit site kept) := by
  have hNamed : List.Forall₂ (fun o p => p.material < 0 ↔ o.trail.names = [])
      (render.occurrences []) s.entities.primitives :=
    (Scene.recorded h hRender).imp fun o p => Scene.material_neg_iff hFits
  refine ⟨hNamed, fun origin direction => ?_⟩
  intro shapes hit met
  obtain ⟨hHit, hNegative⟩ : (hit.isHit = true ↔
      met.isSome = true ∧ ∀ p, met = some (.primitive p) → 0 ≤ p.material) ∧
      (hit.material < 0.0 ↔ ¬hit.isHit = true) := Scene.isHit_trace_iff h hFits origin direction
  refine ⟨Shapes.isSome_met?_iff, hHit, fun hAll => ?_, ?_⟩
  · refine hHit.trans (and_iff_left fun p hMet => ?_)
    have hMem := Shapes.mem_all_primitive.mp (Shapes.met?_eq_some hMet).1
    obtain ⟨o, ho, hNames⟩ := exists_of_forall₂ hNamed hMem
    exact Int.not_lt.mp fun hNone => hAll o ho (hNames.mp hNone)
  · intro settings extent sample rng frame next index pixel hFrame site kept
    have hTrace : site.trace origin direction = hit := Site.trace_of_main hFrame index _ _
    have hShade : Pass.shade site kept =
        if (site.trace origin direction).material < 0.0 then Pass.leave site (Pass.lit site kept)
        else Pass.scatterSurface site (Pass.lit site kept) := Pass.shade_record site _ pixel
    rw [hShade, hTrace]
    simp only [hNegative, ite_not]

/-- A sphere outside of all materials is never hit, so that what is hit is always the lamp,
which has a material. -/
theorem SceneGraph.trace_isHit_iff_unnamed :
    let sphere : Node := .new (.primitive .sphere) .empty 6 []
    let object : Node := .new (.object .analytical) .empty 5 [sphere]
    let lamp : Node := .new (.light .sphere) ⟨[("material", .text "A")]⟩ 4 []
    let camera : Node := .new (.camera .perspective) .empty 3 []
    let render : Node := .new .render .empty 2 [camera, lamp, object]
    let g : SceneGraph := ⟨[.new (.material .surface []) ⟨[("name", .text "A")]⟩ 1 [], render]⟩
    ∃ s, g.compileAt 0.0 = .ok s ∧ g.findRender = .ok render ∧ s.materials.length = 1 ∧
      ∀ origin direction,
        let shapes := Shapes.ofEntities s.entities
        (shapes.trace s.data origin direction).isHit = true ↔
          ∃ l, shapes.met? s.data origin direction = some (.lamp l) := by
  intro sphere object lamp camera render g
  have hCompiles : (g.compileAt 0.0).toOption.map (fun s => s.materials.length) = some 1 := by
    decide
  have hRender : g.findRender = .ok render := rfl
  obtain ⟨s, hScene, hLength⟩ := exists_ok_of_map hCompiles
  refine ⟨s, hScene, hRender, hLength, fun origin direction => ?_⟩
  intro shapes
  obtain ⟨hNamed, hRays⟩ := trace_isHit_iff hScene hRender (by omega)
  obtain ⟨-, hHit, -, -⟩ := hRays origin direction
  have hOccurrences : render.occurrences [] =
      [⟨sphere, [⟨render, [camera, lamp]⟩, ⟨object, []⟩]⟩] := rfl
  have hBare : ∀ p, shapes.met? s.data origin direction = some (.primitive p) →
      p.material < 0 := by
    intro p hMet
    have hMem := Shapes.mem_all_primitive.mp (Shapes.met?_eq_some hMet).1
    obtain ⟨o, ho, hNames⟩ := exists_of_forall₂ hNamed hMem
    rw [hOccurrences, List.mem_singleton] at ho
    exact hNames.mpr (ho ▸ rfl)
  rw [hHit]
  constructor
  · rintro ⟨hSome, hIndex⟩
    obtain ⟨x, hMet⟩ := Option.isSome_iff_exists.mp hSome
    cases x with
    | primitive p => exact absurd (hBare p hMet) (hIndex p hMet).not_gt
    | lamp l => exact ⟨l, hMet⟩
  · rintro ⟨l, hMet⟩
    refine ⟨Option.isSome_iff_exists.mpr ⟨_, hMet⟩, fun p hp => ?_⟩
    cases hMet.symm.trans hp

end PathTracer
