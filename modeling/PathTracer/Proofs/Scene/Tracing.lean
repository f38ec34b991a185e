import PathTracer.Proofs.Geometry.Nearest
import PathTracer.Proofs.Scene.Emission
import PathTracer.Proofs.Shader.Execution

/-! The scene function against the trace of a scene. Both keep the nearest hit,
the function over all shapes in the order of the walk and the trace over the
primitives before the lamps. They differ where a lamp comes before a primitive
that is exactly as near. -/
namespace PathTracer

open Shader (Datum Env Library)

/-! ### The scene function -/

namespace Hit

/-- A hit as generated code sees it. -/
def datum (h : Hit) : Datum :=
  .record "Hit" [("t", [h.t]), ("normal", h.normal.toList), ("material", [h.material]),
    ("blend", [h.blend])]

def ofDatum? : Datum → Option Hit
  | .record "Hit" [("t", [t]), ("normal", [x, y, z]), ("material", [material]),
      ("blend", [blend])] => some ⟨t, ⟨x, y, z⟩, material, blend⟩
  | _ => none

end Hit

namespace Shape

/-- The shape that a call intersects, by the function and the arguments
between the ray and the hit. -/
def ofCall? (function : String) : List Datum → Option Shape
  | [.uint object, .uint data, .int material] =>
    ([.sphere, .box, .plane].find? (Node.primitiveFunction · = function)).map fun kind =>
      .primitive ⟨kind, object, data, material⟩
  | [.uint data, .int material] =>
    if function = "prim_light_sphere" then some (.lamp ⟨data, material⟩) else none
  | _ => none

/-- The hit of a ray with a shape. -/
def hit? (data : Array (Vec4 Float32)) (origin direction : Vec3 Float32) : Shape → Option Hit
  | primitive p => p.hit? data origin direction
  | lamp l => l.hit? data origin direction

end Shape

/-- The geometry functions of a program over constant data. A call for a shape
replaces the hit that it gets exactly where the ray meets the shape strictly
nearer. -/
def Shader.Library.geometry (data : Array (Vec4 Float32)) : Library where
  global _ := none
  call function args :=
    match args with
    | [] => if function = "no_hit" then some Hit.miss.datum else none
    | .floats [ox, oy, oz] :: .floats [dx, dy, dz] :: rest =>
      (rest.getLast?.bind Hit.ofDatum?).bind fun best =>
        (Shape.ofCall? function rest.dropLast).map fun s =>
          (best.orNearer (s.hit? data ⟨ox, oy, oz⟩ ⟨dx, dy, dz⟩)).datum
    | _ => none

variable (data : Array (Vec4 Float32)) (origin direction : Vec3 Float32)

/-- The variables of the scene function. -/
def sceneEnv (best : Hit) : Env :=
  [("hit", best.datum), ("ro", .floats origin.toList), ("rd", .floats direction.toList)]

theorem exec_statement (s : Shape) (best : Hit) :
    s.statement.exec (.geometry data) (sceneEnv origin direction best) =
      some (.running (sceneEnv origin direction
        (best.orNearer (s.hit? data origin direction)))) := by
  cases s with
  | primitive p =>
      obtain ⟨kind, object, slot, material⟩ := p
      cases kind <;> rfl
  | lamp l => rfl

/-- Statements that place shapes keep the nearest hit with one after the other. A tie goes
to the shape that comes first in the statements, while the trace prefers primitives. -/
theorem execAll_of_places {statements : List Shader.Stmt} {order : List Shape}
    (h : Places statements order) (best : Hit) :
    Shader.Stmt.execAll (.geometry data) (sceneEnv origin direction best) statements =
      some (.running (sceneEnv origin direction
        ((order.map (Shape.hit? data origin direction)).foldl Hit.orNearer best))) := by
  induction h generalizing best with
  | nil => rfl
  | comment text _ ih =>
      rw [Shader.Stmt.execAll_cons_of_running rfl, ih]
  | shape s _ ih =>
      rw [Shader.Stmt.execAll_cons_of_running (exec_statement data origin direction s best), ih]
      rfl

/-- The candidates of a ray in the order of some shapes. -/
def Shape.hits (order : List Shape) : List Hit :=
  order.filterMap (Shape.hit? data origin direction)

/-- The scene function returns what its statements, one after the other, keep as the nearest
hit. -/
theorem run_sceneFunction {statements : List Shader.Stmt} {order : List Shape}
    (h : Places statements order) :
    (Shader.sceneFunction statements).run (.geometry data)
        [.floats origin.toList, .floats direction.toList] =
      some (Hit.nearestOf (Shape.hits data origin direction order)).datum := by
  have hDeclare : (Shader.Stmt.declare "hit" (.named "Hit") (some (.call "no_hit" []))).exec
      (.geometry data) [("ro", .floats origin.toList), ("rd", .floats direction.toList)] =
      some (.running (sceneEnv origin direction .miss)) := rfl
  refine Shader.Function.run_of_returned rfl rfl ?_ rfl rfl
  change Shader.Stmt.execAll (.geometry data)
    [("ro", .floats origin.toList), ("rd", .floats direction.toList)] (_ :: (_ ++ _)) = _
  rw [Shader.Stmt.execAll_cons_of_running hDeclare,
    Shader.Stmt.execAll_append_of_running (execAll_of_places data origin direction h _),
    Hit.foldl_orNearer]
  simp [Shader.Stmt.execAll, Shader.Stmt.exec, Shader.Expr.eval, sceneEnv, Shape.hits,
    List.reduceOption]

/-! ### The order of shapes -/

namespace Shape

def isPrimitive (s : Shape) : Bool :=
  s.primitive?.isSome

/-- A shape that a ray meets, with no other shape nearer. -/
def isNearest (order : List Shape) (s : Shape) : Bool :=
  (s.hit? data origin direction).any (Hit.IsNearest (hits data origin direction order) ·)

/-- The first of the nearest shapes in an order. -/
def first? (order : List Shape) : Option Shape :=
  order.find? (isNearest data origin direction order)

/-- Shapes in the order in which the trace tests them. -/
def primitivesFirst (order : List Shape) : List Shape :=
  order.filter isPrimitive ++ order.filter (!·.isPrimitive)

theorem hits_primitivesFirst_perm (order : List Shape) :
    (hits data origin direction (primitivesFirst order)).Perm (hits data origin direction order) :=
  (List.filter_append_perm isPrimitive order).filterMap _

theorem isNearest_primitivesFirst (order : List Shape) :
    isNearest data origin direction (primitivesFirst order) =
      isNearest data origin direction order := by
  funext s
  have hPerm := hits_primitivesFirst_perm data origin direction order
  simp only [isNearest, Hit.isNearest_perm hPerm]

/-- The hit that is left is that of the first nearest shape. -/
theorem nearestOf_hits (order : List Shape) :
    Hit.nearestOf (hits data origin direction order) =
      ((first? data origin direction order).bind (hit? data origin direction)).getD .miss := by
  rw [Hit.nearestOf, hits, List.find?_filterMap]
  rfl

end Shape

/-- The trace keeps the nearest hit with the primitives before the lamps. -/
theorem Shapes.trace_ofOrder (order : List Shape) :
    (Shapes.ofOrder order).trace data origin direction =
      Hit.nearestOf (Shape.hits data origin direction (Shape.primitivesFirst order)) := by
  rw [trace, Hit.foldl_orNearer]
  congr 1
  simp only [candidates, ofOrder, Shape.hits, Shape.primitivesFirst, List.reduceOption,
    List.filterMap_append, List.filterMap_map, List.filterMap_filterMap, List.filterMap_filter]
  congr 2 <;> funext s <;> cases s <;> rfl

/-- To look among some first and then among the others is to look among some
first and then among all. -/
theorem find?_and_or {α : Type} (p q : α → Bool) (xs : List α) :
    (xs.find? fun x => p x && q x).or (xs.find? fun x => !p x && q x) =
      (xs.find? fun x => p x && q x).or (xs.find? q) := by
  induction xs with
  | nil => rfl
  | cons x rest ih => cases hp : p x <;> cases hq : q x <;> simp [hp, hq, ih]

namespace Shape

/-- The first primitive among the nearest shapes in an order. -/
def firstPrimitive? (order : List Shape) : Option Shape :=
  order.find? fun s => s.isPrimitive && isNearest data origin direction order s

theorem first?_primitivesFirst (order : List Shape) :
    first? data origin direction (primitivesFirst order) =
      (firstPrimitive? data origin direction order).or (first? data origin direction order) := by
  rw [first?, isNearest_primitivesFirst, primitivesFirst, List.find?_append, List.find?_filter,
    List.find?_filter, firstPrimitive?, first?, ← find?_and_or]
  simp

variable {data origin direction} {order : List Shape}

theorem exists_hit_of_first? {s : Shape} (h : first? data origin direction order = some s) :
    ∃ hit, s.hit? data origin direction = some hit := by
  have hNearest := List.find?_some h
  rw [isNearest, Option.any_eq_true] at hNearest
  obtain ⟨hit, hHit, _⟩ := hNearest
  exact ⟨hit, hHit⟩

theorem exists_hit_of_firstPrimitive? {s : Shape}
    (h : firstPrimitive? data origin direction order = some s) :
    ∃ p hit, s = .primitive p ∧ p.hit? data origin direction = some hit := by
  have hBoth := List.find?_some h
  rw [Bool.and_eq_true, isNearest, Option.any_eq_true] at hBoth
  obtain ⟨hKind, hit, hHit, _⟩ := hBoth
  cases s with
  | primitive p => exact ⟨p, hit, rfl, hHit⟩
  | lamp l => cases hKind

theorem firstPrimitive?_of_first?_eq_none (h : first? data origin direction order = none) :
    firstPrimitive? data origin direction order = none := by
  rw [first?, List.find?_eq_none] at h
  rw [firstPrimitive?, List.find?_eq_none]
  intro s hs hBoth
  exact h s hs (Bool.and_eq_true_iff.mp hBoth).2

/-- A primitive that comes first is also the first primitive. -/
theorem firstPrimitive?_of_first? {p : Primitive}
    (h : first? data origin direction order = some (.primitive p)) :
    firstPrimitive? data origin direction order = some (.primitive p) := by
  rw [first?, List.find?_eq_some_iff_append] at h
  obtain ⟨hNearest, before, after, hSplit, hBefore⟩ := h
  rw [firstPrimitive?, List.find?_eq_some_iff_append]
  refine ⟨by rw [hNearest]; rfl, before, after, hSplit, fun s hs => ?_⟩
  rw [Bool.not_and, hBefore s hs, Bool.or_true]

variable (data origin direction order)

/-- A lamp comes first among the nearest shapes, and the first primitive among
them is hit in another way. -/
def LampFirst : Prop :=
  ∃ l p, first? data origin direction order = some (.lamp l) ∧
    firstPrimitive? data origin direction order = some (.primitive p) ∧
    l.hit? data origin direction ≠ p.hit? data origin direction

/-- A scene with the sphere of a light and a sphere in the same place. Both stand
behind the placements that they are given in. -/
def overlap : Array (Vec4 Float32) :=
  let placement : List (Vec4 Float32) := [.splat 0.0, .splat 0.0, ⟨1.0, 0.0, 0.0, 0.0⟩]
  let sphere : List (Vec4 Float32) := [⟨0.0, 0.0, 0.0, 1.0⟩]
  (placement ++ sphere ++ placement ++ sphere).toArray

section overlap

-- Core leaves sine and cosine without a model.
variable (hSin : (-0.0 : Float32).sin = -0.0) (hCos : (-0.0 : Float32).cos = 1.0)
include hSin hCos

theorem toLocal_overlap :
    (Placement.ofSlots overlap 4).toLocal ⟨0.0, 0.0, -3.0⟩ ⟨0.0, 0.0, 1.0⟩ =
      (⟨0.0, 0.0, -3.0⟩, ⟨0.0, 0.0, 1.0⟩) := by
  have hSlots : Placement.ofSlots overlap 4 = ⟨⟨0.0, 0.0, 0.0⟩, ⟨0.0, 0.0, 0.0⟩, 1.0⟩ := rfl
  have hAngle : Scalar.radians (-(0.0 : Float32)) = -0.0 := by decide
  simp only [hSlots, Placement.toLocal, rotateEulerInv, rotateAxis, hAngle, Scalar.sin,
    Scalar.cos, hSin, hCos]
  decide

theorem exists_hit_overlap :
    ∃ normal, (Primitive.mk .sphere 4 7 0).hit? overlap ⟨0.0, 0.0, -3.0⟩ ⟨0.0, 0.0, 1.0⟩ =
      some ⟨2.0, normal, 0.0, 0.0⟩ := by
  have hMet : (Primitive.mk .sphere 4 7 0).intersectLocal overlap ⟨0.0, 0.0, -3.0⟩
      ⟨0.0, 0.0, 1.0⟩ = some (2.0, ⟨0.0, 0.0, -1.0⟩) := by decide +kernel
  have hScale : (2.0 : Float32) * (Placement.ofSlots overlap 4).scale = 2.0 := by decide
  have hMaterial : Float32.ofInt 0 = 0.0 := by decide
  simp only [Primitive.hit?, toLocal_overlap hSin hCos, hMet, Option.map_some, Hit.ofMaterial,
    hScale, hMaterial]
  exact ⟨_, rfl⟩

/-- The lamp takes the hit when it comes first, provided that a turn by no angle
changes nothing. -/
theorem lampFirst_overlap :
    LampFirst overlap ⟨0.0, 0.0, -3.0⟩ ⟨0.0, 0.0, 1.0⟩
      [.lamp ⟨3, 1⟩, .primitive ⟨.sphere, 4, 7, 0⟩] := by
  have hLamp : (Lamp.mk 3 1).hit? overlap ⟨0.0, 0.0, -3.0⟩ ⟨0.0, 0.0, 1.0⟩ =
      some ⟨2.0, ⟨0.0, 0.0, -1.0⟩, 1.0, 0.0⟩ := by decide +kernel
  obtain ⟨normal, hSphere⟩ := exists_hit_overlap hSin hCos
  have hHits : hits overlap ⟨0.0, 0.0, -3.0⟩ ⟨0.0, 0.0, 1.0⟩
      [.lamp ⟨3, 1⟩, .primitive ⟨.sphere, 4, 7, 0⟩] =
      [⟨2.0, ⟨0.0, 0.0, -1.0⟩, 1.0, 0.0⟩, ⟨2.0, normal, 0.0, 0.0⟩] := by
    simp [hits, hit?, hLamp, hSphere]
  have hFar : (2.0 : Float32) < farDistance := by decide
  refine ⟨⟨3, 1⟩, ⟨.sphere, 4, 7, 0⟩, ?_, ?_, ?_⟩
  · simp [first?, isNearest, hHits, hit?, hLamp, Hit.IsNearest, hFar, Binary32.lt_irrefl]
  · simp [firstPrimitive?, isPrimitive, primitive?, isNearest, hHits, hit?, hSphere,
      Hit.IsNearest, hFar, Binary32.lt_irrefl]
  · have hMaterials : (1.0 : Float32) ≠ 0.0 := by decide
    rw [hLamp, hSphere]
    simp [hMaterials]

end overlap

end Shape

/-- The nearest hit in the order of the walk is the trace, unless a lamp comes
first where the trace takes a primitive. -/
theorem nearestOf_eq_trace_iff (order : List Shape) :
    Hit.nearestOf (Shape.hits data origin direction order) =
        (Shapes.ofOrder order).trace data origin direction ↔
      ¬Shape.LampFirst data origin direction order := by
  rw [Shapes.trace_ofOrder, Shape.nearestOf_hits, Shape.nearestOf_hits,
    Shape.first?_primitivesFirst]
  cases hPrimitive : Shape.firstPrimitive? data origin direction order with
  | none => simp [Shape.LampFirst, hPrimitive]
  | some s =>
      obtain ⟨p, hit, rfl, hHit⟩ := Shape.exists_hit_of_firstPrimitive? hPrimitive
      cases hFirst : Shape.first? data origin direction order with
      | none => simp [Shape.firstPrimitive?_of_first?_eq_none hFirst] at hPrimitive
      | some x =>
          cases x with
          | primitive q =>
              rw [Shape.firstPrimitive?_of_first? hFirst] at hPrimitive
              simp [Shape.LampFirst, hFirst, hPrimitive]
          | lamp l =>
              obtain ⟨other, hOther⟩ := Shape.exists_hit_of_first? hFirst
              have hLamp : l.hit? data origin direction = some other := hOther
              have hShape : (Shape.primitive p).hit? data origin direction = some hit := hHit
              simp [Shape.LampFirst, hFirst, hPrimitive, hOther, hShape, hLamp, hHit]

/-- What the order of the walk leaves is as near as the trace. -/
theorem nearestOf_t_eq_trace (order : List Shape) :
    (Hit.nearestOf (Shape.hits data origin direction order)).t ≤
        ((Shapes.ofOrder order).trace data origin direction).t ∧
      ((Shapes.ofOrder order).trace data origin direction).t ≤
        (Hit.nearestOf (Shape.hits data origin direction order)).t := by
  have hPerm := Shape.hits_primitivesFirst_perm data origin direction order
  rw [Shapes.trace_ofOrder]
  exact ⟨Hit.nearestOf_le hPerm.subset, Hit.nearestOf_le hPerm.symm.subset⟩

/-- The scene function of a compiled scene places the shapes of the scene in the order of
its walk. Over any data it finds for every ray a hit as near as the trace does. It is the
same hit if and only if no lamp comes before a primitive that is as near and is hit in
another way. The trace tries all primitives before the lamps, and the function follows the
graph, so that only a tie of the two kinds tells them apart. The data need not be those of
the scene. -/
theorem SceneGraph.sceneFunction_eq_trace_iff {g : SceneGraph} {time : Float32} {s : Scene}
    (h : g.compileAt time = .ok s) :
    ∃ statements order, s.program.functions.getLast? = some (Shader.sceneFunction statements) ∧
      Places statements order ∧ Shapes.ofEntities s.entities = .ofOrder order ∧
      ∀ data origin direction, ∃ hit : Hit,
        let traced := (Shapes.ofEntities s.entities).trace data origin direction
        (Shader.sceneFunction statements).run (.geometry data)
            [.floats origin.toList, .floats direction.toList] = some hit.datum ∧
          hit.t ≤ traced.t ∧ traced.t ≤ hit.t ∧
          (hit = traced ↔ ¬Shape.LampFirst data origin direction order) := by
  obtain ⟨statements, order, hLast, hPlaces, hShapes⟩ := g.compileAt_places h
  refine ⟨statements, order, hLast, hPlaces, hShapes, fun data origin direction => ?_⟩
  obtain ⟨hAbove, hBelow⟩ := nearestOf_t_eq_trace data origin direction order
  rw [hShapes]
  exact ⟨_, run_sceneFunction data origin direction hPlaces, hAbove, hBelow,
    nearestOf_eq_trace_iff data origin direction order⟩

/-- A lamp before a sphere. -/
theorem SceneGraph.sceneFunction_eq_trace_iff_lamp :
    let g : SceneGraph := ⟨[.new (.material .surface []) ⟨[("name", .text "Lamp")]⟩ 1 [],
      .new .render .empty 2 [.new (.camera .perspective) .empty 3 [],
        .new (.light .sphere) ⟨[("material", .text "Lamp")]⟩ 4 [],
        .new (.object .analytical) .empty 5 [.new (.primitive .sphere) .empty 6 []]]]⟩
    ∃ s, g.compileAt 0.0 = .ok s ∧ ∃ statements order, Places statements order ∧
      ∀ data origin direction, ∃ hit : Hit,
        (Shader.sceneFunction statements).run (.geometry data)
            [.floats origin.toList, .floats direction.toList] = some hit.datum ∧
          (hit = (Shapes.ofEntities s.entities).trace data origin direction ↔
            ¬Shape.LampFirst data origin direction order) := by
  intro g
  have hCompiles : (g.compileAt 0.0).isOk = true := by decide
  obtain ⟨s, hScene⟩ := exists_ok_of_isOk hCompiles
  obtain ⟨statements, order, _, hPlaces, _, hRays⟩ := sceneFunction_eq_trace_iff hScene
  refine ⟨s, hScene, statements, order, hPlaces, fun data origin direction => ?_⟩
  obtain ⟨hit, hRun, _, _, hSame⟩ := hRays data origin direction
  exact ⟨hit, hRun, hSame⟩

end PathTracer
