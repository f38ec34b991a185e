import PathTracer.Proofs.Scene.Acceptance
import PathTracer.Proofs.Scene.Emission

/-! The shapes that a kept program places, beside those of its scene. A refresh
compares primitives one by one and lights only by their number, so that a
program goes on placing the lamps of the scene it was compiled for. -/
namespace PathTracer

/-! ### Shapes read from a program -/

/-- The kind of primitive that a shader function intersects. -/
def PrimitiveKind.ofFunction? (function : String) : Option PrimitiveKind :=
  [PrimitiveKind.sphere, .box, .plane].find? fun kind => Node.primitiveFunction kind == function

namespace Shape

/-- The shape that a statement places. -/
def ofStatement? : Shader.Stmt → Option Shape
  | .assign (.ident "hit") (.call function
      [.ident "ro", .ident "rd", .uint object, .uint data, .int material, .ident "hit"]) =>
    (PrimitiveKind.ofFunction? function).map fun kind => .primitive ⟨kind, object, data, material⟩
  | .assign (.ident "hit") (.call "prim_light_sphere"
      [.ident "ro", .ident "rd", .uint data, .int material, .ident "hit"]) =>
    some (.lamp ⟨data, material⟩)
  | _ => none

@[simp]
theorem ofStatement?_statement (s : Shape) : ofStatement? s.statement = some s := by
  cases s with
  | primitive p =>
      obtain ⟨kind, object, data, material⟩ := p
      cases kind <;> rfl
  | lamp l => rfl

end Shape

/-- The order in which statements place shapes is read off them. -/
theorem Places.filterMap_eq {statements : List Shader.Stmt} {order : List Shape}
    (h : Places statements order) : statements.filterMap Shape.ofStatement? = order := by
  induction h with
  | nil => rfl
  | comment text _ ih =>
      rw [List.filterMap_cons]
      exact ih
  | shape s _ ih => rw [List.filterMap_cons, Shape.ofStatement?_statement, ih]

/-- The shapes that the scene function of a program places. -/
def Shader.Program.placed (p : Program) : Shapes :=
  .ofOrder ((p.functions.getLast?.elim [] Function.body).filterMap Shape.ofStatement?)

namespace Scene

/-- The shapes that a scene records. -/
def shapes (s : Scene) : Shapes :=
  .ofEntities s.entities

/-- The program of a scene places exactly what the scene records. -/
structure Matches (s : Scene) : Prop where
  primitives : s.program.placed.primitives.Perm s.shapes.primitives
  lamps : s.program.placed.lamps.Perm s.shapes.lamps

theorem placed_of_compileAt {g : SceneGraph} {time : Float32} {s : Scene}
    (h : g.compileAt time = .ok s) : s.program.placed = s.shapes := by
  obtain ⟨statements, order, hLast, hPlaces, hShapes⟩ := g.compileAt_places h
  have hBody : (Shader.sceneFunction statements).body.filterMap Shape.ofStatement? = order := by
    change (_ :: (statements ++ [_])).filterMap _ = _
    rw [List.filterMap_cons, List.filterMap_append, hPlaces.filterMap_eq]
    exact List.append_nil order
  rw [Shader.Program.placed, hLast, Option.elim_some, hBody, shapes, hShapes]

/-! ### Refreshes that keep the program -/

/-- Whether a refresh finds the layout unchanged and so keeps the program. -/
def keeps (s : Scene) (g : SceneGraph) (time : Float32) : Bool :=
  match g.findRender, g.definitions with
  | .ok render, .ok definitions => s.sameLayout (SceneGraph.walkedAt render definitions time)
  | _, _ => false

/-- A refresh keeps the program and the primitives, or it compiles the graph. In the first
case the number of lights is that of before, and nothing else is known of them. -/
theorem refresh_cases {s next : Scene} {g : SceneGraph} {time : Float32}
    (h : s.refresh g time = .ok next) :
    (s.keeps g time = true ∧ next.program = s.program ∧
        next.entities.primitives = s.entities.primitives) ∨
      s.keeps g time = false ∧ g.compileAt time = .ok next := by
  obtain ⟨render, definitions, hRender, hDefinitions, _, hNext⟩ := refresh_eq_ok.mp h
  have hKeeps : s.keeps g time = s.sameLayout (SceneGraph.walkedAt render definitions time) := by
    rw [keeps, hRender, hDefinitions]
  rw [hKeeps]
  unfold refreshed at hNext
  split at hNext
  · rename_i hSame
    cases hNext
    simp only [sameLayout, Bool.and_eq_true, decide_eq_true_eq] at hSame
    exact .inl ⟨by simp [sameLayout, hSame], rfl, hSame.1.2⟩
  · rename_i hOther
    exact .inr ⟨by simpa using hOther, hNext⟩

/-- The scene of the last edit that compiled its graph, or `origin` where no edit
did. -/
def lastCompiled (origin s : Scene) : List Edit → Scene
  | [] => origin
  | (g, time) :: rest =>
    match s.refresh g time with
    | .error _ => origin
    | .ok next => lastCompiled (if s.keeps g time then origin else next) next rest

/-- A program that was compiled for `origin`, with the primitives of a scene
still those of `origin`. -/
structure KeptFrom (origin s : Scene) : Prop where
  placed : s.program.placed = origin.shapes
  primitives : s.entities.primitives = origin.entities.primitives

theorem keptFrom_of_compileAt {g : SceneGraph} {time : Float32} {s : Scene}
    (h : g.compileAt time = .ok s) : s.KeptFrom s :=
  ⟨placed_of_compileAt h, rfl⟩

/-- What a scene is kept from moves on only where a refresh compiles. -/
theorem KeptFrom.refresh {origin s next : Scene} {g : SceneGraph} {time : Float32}
    (h : KeptFrom origin s) (hNext : s.refresh g time = .ok next) :
    KeptFrom (if s.keeps g time then origin else next) next := by
  obtain ⟨hKeeps, hProgram, hPrimitives⟩ | ⟨hKeeps, hCompile⟩ := refresh_cases hNext
  · rw [if_pos hKeeps]
    exact ⟨hProgram ▸ h.placed, hPrimitives.trans h.primitives⟩
  · rw [hKeeps, if_neg Bool.false_ne_true]
    exact keptFrom_of_compileAt hCompile

/-- Edits lead to a scene that is kept from the last compiled one. -/
theorem KeptFrom.refreshThrough {origin s last : Scene} {edits : List Edit}
    (h : KeptFrom origin s) (hEdits : s.refreshThrough edits = .ok last) :
    KeptFrom (lastCompiled origin s edits) last := by
  induction edits generalizing origin s with
  | nil =>
      cases hEdits
      exact h
  | cons e rest ih =>
      obtain ⟨g, time⟩ := e
      obtain ⟨next, hNext, hRest⟩ := refreshThrough_cons_eq_ok.mp hEdits
      rw [lastCompiled, hNext]
      exact ih (h.refresh hNext) hRest

/-- A kept program places the primitives of its scene, and it matches the scene if
and only if the lamps are still those of the scene that was compiled. -/
theorem KeptFrom.matches_iff {origin s : Scene} (h : KeptFrom origin s) :
    s.program.placed.primitives = s.shapes.primitives ∧
      (s.Matches ↔ origin.shapes.lamps.Perm s.shapes.lamps) := by
  have hPrimitives : s.program.placed.primitives = s.shapes.primitives := by
    rw [h.placed]
    exact h.primitives.symm
  refine ⟨hPrimitives, fun hMatches => ?_, fun hLamps => ⟨?_, ?_⟩⟩
  · rw [← h.placed]
    exact hMatches.lamps
  · rw [hPrimitives]
  · rw [h.placed]
    exact hLamps

/-- After any edits the program of a scene places its primitives in their order, and it
places all of the scene's shapes and no others if and only if the lamps are those of the
scene that was compiled last. A refresh compares the records of primitives, and of lights
only how many there are, so that two of them may change places or materials unnoticed. -/
theorem matches_iff_lastCompiled_lamps {g : SceneGraph} {start : Float32} {s last : Scene}
    {edits : List Edit} (hCompile : g.compileAt start = .ok s)
    (hEdits : s.refreshThrough edits = .ok last) :
    last.program.placed.primitives = last.shapes.primitives ∧
      (last.Matches ↔ (lastCompiled s s edits).shapes.lamps.Perm last.shapes.lamps) :=
  ((keptFrom_of_compileAt hCompile).refreshThrough hEdits).matches_iff

/-- A camera below which a sphere is added. The graph is compiled anew for it. -/
theorem matches_iff_lastCompiled_lamps_added :
    let graph (more : List Node) : SceneGraph := ⟨[.new .render .empty 1
      (.new (.camera .perspective) .empty 2 [] :: more)]⟩
    let lit := graph [.new (.object .analytical) .empty 3 [.new (.primitive .sphere) .empty 4 []]]
    ∃ s last, (graph []).compileAt 0.0 = .ok s ∧ s.refreshThrough [(lit, 0.0)] = .ok last ∧
      last.program.placed.primitives = last.shapes.primitives ∧
      (last.Matches ↔ (lastCompiled s s [(lit, 0.0)]).shapes.lamps.Perm last.shapes.lamps) := by
  intro graph lit
  have hCompiles : ((graph []).compileAt 0.0).isOk = true := rfl
  obtain ⟨s, hScene⟩ := exists_ok_of_isOk hCompiles
  have hEdits : (((graph []).compileAt 0.0).bind
      fun s => s.refreshThrough [(lit, 0.0)]).isOk = true := by decide
  rw [hScene] at hEdits
  obtain ⟨last, hLast⟩ := exists_ok_of_isOk hEdits
  exact ⟨s, last, hScene, hLast, matches_iff_lastCompiled_lamps hScene hLast⟩

/-- A sphere light that is given another material. The program of the refreshed
scene still places it with the first one. -/
theorem refresh_of_exchanged_light_material :
    let graph (name : String) : SceneGraph :=
      ⟨[.new (.material .surface []) ⟨[("name", .text "A")]⟩ 1 [],
        .new (.material .surface []) ⟨[("name", .text "B")]⟩ 2 [],
        .new .render .empty 3 [.new (.camera .perspective) .empty 4 [],
          .new (.light .sphere) ⟨[("material", .text name)]⟩ 5 []]]⟩
    ∃ s next, (graph "A").compileAt 0.0 = .ok s ∧ s.refresh (graph "B") 0.0 = .ok next ∧
      next.program.placed.lamps = [⟨3, 0⟩] ∧ next.shapes.lamps = [⟨3, 1⟩] := by
  intro graph
  exact ⟨_, _, rfl, rfl, rfl, rfl⟩

end Scene

end PathTracer
