import PathTracer.Proofs.Render.Bounds
import PathTracer.Proofs.Scene.Likeness
import PathTracer.Proofs.Scene.Structure
import PathTracer.Proofs.Shader.Writing

/-! Where the program of a scene comes from. Whatever edits led to a scene, its program
is that of a compiled scene, and the slots of the shapes that it places are in the data. -/
namespace PathTracer

/-! ### Shapes that a text tells -/

/-- No number of a statement that places a shape is a float. -/
theorem Places.allWritten_eq {statements : List Shader.Stmt} {order : List Shape}
    (h : Places statements order) : Shader.Stmt.allWritten statements = statements := by
  induction h with
  | nil => rfl
  | comment text _ ih => rw [Shader.Stmt.allWritten, ih, Shader.Stmt.written]
  | shape s _ ih =>
      have hStatement : s.statement.written = s.statement := by cases s <;> rfl
      rw [Shader.Stmt.allWritten, ih, hStatement]

theorem Places.isOnLines {statements : List Shader.Stmt} {order : List Shape}
    (h : Places statements order) :
    ∀ s ∈ statements, s.isComment = false → s.isOnLines = true := by
  induction h with
  | nil => nofun
  | comment text _ ih => exact List.forall_mem_cons.mpr ⟨(nomatch ·), ih⟩
  | shape s _ ih => exact List.forall_mem_cons.mpr ⟨fun _ => by cases s <;> rfl, ih⟩

theorem Places.sceneFunction_written {statements : List Shader.Stmt} {order : List Shape}
    (h : Places statements order) :
    (Shader.sceneFunction statements).written = Shader.sceneFunction statements := by
  have hBody := h.allWritten_eq
  rw [Shader.Stmt.allWritten_eq_map] at hBody
  refine congrArg (Shader.Function.mk _ _ _) ?_
  change Shader.Stmt.allWritten (_ :: (statements ++ [_])) = _ :: (statements ++ [_])
  rw [Shader.Stmt.allWritten_eq_map, List.map_cons, List.map_append, hBody]
  rfl

theorem sceneFunction_injective : Function.Injective Shader.sceneFunction := by
  intro first second h
  have hBody := congrArg Shader.Function.body h
  exact List.append_cancel_right (List.cons.inj hBody).2

/-- All names of a graph are on one line each. -/
def SceneGraph.OnOneLine (g : SceneGraph) : Prop :=
  ∀ n ∈ g.walk, '\n' ∉ n.givenName.toList

instance (g : SceneGraph) : Decidable g.OnOneLine :=
  inferInstanceAs (Decidable (∀ n ∈ g.walk, _))

namespace Scene

/-- A scene that was compiled from a graph with names on one line each. -/
def Compiled (s : Scene) : Prop :=
  ∃ (g : SceneGraph) (time : Float32), g.OnOneLine ∧ g.compileAt time = .ok s

variable {s t : Scene}

/-- No comment in the program of a compiled scene breaks its line. -/
theorem Compiled.isOnLines (h : s.Compiled) : s.program.isOnLines = true := by
  obtain ⟨g, time, hNames, hCompile⟩ := h
  obtain ⟨statements, hGenerated⟩ := g.generated_of_compileAt hCompile
  obtain ⟨_, order, hLast, hPlaces, -⟩ := g.compileAt_places hCompile
  have hSame := (Shader.Program.generate_last hGenerated.program).symm.trans hLast
  obtain rfl := sceneFunction_injective (Option.some.inj hSame)
  have hFlat := Shader.Program.isFlat_generate hPlaces.isOnLines hGenerated.program
  have hComments := List.forall₂_same.mp (SceneGraph.relabelled_of_names hNames hCompile)
  exact List.all_eq_true.mpr fun f hf => (hFlat f hf).isOnLines (hComments f hf)

/-- Compiled scenes with one text have the same shapes, also where a literal in the
text stands for one that is not finite. -/
theorem Compiled.shapes_eq_of_source (hs : s.Compiled) (ht : t.Compiled)
    (h : s.program.source = t.program.source) : s.shapes = t.shapes := by
  have hLines := hs.isOnLines
  have hLines' := ht.isOnLines
  obtain ⟨g, time, -, hFirst⟩ := hs
  obtain ⟨g', time', -, hSecond⟩ := ht
  obtain ⟨_, hNamed⟩ := g.generated_of_compileAt hFirst
  obtain ⟨_, hNamed'⟩ := g'.generated_of_compileAt hSecond
  have hWritten := Shader.Program.map_written_of_source hNamed.wellNamed hNamed'.wellNamed
    hLines hLines' h
  obtain ⟨statements, order, hLast, hPlaces, hShapes⟩ := g.compileAt_places hFirst
  obtain ⟨statements', order', hLast', hPlaces', hShapes'⟩ := g'.compileAt_places hSecond
  have hScene := congrArg List.getLast? hWritten
  rw [List.getLast?_map, List.getLast?_map, hLast, hLast', Option.map_some, Option.map_some,
    hPlaces.sceneFunction_written, hPlaces'.sceneFunction_written, Option.some.injEq] at hScene
  obtain rfl := sceneFunction_injective hScene
  have hOrder : order = order' := hPlaces.filterMap_eq.symm.trans hPlaces'.filterMap_eq
  calc s.shapes = .ofOrder order := hShapes
    _ = .ofOrder order' := by rw [hOrder]
    _ = t.shapes := hShapes'.symm

/-! ### Scenes that edits lead to -/

/-- A scene that is rendered within its data: its program is that of a compiled scene,
and what the program places stands in the data like what the scene records. -/
structure Seated (s : Scene) : Prop where
  program : ∃ origin : Scene, origin.Compiled ∧ s.program = origin.program
  placed : s.program.placed.InBounds s.data.size
  entities : s.entities.InBounds s.data.size

theorem Compiled.seated (h : s.Compiled) : s.Seated := by
  have hCompiled := h
  obtain ⟨g, time, -, hCompile⟩ := h
  have hEntities := inBounds_of_compileAt hCompile
  refine ⟨⟨s, hCompiled, rfl⟩, ?_, hEntities⟩
  rw [placed_of_compileAt hCompile]
  exact Shapes.inBounds_ofEntities hEntities

/-- A refresh that keeps the program leaves the data at its size. -/
theorem size_of_refresh {g : SceneGraph} {time : Float32} (h : s.refresh g time = .ok t)
    (hKeeps : s.keeps g time = true) : t.data.size = s.data.size := by
  obtain ⟨render, definitions, hRender, hDefinitions, -, hNext⟩ := refresh_eq_ok.mp h
  rw [keeps, hRender, hDefinitions] at hKeeps
  rw [refreshed, if_pos hKeeps] at hNext
  obtain rfl := Except.ok.inj hNext
  simp only [sameLayout, Bool.and_eq_true, decide_eq_true_eq] at hKeeps
  exact hKeeps.1.1

theorem Seated.refresh {g : SceneGraph} {time : Float32} (hs : s.Seated) (hNames : g.OnOneLine)
    (h : s.refresh g time = .ok t) : t.Seated := by
  obtain ⟨hKeeps, hProgram, -⟩ | ⟨-, hCompile⟩ := refresh_cases h
  · refine ⟨?_, ?_, inBounds_of_refresh h⟩
    · rw [hProgram]
      exact hs.program
    · rw [hProgram, size_of_refresh h hKeeps]
      exact hs.placed
  · exact Compiled.seated ⟨g, time, hNames, hCompile⟩

/-- The shapes of a compiled scene stand in the data of every scene with its text. -/
theorem Seated.inBounds_of_source (hs : s.Seated) (ht : t.Compiled)
    (h : t.program.source = s.program.source) : t.shapes.InBounds s.data.size := by
  obtain ⟨origin, hOrigin, hProgram⟩ := hs.program
  have hPlaced := hs.placed
  rw [hProgram] at h hPlaced
  rw [ht.shapes_eq_of_source hOrigin h]
  obtain ⟨g, time, -, hCompile⟩ := hOrigin
  rwa [placed_of_compileAt hCompile] at hPlaced

end Scene

end PathTracer
