import PathTracer.Proofs.Render.Likeness
import PathTracer.Proofs.Scene.Keeping
import PathTracer.Proofs.Shader.Generation

/-! The text of a program tells how its scene is rendered, as long as the text can
be read and places the shapes of the scene. -/
namespace PathTracer

/-! ### Bodies -/

theorem Vec3.toList_injective {α : Type} {v w : Vec3 α} (h : v.toList = w.toList) : v = w := by
  cases v
  cases w
  simpa [toList] using h

namespace Material.Program

variable {p q : Program} {f : Shader.Function}

/-- The function of a surface returns the parameters of the surface. -/
theorem Built.run_surface (h : p.Built .surface) (hFunction : p.function = .ok f)
    (inputs : Inputs) (background : Vec3 Float32) (alpha : Float32) :
    f.run (library background alpha) [inputs.datum] = some (p.evaluate inputs).datum := by
  obtain ⟨hRole, hTyped, -⟩ := h
  have hInitial : ∀ env : Shader.Env, env.lookup "uniforms" = none →
      (initialCode p.role).eval (library background alpha) env =
        some (SurfaceParams.default : SurfaceParams Float32).datum := fun env _ =>
    hRole ▸ library_initialCode_surface background alpha env
  exact (run_function inputs (hRole.symm ▸ hTyped) hFunction (hRole ▸ holds_surface)
    (fun _ => hRole ▸ rfl) hInitial).1

/-- The function of an environment returns the color of the environment. -/
theorem Built.run_environment (h : p.Built .environment) (hFunction : p.function = .ok f)
    (inputs : Inputs) (background : Vec3 Float32) (alpha : Float32) :
    f.run (library background alpha) [inputs.datum] =
      some (.floats (p.evaluateEnvironment inputs background).toList) := by
  obtain ⟨hRole, hTyped, -⟩ := h
  have hInitial : ∀ env : Shader.Env, env.lookup "uniforms" = none →
      (initialCode p.role).eval (library background alpha) env =
        some (.floats background.toList) := fun env hEnv =>
    hRole ▸ library_initialCode_environment background alpha hEnv
  have hHolds : Holds p.role (fun _ v _ => v.asVec3)
      fun color : Vec3 Float32 => .floats color.toList := hRole ▸ holds_environment
  exact (run_function inputs (hRole.symm ▸ hTyped) hFunction hHolds (fun _ => hRole ▸ rfl)
    hInitial).1

/-- Surfaces with one function have the same parameters at every point. -/
theorem Built.evaluate_eq (hp : p.Built .surface) (hq : q.Built .surface)
    (hFunction : p.function = .ok f) (hSame : q.function = .ok f) : p.evaluate = q.evaluate := by
  funext inputs
  have hRun := hp.run_surface hFunction inputs .zero 0.0
  rw [hq.run_surface hSame, Option.some.injEq] at hRun
  exact (SurfaceParams.datum_injective hRun).symm

/-- Environments with one function have the same color for every ray. -/
theorem Built.evaluateEnvironment_eq (hp : p.Built .environment) (hq : q.Built .environment)
    (hFunction : p.function = .ok f) (hSame : q.function = .ok f) :
    p.evaluateEnvironment = q.evaluateEnvironment := by
  funext inputs background
  have hRun := hp.run_environment hFunction inputs background 0.0
  rw [hq.run_environment hSame, Option.some.injEq, Shader.Datum.floats.injEq] at hRun
  exact (Vec3.toList_injective hRun).symm

/-- No body is written as the environment of a scene that has none: it starts with
its name. -/
theorem function_ne_defaultEnvironment (p : Program) :
    p.function ≠ .ok Shader.defaultEnvironment := by
  intro h
  obtain ⟨code, -, hSame⟩ := function_eq_ok_iff.mp h
  cases congrArg Shader.Function.body hSame

/-- Materials whose functions have one text evaluate alike, one by one. -/
theorem map_evaluate_eq {first second : List Program} {functions : List Shader.Function}
    (hFirst : ∀ m ∈ first, m.Built .surface) (hSecond : ∀ m ∈ second, m.Built .surface)
    (h : List.Forall₂ (fun m f => m.function = .ok f) first functions)
    (hSame : List.Forall₂ (fun m f => m.function = .ok f) second functions) :
    first.map evaluate = second.map evaluate := by
  induction h generalizing second with
  | nil =>
      cases hSame
      rfl
  | cons hFunction _ ih =>
      cases hSame with
      | cons hOther hRest =>
          obtain ⟨hBuilt, hMore⟩ := List.forall_mem_cons.mp hFirst
          obtain ⟨hBuiltToo, hMoreToo⟩ := List.forall_mem_cons.mp hSecond
          rw [List.map_cons, List.map_cons, hBuilt.evaluate_eq hBuiltToo hFunction hOther,
            ih hMore hMoreToo hRest]

end Material.Program

/-! ### Scenes -/

namespace Tracer

theorem resolve_eq_map (t : Tracer) (index : Int) (inputs : Material.Inputs) :
    t.resolve index inputs = if index < 0 then .default
      else ((t.materials.map Material.Program.evaluate)[index.toNat]?).elim .default
        fun evaluate => evaluate inputs := by
  unfold resolve material?
  split
  · rfl
  · rw [List.getElem?_map]
    cases t.materials[index.toNat]? <;> rfl

end Tracer

namespace Scene

variable {s t : Scene}

/-- Scenes whose programs have the same functions are rendered alike where they
have the same shapes. -/
theorem Generated.alike {first second : List Shader.Stmt} (hs : s.Generated first)
    (ht : t.Generated second) (hFunctions : s.program.functions = t.program.functions)
    (hShapes : s.shapes = t.shapes) : (Tracer.ofScene s).Alike (.ofScene t) := by
  obtain ⟨surfaces, env, hSurfaces, hEnv, hProgram⟩ := Shader.Program.generate_eq_ok.mp hs.program
  obtain ⟨others, other, hOthers, hOther, hSame⟩ := Shader.Program.generate_eq_ok.mp ht.program
  rw [hProgram, hSame] at hFunctions
  obtain ⟨rfl, hRest⟩ := List.append_inj' hFunctions rfl
  obtain rfl : env = other := by
    injection (List.cons.inj hRest).2
  refine ⟨fun index inputs => ?_, fun inputs color => ?_, fun data origin direction => ?_⟩
  · rw [Tracer.resolve_eq_map, Tracer.resolve_eq_map]
    change (if index < 0 then _ else Option.elim (s.materials.map _)[_]? _ _) =
      if index < 0 then _ else Option.elim (t.materials.map _)[_]? _ _
    rw [Material.Program.map_evaluate_eq hs.materials ht.materials hSurfaces hOthers]
  · change s.environment.elim color _ = t.environment.elim color _
    cases hFirst : s.environment with
    | none =>
        cases hSecond : t.environment with
        | none => rfl
        | some e =>
            rw [hFirst] at hEnv
            cases hEnv
            rw [hSecond] at hOther
            exact absurd hOther e.function_ne_defaultEnvironment
    | some e =>
        rw [hFirst] at hEnv
        cases hSecond : t.environment with
        | none =>
            rw [hSecond] at hOther
            cases hOther
            exact absurd hEnv e.function_ne_defaultEnvironment
        | some d =>
            rw [hSecond] at hOther
            have hColor := (hs.environment e hFirst).evaluateEnvironment_eq
              (ht.environment d hSecond) hEnv hOther
            exact congrFun (congrFun hColor inputs) color
  · exact congrArg (fun shapes => Shapes.trace shapes data origin direction) hShapes

/-- A scene whose program says how it is rendered: the program was generated for
the scene, its text can be read, and it places the shapes of the scene. -/
structure Told (s : Scene) : Prop where
  generated : ∃ statements, s.Generated statements
  legible : s.program.isLegible = true
  placed : s.program.placed = s.shapes

/-- Whatever compiles is told where its text can be read. -/
theorem told_of_compileAt {g : SceneGraph} {time : Float32} (h : g.compileAt time = .ok s)
    (hLegible : s.program.isLegible = true) : s.Told :=
  ⟨g.generated_of_compileAt h, hLegible, placed_of_compileAt h⟩

/-- Scenes with one text are rendered alike. -/
theorem Told.alike (hs : s.Told) (ht : t.Told) (h : s.program.source = t.program.source) :
    (Tracer.ofScene s).Alike (.ofScene t) := by
  obtain ⟨_, hFirst⟩ := hs.generated
  obtain ⟨_, hSecond⟩ := ht.generated
  have hFunctions :=
    Shader.Program.functions_of_source hFirst.wellNamed hSecond.wellNamed hs.legible ht.legible h
  refine hFirst.alike hSecond hFunctions ?_
  rw [← hs.placed, ← ht.placed, Shader.Program.placed, Shader.Program.placed, hFunctions]

/-! ### Scenes that edits lead to -/

/-- A refresh keeps the program with all that it was generated for, or it compiles
the graph. -/
theorem generated_of_refresh {g : SceneGraph} {time : Float32} (h : s.refresh g time = .ok t)
    (hs : ∃ statements, s.Generated statements) : ∃ statements, t.Generated statements := by
  obtain ⟨_, _, -, -, -, hNext⟩ := refresh_eq_ok.mp h
  unfold refreshed at hNext
  split at hNext
  · cases hNext
    obtain ⟨statements, hGenerated⟩ := hs
    exact ⟨statements, hGenerated.materials, hGenerated.environment, hGenerated.named,
      hGenerated.program⟩
  · exact g.generated_of_compileAt hNext

/-- A scene that was compiled, or that edits of a compiled scene led to. -/
def Made (s : Scene) : Prop :=
  ∃ (g : SceneGraph) (time : Float32) (origin : Scene) (edits : List Edit),
    g.compileAt time = .ok origin ∧ origin.refreshThrough edits = .ok s

theorem made_of_compileAt {g : SceneGraph} {time : Float32} (h : g.compileAt time = .ok s) :
    s.Made :=
  ⟨g, time, s, [], h, rfl⟩

theorem Made.refresh {g : SceneGraph} {time : Float32} (hs : s.Made)
    (h : s.refresh g time = .ok t) : t.Made := by
  obtain ⟨first, start, origin, edits, hOrigin, hEdits⟩ := hs
  exact ⟨first, start, origin, edits ++ [(g, time)], hOrigin, refreshThrough_append_eq_ok.mpr
    ⟨s, hEdits, refreshThrough_cons_eq_ok.mpr ⟨t, h, rfl⟩⟩⟩

theorem Made.generated (h : s.Made) : ∃ statements, s.Generated statements := by
  obtain ⟨g, time, origin, edits, hOrigin, hEdits⟩ := h
  have hStart := g.generated_of_compileAt hOrigin
  clear hOrigin
  induction edits generalizing origin with
  | nil =>
      cases hEdits
      exact hStart
  | cons e rest ih =>
      obtain ⟨next, hNext, hRest⟩ := refreshThrough_cons_eq_ok.mp hEdits
      exact ih next hRest (generated_of_refresh hNext hStart)

end Scene

end PathTracer
