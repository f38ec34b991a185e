import PathTracer.Proofs.Scene.Layout

/-! Refreshing a compiled scene and compiling its graph again come to the same. -/
namespace PathTracer

/-! ### Walks with and without statements -/

/-- Steps after which every context is the same, whatever their results. -/
def SameEffect {α : Type} (m m' : StateM Context α) : Prop :=
  ∀ c, (m.run c).2 = (m'.run c).2

namespace SameEffect

variable {α β : Type}

theorem pure (x y : α) : SameEffect (Pure.pure x) (Pure.pure y) :=
  fun _ => rfl

/-- After one step the next ones may use its result. -/
theorem bind_right {m : StateM Context α} {f f' : α → StateM Context β}
    (h : ∀ x, SameEffect (f x) (f' x)) : SameEffect (m >>= f) (m >>= f') :=
  fun _ => h _ _

theorem bind {m m' : StateM Context α} {f f' : α → StateM Context β} (h : SameEffect m m')
    (hNext : ∀ x y, SameEffect (f x) (f' y)) : SameEffect (m >>= f) (m' >>= f') := by
  intro c
  change ((f (m.run c).1).run (m.run c).2).2 = ((f' (m'.run c).1).run (m'.run c).2).2
  rw [h c]
  exact hNext _ _ _

end SameEffect

namespace Node

theorem visitSphereLight_sameEffect (n : Node) (out out' : Output) :
    SameEffect (n.visitSphereLight out) (n.visitSphereLight out') := by
  refine SameEffect.bind_right fun _ => SameEffect.bind_right fun _ => ?_
  refine SameEffect.bind_right fun found => ?_
  cases found with
  | none => exact .pure _ _
  | some index =>
      exact SameEffect.bind_right fun _ => SameEffect.bind_right fun _ =>
        SameEffect.bind_right fun _ => .pure _ _

theorem visitPrimitive_sameEffect (n : Node) (kind : PrimitiveKind) (out out' : Output) :
    SameEffect (n.visitPrimitive kind out) (n.visitPrimitive kind out') :=
  SameEffect.bind_right fun _ => SameEffect.bind_right fun _ => SameEffect.bind_right fun _ =>
    .pure _ _

mutual

/-- What a walk records does not depend on what it emits. -/
theorem visit_sameEffect :
    (n : Node) → (out out' : Output) → SameEffect (n.visit out) (n.visit out')
  | ⟨.object kind, options, name, line, leaves⟩, out, out' => by
      rw [visit, visit]
      refine SameEffect.bind_right fun saved => ?_
      refine (visitAll_sameEffect leaves _ _).bind fun _ _ => ?_
      exact SameEffect.bind_right fun _ => .pure _ _
  | ⟨.material .surface body, options, name, line, leaves⟩, out, out' => by
      rw [visit, visit]
      exact SameEffect.bind_right fun _ => .pure _ _
  | ⟨.material .environment _, _, _, _, _⟩, out, out' => by
      rw [visit, visit]
      exact .pure _ _
  | ⟨.render, _, _, _, leaves⟩, out, out' => by
      rw [visit, visit]
      exact visitAll_sameEffect leaves out out'
  | ⟨.light .sun, options, name, line, leaves⟩, out, out' => by
      rw [visit, visit]
      exact SameEffect.bind_right fun _ => .pure _ _
  | ⟨.light .sphere, options, name, line, leaves⟩, out, out' => by
      rw [visit, visit]
      exact visitSphereLight_sameEffect _ out out'
  | ⟨.camera kind, options, name, line, leaves⟩, out, out' => by
      rw [visit, visit]
      exact SameEffect.bind_right fun _ => .pure _ _
  | ⟨.primitive kind, options, name, line, leaves⟩, out, out' => by
      rw [visit, visit]
      exact visitPrimitive_sameEffect _ kind out out'

/-- Visiting siblings has the same effect on records and errors, whether statements are
written or not. -/
theorem visitAll_sameEffect :
    (nodes : List Node) → (out out' : Output) →
      SameEffect (visitAll nodes out) (visitAll nodes out')
  | [], out, out' => by
      rw [visitAll, visitAll]
      exact .pure _ _
  | n :: rest, out, out' => by
      rw [visitAll, visitAll]
      exact (visit_sameEffect n out out').bind fun x y => visitAll_sameEffect rest x y

end

/-- A walk without statements ends where the walk with them ends. -/
theorem execute_eq_compile (n : Node) (c : Context) : n.execute c = (n.compile c).2 :=
  n.visit_sameEffect none (some []) c

/-- Walks through paired trees from the same layout emit statements that differ in
comments alone. -/
theorem Paired.compile_uniform {r : Renaming} {n n' : Node} (h : n.Paired (Renamed r) n')
    {a b : Context} (hLayout : SameLayout (a.renamed r) b) :
    List.Forall₂ (Shader.Stmt.Relabelled r.allows) (n.compile a).1 (n'.compile b).1 ∧
      SameLayout ((n.compile a).2.renamed r) (n'.compile b).2 := by
  obtain ⟨hOut, hNext⟩ := visit_uniform n n' h (.some .nil) a b hLayout
  exact ⟨hOut.getD, hNext⟩

/-- Two walks from the same layout emit the same statements. -/
theorem compile_uniform (n : Node) {a b : Context} (h : SameLayout a b) :
    (n.compile a).1 = (n.compile b).1 ∧ SameLayout (n.compile a).2 (n.compile b).2 := by
  have hSame : ∀ c : Context, c.renamed .same = c := fun c => by
    rw [Context.renamed, show c.materials.map Renaming.same.material = c.materials from List.map_id _]
  have hPaired : n.Paired (Renamed .same) n := .refl n fun m _ => (SameShape.refl m).renamed
  obtain ⟨hStatements, hLayout⟩ := hPaired.compile_uniform ((hSame a).symm ▸ h)
  rw [hSame] at hLayout
  refine ⟨?_, hLayout⟩
  rw [← List.forall₂_eq_eq_eq]
  exact hStatements.imp fun _ _ hStmt => (Shader.Stmt.eq_of_relabelled hStmt).symm

end Node

/-! ### Materials -/

namespace Context

/-- Names with one more, unless it is one of them. -/
def withName (names : List String) (name : String) : List String :=
  match names.findIdx? (· == name) with
  | some _ => names
  | none => names ++ [name]

theorem registerMaterial_eq (c : Context) (name : String) :
    c.registerMaterial name = { c with materials := withName c.materials name } := by
  unfold registerMaterial materialIndex? withName
  cases c.materials.findIdx? (· == name) <;> rfl

/-- The names that are known after some materials are registered. -/
def registered (names : List String) (definitions : List Definition) : List String :=
  definitions.foldl (fun names d => withName names d.name) names

theorem registerAll_eq (c : Context) (definitions : List Definition) :
    c.registerAll definitions = { c with materials := registered c.materials definitions } := by
  induction definitions generalizing c with
  | nil => rfl
  | cons d rest ih =>
      change (c.registerMaterial d.name).registerAll rest = _
      rw [ih, registerMaterial_eq]
      rfl

/-- Materials are built from the known names alone: contexts that know the same
ones get the same programs and the same errors. -/
theorem buildMaterials_eq (names : List String) (definitions : List Definition) :
    ∃ programs errors, ∀ c : Context, c.materials = names →
      c.buildMaterials definitions =
        (programs, { c with
          materials := registered names definitions
          errors := c.errors ++ errors }) := by
  induction definitions generalizing names with
  | nil =>
      refine ⟨[], [], fun c hNames => ?_⟩
      subst hNames
      simp [buildMaterials, registered]
  | cons d rest ih =>
      let known := withName names d.name
      let index := (known.findIdx? (· == d.name)).getD 0
      obtain ⟨programs, errors, hPrograms⟩ := ih known
      have hRegister : ∀ c : Context, c.materials = names →
          c.registerMaterial d.name = { c with materials := known } ∧
            ((c.registerMaterial d.name).materialIndex? d.name).getD 0 = index := by
        intro c hNames
        subst hNames
        rw [registerMaterial_eq]
        exact ⟨rfl, rfl⟩
      cases hBuild : Material.Program.build d.name index .surface d.body with
      | error e =>
          refine ⟨programs, e :: errors, fun c hNames => ?_⟩
          obtain ⟨hContext, hIndex⟩ := hRegister c hNames
          simp only [buildMaterials, hIndex, hBuild]
          rw [hContext, hPrograms _ rfl]
          simp [reportError, registered, known]
      | ok program =>
          refine ⟨program :: programs, errors, fun c hNames => ?_⟩
          obtain ⟨hContext, hIndex⟩ := hRegister c hNames
          simp only [buildMaterials, hIndex, hBuild]
          rw [hContext, hPrograms _ rfl]
          simp [registered, known]

theorem buildEnvironment_eq (node : Option Node) :
    ∃ environment errors, ∀ c : Context,
      c.buildEnvironment node = (environment, { c with errors := c.errors ++ errors }) := by
  cases node with
  | none => exact ⟨none, [], fun c => by simp [buildEnvironment]⟩
  | some n =>
      cases hBuild : Material.Program.build n.givenName 0 .environment
          (n.environmentBody?.getD []) with
      | error e => exact ⟨none, [e], fun c => by simp only [buildEnvironment, hBuild]; rfl⟩
      | ok program => exact ⟨some program, [], fun c => by simp [buildEnvironment, hBuild]⟩

/-- The contexts in which compiling at two times starts its walk. -/
theorem registerAll_start_sameLayout (definitions : List Definition) (s t : Float32) :
    SameLayout ((start s).registerAll definitions) ((start t).registerAll definitions) := by
  rw [registerAll_eq, registerAll_eq]
  exact ⟨⟨rfl, rfl⟩, rfl, rfl, rfl, rfl, rfl⟩

/-- What `finish` checks, and the scene that it then makes. -/
theorem finish_eq_ok {c : Context} {render : Node} {materials : List Material.Program}
    {environment : Option Material.Program} {statements : List Shader.Stmt} {s : Scene} :
    c.finish render materials environment statements = .ok s ↔
      c.errors = [] ∧ c.entities.camera.isSome = true ∧
        ∃ options program, render.renderOptions = .ok options ∧
          Shader.Program.generate materials environment statements = .ok program ∧
          s = ⟨program, materials, environment, c.entities, c.data, options, c.time⟩ := by
  constructor
  · intro h
    unfold finish at h
    split at h
    · cases h
    · rename_i hErrors
      split at h
      · cases h
      · rename_i hCamera
        split at h
        · cases h
        · rename_i options hOptions
          split at h
          · cases h
          · rename_i program hProgram
            cases h
            exact ⟨hErrors, by simpa [Option.isSome_iff_ne_none] using hCamera, options, program,
              hOptions, hProgram, rfl⟩
  · rintro ⟨hErrors, hCamera, options, program, hOptions, hProgram, rfl⟩
    simp [finish, hErrors, Option.isSome_iff_ne_none.mp hCamera, hOptions, hProgram]

theorem finish_of_errors {c : Context} {e : CompileError} {more : List CompileError}
    (h : c.errors = e :: more) (render : Node) (materials : List Material.Program)
    (environment : Option Material.Program) (statements : List Shader.Stmt) :
    c.finish render materials environment statements = .error e := by
  rw [finish, h]

end Context

/-! ### Compiling at two times -/

namespace SceneGraph

/-- Compiling walks the render node from a context with all materials known and
with the faults of their bodies, none of which the time has a part in. -/
theorem compileAt_eq {g : SceneGraph} {render : Node} {definitions : List Definition}
    {environmentNode : Option Node} (hRender : g.findRender = .ok render)
    (hDefinitions : g.definitions = .ok definitions)
    (hEnvironment : g.findEnvironment = .ok environmentNode) :
    ∃ programs environment errors, ∀ time,
      let walked := render.compile
        { (Context.start time).registerAll definitions with errors := errors }
      g.compileAt time = walked.2.finish render programs environment walked.1 := by
  obtain ⟨programs, faults, hPrograms⟩ := Context.buildMaterials_eq [] definitions
  obtain ⟨environment, more, hProgram⟩ := Context.buildEnvironment_eq environmentNode
  refine ⟨programs, environment, faults ++ more, fun time => ?_⟩
  have hStart : (Context.start time).errors = [] := rfl
  simp only [compileAt, hRender, hDefinitions, hEnvironment, hPrograms (.start time) rfl, hProgram,
    Context.registerAll_eq, hStart, List.nil_append]
  rfl

/-- What a scene that was compiled is made of: the checks that have passed, the walk, and
the program of its statements. -/
theorem compileAt_parts {g : SceneGraph} {time : Float32} {s : Scene}
    (h : g.compileAt time = .ok s) :
    ∃ render definitions environment, g.findRender = .ok render ∧
      g.definitions = .ok definitions ∧ g.findEnvironment = .ok environment := by
  unfold compileAt at h
  split at h
  · cases h
  · rename_i render hRender
    split at h
    · cases h
    · rename_i definitions hDefinitions
      split at h
      · cases h
      · rename_i environment hEnvironment
        exact ⟨render, definitions, environment, hRender, hDefinitions, hEnvironment⟩

end SceneGraph

namespace Scene

/-- A scene of a graph is refreshed to what the graph compiles to, also where
that is a fault. -/
theorem refresh_of_compileAt {g : SceneGraph} {start : Float32} {s : Scene}
    (h : g.compileAt start = .ok s) (time : Float32) : s.refresh g time = g.compileAt time := by
  obtain ⟨render, definitions, environmentNode, hRender, hDefinitions, hEnvironment⟩ :=
    SceneGraph.compileAt_parts h
  obtain ⟨programs, environment, errors, hCompile⟩ :=
    SceneGraph.compileAt_eq hRender hDefinitions hEnvironment
  rw [hCompile start, Context.finish_eq_ok] at h
  obtain ⟨hErrors, hCamera, options, program, hOptions, hProgram, rfl⟩ := h
  -- A walk adds to the errors that it starts with, so there were none.
  have hNone : errors = [] := by
    have hPrefix := (render.compile_extends
      { (Context.start start).registerAll definitions with errors := errors }).errors
    rw [hErrors] at hPrefix
    exact List.prefix_nil.mp hPrefix
  subst hNone
  have hFresh : ∀ t, ({ (Context.start t).registerAll definitions with errors := [] } : Context) =
      (Context.start t).registerAll definitions := by
    intro t
    rw [Context.registerAll_eq]
    rfl
  have hTime := (render.compile_extends ((Context.start time).registerAll definitions)).time
  obtain ⟨hStatements, hLayout⟩ :=
    render.compile_uniform (Context.registerAll_start_sameLayout definitions start time)
  rw [hCompile time, hFresh]
  rw [hFresh] at hCamera hProgram ⊢
  generalize render.compile ((Context.start start).registerAll definitions) = first at *
  unfold refresh
  rw [hDefinitions, hRender]
  simp only [Node.execute_eq_compile]
  generalize render.compile ((Context.start time).registerAll definitions) = second at *
  cases hSecond : second.2.errors with
  | cons e more => exact (Context.finish_of_errors hSecond ..).symm
  | nil =>
      have hSame : sameLayout ⟨program, programs, environment, first.2.entities, first.2.data,
          options, first.2.time⟩ second.2 = true := by
        simp [sameLayout, hLayout.size, hLayout.primitives, hLayout.lights]
      rw [hSame, if_pos rfl]
      refine (Context.finish_eq_ok.mpr ⟨hSecond, hLayout.camera ▸ hCamera, options, program,
        hOptions, hStatements ▸ hProgram, ?_⟩).symm
      rw [hTime, Context.registerAll_eq]
      rfl

/-- A refresh for a holder of one scene: a fault leaves the scene as it is. -/
def refreshInPlace (s : Scene) (g : SceneGraph) (time : Float32) :
    Except CompileError Unit × Scene :=
  match s.refresh g time with
  | .error e => (.error e, s)
  | .ok next => (.ok (), next)

/-- Refreshes one after the other, with the answer to each. -/
def refreshAll (s : Scene) (g : SceneGraph) :
    List Float32 → List (Except CompileError Unit) × Scene
  | [] => ([], s)
  | time :: rest =>
    let (answer, next) := s.refreshInPlace g time
    let (answers, last) := next.refreshAll g rest
    (answer :: answers, last)

/-- The scene of a graph after some times: that of the last one at which the
graph compiles. -/
def latest (s : Scene) (g : SceneGraph) (times : List Float32) : Scene :=
  times.foldl (fun s time => (g.compileAt time).toOption.getD s) s

/-- Refreshing a scene of a graph is compiling the graph again. It succeeds at the same
times with the same scene, fails with the same fault and then keeps the scene, however often
it is done. The scene that is refreshed must come from the same graph, at any time. A scene
of another graph can be refreshed where compiling fails, so that this does not hold of
edits. -/
theorem refresh_eq_compileAt {g : SceneGraph} {start : Float32} {s : Scene}
    (h : g.compileAt start = .ok s) :
    (∀ time, s.refresh g time = g.compileAt time) ∧
      ∀ times, s.refreshAll g times =
        (times.map fun time => (g.compileAt time).map fun _ => (), s.latest g times) := by
  refine ⟨refresh_of_compileAt h, fun times => ?_⟩
  induction times generalizing start s with
  | nil => rfl
  | cons time rest ih =>
      have hRefresh := refresh_of_compileAt h time
      cases hCompile : g.compileAt time with
      | error e =>
          have hStep : s.refreshInPlace g time = (.error e, s) := by
            rw [refreshInPlace, hRefresh, hCompile]
          simp only [refreshAll, hStep, ih h, List.map_cons, latest, List.foldl_cons, hCompile]
          rfl
      | ok next =>
          have hStep : s.refreshInPlace g time = (.ok (), next) := by
            rw [refreshInPlace, hRefresh, hCompile]
          simp only [refreshAll, hStep, ih hCompile, List.map_cons, latest, List.foldl_cons,
            hCompile]
          rfl

/-- A sphere before a camera, refreshed at any times. -/
theorem refresh_eq_compileAt_sphere :
    let g : SceneGraph := ⟨[.new .render .empty 1 [.new (.camera .perspective) .empty 2 [],
      .new (.object .analytical) .empty 3 [.new (.primitive .sphere) .empty 4 []]]]⟩
    ∃ s, g.compileAt 0.0 = .ok s ∧ ∀ times, s.refreshAll g times =
      (times.map fun time => (g.compileAt time).map fun _ => (), s.latest g times) := by
  intro g
  have hCompiles : (g.compileAt 0.0).isOk = true := by decide
  obtain ⟨s, hScene⟩ := exists_ok_of_isOk hCompiles
  exact ⟨s, hScene, (refresh_eq_compileAt hScene).2⟩

end Scene

end PathTracer
