import PathTracer.Proofs.Scene.Building

/-! Refreshing a scene with a graph that need not be its own. A refresh that keeps
the program leaves out some of the checks of compiling, so that it takes graphs
that do not compile. -/
namespace PathTracer

/-! ### Cameras -/

namespace Node

mutual

/-- Whether a walk comes to a camera. -/
def placesCamera : Node → Bool
  | ⟨.object _, _, _, _, leaves⟩ => anyPlacesCamera leaves
  | ⟨.render, _, _, _, leaves⟩ => anyPlacesCamera leaves
  | ⟨.camera _, _, _, _, _⟩ => true
  | ⟨.material _ _, _, _, _, _⟩ => false
  | ⟨.light _, _, _, _, _⟩ => false
  | ⟨.primitive _, _, _, _, _⟩ => false

def anyPlacesCamera : List Node → Bool
  | [] => false
  | n :: rest => placesCamera n || anyPlacesCamera rest

end

end Node

/-- Two contexts with the same camera. -/
def Context.SameCamera (c d : Context) : Prop :=
  d.entities.camera = c.entities.camera

instance : Recording Context.SameCamera where
  refl _ := rfl
  trans hFirst hSecond := hSecond.trans hFirst
  report _ _ _ := rfl
  slot _ _ := rfl
  object _ _ := rfl
  sun _ _ _ := rfl
  scope _ _ := rfl

/-- A step that comes to a camera, or that leaves the camera as it is. -/
def Films {α : Type} (comes : Bool) (m : StateM Context α) : Prop :=
  ∀ c, (m.run c).2.entities.camera.isSome = (c.entities.camera.isSome || comes)

namespace Films

variable {α β : Type} {comes more : Bool}

theorem of_moves {m : StateM Context α} (h : Moves Context.SameCamera m) : Films false m := by
  intro c
  rw [show (m.run c).2.entities.camera = c.entities.camera from h c, Bool.or_false]

theorem bind {m : StateM Context α} {f : α → StateM Context β} (h : Films comes m)
    (hNext : ∀ x, Films more (f x)) : Films (comes || more) (m >>= f) := by
  intro c
  rw [show ((m >>= f).run c).2.entities.camera.isSome = _ from hNext (m.run c).1 (m.run c).2, h c,
    Bool.or_assoc]

theorem after {m : StateM Context α} {f : α → StateM Context β}
    (h : Moves Context.SameCamera m) (hNext : ∀ x, Films more (f x)) : Films more (m >>= f) :=
  (of_moves h).bind hNext

theorem before {m : StateM Context α} {f : α → StateM Context β} (h : Films comes m)
    (hNext : ∀ x, Moves Context.SameCamera (f x)) : Films comes (m >>= f) := by
  have hBoth := h.bind fun x => of_moves (hNext x)
  rwa [Bool.or_false] at hBoth

end Films

namespace Node

theorem films_visitCamera (n : Node) (kind : CameraKind) : Films true (n.visitCamera kind) := by
  refine .after (n.moves_readFloat3 _ _) fun _ => .after (n.moves_readFloat3 _ _) fun _ => ?_
  refine .after (n.moves_readFloat1 _ _) fun _ c => ?_
  rw [Bool.or_true]
  rfl

mutual

/-- A walk records a camera exactly where it comes to one. -/
theorem visit_films : (n : Node) → (out : Output) → Films n.placesCamera (n.visit out)
  | ⟨.object kind, options, name, line, leaves⟩, out => by
      rw [visit, placesCamera]
      refine .after (moves_enterObject _ kind) fun saved => ?_
      refine (visitAll_films leaves _).before fun _ => ?_
      exact (moves_checkOut saved).bind fun _ => .pure _
  | ⟨.material .surface body, options, name, line, leaves⟩, out => by
      rw [visit, placesCamera]
      exact .of_moves ((moves_visitMaterial _).bind fun _ => .pure _)
  | ⟨.material .environment _, _, _, _, _⟩, out => by
      rw [visit, placesCamera]
      exact .of_moves (.pure _)
  | ⟨.render, _, _, _, leaves⟩, out => by
      rw [visit, placesCamera]
      exact visitAll_films leaves out
  | ⟨.light .sun, options, name, line, leaves⟩, out => by
      rw [visit, placesCamera]
      exact .of_moves ((moves_visitSun _).bind fun _ => .pure _)
  | ⟨.light .sphere, options, name, line, leaves⟩, out => by
      rw [visit, placesCamera]
      exact .of_moves (moves_visitSphereLight _ out fun _ _ => rfl)
  | ⟨.camera kind, options, name, line, leaves⟩, out => by
      rw [visit, placesCamera]
      exact (films_visitCamera _ kind).before fun _ => .pure _
  | ⟨.primitive kind, options, name, line, leaves⟩, out => by
      rw [visit, placesCamera]
      exact .of_moves (moves_visitPrimitive _ kind out fun _ _ => rfl)

/-- Visiting siblings leaves a camera exactly if there was one or one of them places one. -/
theorem visitAll_films :
    (nodes : List Node) → (out : Output) → Films (anyPlacesCamera nodes) (visitAll nodes out)
  | [], out => by
      rw [visitAll, anyPlacesCamera]
      exact .of_moves (.pure _)
  | n :: rest, out => by
      rw [visitAll, anyPlacesCamera]
      exact (visit_films n out).bind fun found => visitAll_films rest found

end

end Node

/-! ### Compiling -/

namespace SceneGraph

/-- Faults of bodies, in the order in which compiling reports them. -/
def bodyFaults (definitions : List Definition) (environment : Option Node) : List CompileError :=
  definitions.filterMap Definition.fault? ++ (environment.bind Node.environmentFault?).toList

/-- Compiling walks the render node after the faults of bodies are reported. What
was built does not depend on the time. -/
theorem compileAt_walk {g : SceneGraph} {render : Node} {definitions : List Definition}
    {environmentNode : Option Node} (hRender : g.findRender = .ok render)
    (hDefinitions : g.definitions = .ok definitions)
    (hEnvironment : g.findEnvironment = .ok environmentNode) :
    ∃ programs environment, (∀ m ∈ programs, m.Built .surface) ∧
      (∀ e, environment = some e → e.Built .environment) ∧
      ∀ time,
        let walked := render.compile { (Context.start time).registerAll definitions with
          errors := bodyFaults definitions environmentNode }
        g.compileAt time = walked.2.finish render programs environment walked.1 := by
  obtain ⟨programs, faults, hPrograms⟩ := Context.buildMaterials_eq [] definitions
  obtain ⟨environment, more, hProgram⟩ := Context.buildEnvironment_eq environmentNode
  have hStart : ∀ time, (Context.start time).errors = [] := fun time => rfl
  have hFaults : faults = definitions.filterMap Definition.fault? := by
    have hErrors := (Context.start 0.0).errors_buildMaterials definitions
    rw [hPrograms (.start 0.0) rfl] at hErrors
    exact hErrors
  have hMore : more = (environmentNode.bind Node.environmentFault?).toList := by
    have hErrors := (Context.start 0.0).errors_buildEnvironment environmentNode
    rw [hProgram] at hErrors
    exact hErrors
  refine ⟨programs, environment, fun m hm => ?_, fun e he => ?_, fun time => ?_⟩
  · have hMem : m ∈ (Context.buildMaterials (.start 0.0) definitions).1 := by
      rw [hPrograms (.start 0.0) rfl]
      exact hm
    exact Context.built_of_mem_buildMaterials hMem
  · have hFound : (Context.buildEnvironment (.start 0.0) environmentNode).1 = some e := by
      rw [hProgram]
      exact he
    exact Context.built_of_buildEnvironment hFound
  · simp only [compileAt, hRender, hDefinitions, hEnvironment, hPrograms (.start time) rfl,
      hProgram, Context.registerAll_eq, hStart, List.nil_append, hFaults, hMore, bodyFaults]
    rfl

/-- The context after the walk of a refresh, which knows the materials by name. -/
def walkedAt (render : Node) (definitions : List Definition) (time : Float32) : Context :=
  render.execute ((Context.start time).registerAll definitions)

theorem camera_walkedAt (render : Node) (definitions : List Definition) (time : Float32) :
    (walkedAt render definitions time).entities.camera.isSome = render.placesCamera := by
  have hStart : ((Context.start time).registerAll definitions).entities.camera = none := by
    rw [Context.registerAll_eq]
    rfl
  have hWalk := render.visit_films none ((Context.start time).registerAll definitions)
  rwa [hStart, Option.isSome_none, Bool.false_or] at hWalk

/-- A graph compiles if and only if its bodies and its render options have no
fault, and its walk has none and comes to a camera. -/
theorem compileAt_ok_iff {g : SceneGraph} {render : Node} {definitions : List Definition}
    {environmentNode : Option Node} (hRender : g.findRender = .ok render)
    (hDefinitions : g.definitions = .ok definitions)
    (hEnvironment : g.findEnvironment = .ok environmentNode) (time : Float32) :
    (∃ s, g.compileAt time = .ok s) ↔
      bodyFaults definitions environmentNode = [] ∧
        (walkedAt render definitions time).errors = [] ∧ render.placesCamera = true ∧
        ∃ options, render.renderOptions = .ok options := by
  obtain ⟨programs, environment, hPrograms, hProgram, hCompile⟩ :=
    compileAt_walk hRender hDefinitions hEnvironment
  have hFresh : ({ (Context.start time).registerAll definitions with errors := [] } : Context) =
      (Context.start time).registerAll definitions := by
    rw [Context.registerAll_eq]
    rfl
  rw [hCompile time, ← camera_walkedAt render definitions time, walkedAt, Node.execute_eq_compile]
  constructor
  · rintro ⟨s, hScene⟩
    obtain ⟨hErrors, hCamera, options, program, hOptions, _, _⟩ := Context.finish_eq_ok.mp hScene
    -- A walk adds to the errors that it starts with, so there were none.
    have hNone : bodyFaults definitions environmentNode = [] := by
      have hPrefix := (render.compile_extends { (Context.start time).registerAll definitions with
        errors := bodyFaults definitions environmentNode }).errors
      rw [hErrors] at hPrefix
      exact List.prefix_nil.mp hPrefix
    rw [hNone, hFresh] at hErrors hCamera
    exact ⟨hNone, hErrors, hCamera, options, hOptions⟩
  · rintro ⟨hNone, hErrors, hCamera, options, hOptions⟩
    rw [hNone, hFresh]
    obtain ⟨program, hGenerate⟩ := Shader.Program.exists_generate
      (render.compile ((Context.start time).registerAll definitions)).1 hPrograms hProgram
    exact ⟨_, Context.finish_eq_ok.mpr ⟨hErrors, hCamera, options, program, hOptions, hGenerate,
      rfl⟩⟩

/-- A render node of the graph, where it has one, comes to a camera. -/
def PlacesCamera (g : SceneGraph) : Prop :=
  ∀ render, g.findRender = .ok render → render.placesCamera = true

/-- The checks of compiling that a refresh which keeps the program does not make. -/
structure Checked (g : SceneGraph) : Prop where
  bodies : ∀ definitions, g.definitions = .ok definitions → ∀ d ∈ definitions, d.fault? = none
  environment : ∃ node, g.findEnvironment = .ok node ∧ node.bind Node.environmentFault? = none
  camera : g.PlacesCamera
  options : ∀ render, g.findRender = .ok render → ∃ options, render.renderOptions = .ok options

theorem bodyFaults_eq_nil_iff {definitions : List Definition} {node : Option Node} :
    bodyFaults definitions node = [] ↔
      (∀ d ∈ definitions, d.fault? = none) ∧ node.bind Node.environmentFault? = none := by
  simp [bodyFaults]

end SceneGraph

/-! ### Refreshing -/

namespace Scene

open SceneGraph (walkedAt)

/-- The scene that a refresh gives for the context after its walk. -/
def refreshed (s : Scene) (c : Context) (g : SceneGraph) (time : Float32) :
    Except CompileError Scene :=
  if s.sameLayout c then .ok { s with entities := c.entities, data := c.data, time := time }
  else g.compileAt time

/-- What a refresh without a fault has found, and the scene that it then gives. Either the
layout was the same and data and entities were replaced, or the graph was compiled. -/
theorem refresh_eq_ok {s next : Scene} {g : SceneGraph} {time : Float32} :
    s.refresh g time = .ok next ↔
      ∃ render definitions, g.findRender = .ok render ∧ g.definitions = .ok definitions ∧
        (walkedAt render definitions time).errors = [] ∧
        s.refreshed (walkedAt render definitions time) g time = .ok next := by
  constructor
  · intro h
    unfold refresh at h
    split at h
    · cases h
    · rename_i definitions hDefinitions
      split at h
      · cases h
      · rename_i render hRender
        dsimp only at h
        split at h
        · cases h
        · rename_i hErrors
          exact ⟨render, definitions, hRender, hDefinitions, hErrors, h⟩
  · rintro ⟨render, definitions, hRender, hDefinitions, hErrors, hNext⟩
    have hNone : (render.execute ((Context.start time).registerAll definitions)).errors = [] :=
      hErrors
    simp only [refresh, hDefinitions, hRender, hNone]
    exact hNext

/-- A graph that a scene was refreshed with compiles if and only if it passes the
checks that refreshing leaves out. -/
theorem compiles_iff_of_refresh {s next : Scene} {g : SceneGraph} {time : Float32}
    (h : s.refresh g time = .ok next) : (∃ fresh, g.compileAt time = .ok fresh) ↔ g.Checked := by
  obtain ⟨render, definitions, hRender, hDefinitions, hErrors, _⟩ := refresh_eq_ok.mp h
  constructor
  · rintro ⟨fresh, hFresh⟩
    obtain ⟨_, _, node, _, _, hEnvironment⟩ := SceneGraph.compileAt_parts hFresh
    obtain ⟨hFaults, _, hCamera, hOptions⟩ :=
      (SceneGraph.compileAt_ok_iff hRender hDefinitions hEnvironment time).mp ⟨fresh, hFresh⟩
    obtain ⟨hBodies, hBody⟩ := SceneGraph.bodyFaults_eq_nil_iff.mp hFaults
    refine ⟨fun found hFound => ?_, ⟨node, hEnvironment, hBody⟩, fun found hFound => ?_,
      fun found hFound => ?_⟩
    · obtain rfl := Except.ok.inj (hDefinitions.symm.trans hFound)
      exact hBodies
    · obtain rfl := Except.ok.inj (hRender.symm.trans hFound)
      exact hCamera
    · obtain rfl := Except.ok.inj (hRender.symm.trans hFound)
      exact hOptions
  · intro hChecked
    obtain ⟨node, hEnvironment, hBody⟩ := hChecked.environment
    have hFaults := SceneGraph.bodyFaults_eq_nil_iff.mpr
      ⟨hChecked.bodies definitions hDefinitions, hBody⟩
    exact (SceneGraph.compileAt_ok_iff hRender hDefinitions hEnvironment time).mpr
      ⟨hFaults, hErrors, hChecked.camera render hRender, hChecked.options render hRender⟩

theorem camera_of_compileAt {g : SceneGraph} {time : Float32} {s : Scene}
    (h : g.compileAt time = .ok s) : s.entities.camera.isSome = true := by
  obtain ⟨render, definitions, node, hRender, hDefinitions, hEnvironment⟩ :=
    SceneGraph.compileAt_parts h
  obtain ⟨programs, environment, _, _, hCompile⟩ :=
    SceneGraph.compileAt_walk hRender hDefinitions hEnvironment
  rw [hCompile time] at h
  obtain ⟨_, hCamera, _, _, _, _, rfl⟩ := Context.finish_eq_ok.mp h
  exact hCamera

/-- A scene after a refresh has a camera exactly where the graph places one. -/
theorem camera_of_refresh {s next : Scene} {g : SceneGraph} {time : Float32}
    (h : s.refresh g time = .ok next) :
    next.entities.camera.isSome = true ↔ g.PlacesCamera := by
  obtain ⟨render, definitions, hRender, hDefinitions, hErrors, hNext⟩ := refresh_eq_ok.mp h
  have hOnly : g.PlacesCamera ↔ render.placesCamera = true :=
    ⟨fun hAll => hAll render hRender, fun hCamera found hFound =>
      Except.ok.inj (hRender.symm.trans hFound) ▸ hCamera⟩
  rw [hOnly]
  unfold refreshed at hNext
  split at hNext
  · cases hNext
    rw [SceneGraph.camera_walkedAt]
  · have hChecked := (compiles_iff_of_refresh h).mp ⟨next, hNext⟩
    exact iff_of_true (camera_of_compileAt hNext) (hChecked.camera render hRender)

/-! ### Edits -/

/-- A graph with the time at which a scene is refreshed with it. -/
abbrev Edit : Type := SceneGraph × Float32

/-- Refresh a scene with one graph after the other. The first fault ends it. -/
def refreshThrough (s : Scene) : List Edit → Except CompileError Scene
  | [] => .ok s
  | (g, time) :: rest =>
    match s.refresh g time with
    | .error e => .error e
    | .ok next => next.refreshThrough rest

theorem refreshThrough_cons_eq_ok {s last : Scene} {g : SceneGraph} {time : Float32}
    {rest : List Edit} :
    s.refreshThrough ((g, time) :: rest) = .ok last ↔
      ∃ next, s.refresh g time = .ok next ∧ next.refreshThrough rest = .ok last := by
  rw [refreshThrough]
  cases s.refresh g time with
  | error e => simp
  | ok next => simp

theorem refreshThrough_append_eq_ok {s last : Scene} {first second : List Edit} :
    s.refreshThrough (first ++ second) = .ok last ↔
      ∃ middle, s.refreshThrough first = .ok middle ∧ middle.refreshThrough second = .ok last := by
  induction first generalizing s with
  | nil => simp [refreshThrough]
  | cons e rest ih =>
      obtain ⟨g, time⟩ := e
      rw [List.cons_append, refreshThrough_cons_eq_ok]
      simp only [ih, refreshThrough_cons_eq_ok]
      constructor
      · rintro ⟨next, hNext, middle, hFirst, hSecond⟩
        exact ⟨middle, ⟨next, hNext, hFirst⟩, hSecond⟩
      · rintro ⟨middle, ⟨next, hNext, hFirst⟩, hSecond⟩
        exact ⟨next, hNext, middle, hFirst, hSecond⟩

/-- Along edits it is the last one that decides whether there is a camera. Earlier scenes
leave no camera behind, since each walk starts without one. -/
theorem camera_of_refreshThrough {s last : Scene} {edits : List Edit}
    (h : s.refreshThrough edits = .ok last) (hStart : s.entities.camera.isSome = true) :
    last.entities.camera.isSome = true ↔
      ∀ e ∈ edits.getLast?, e.1.PlacesCamera := by
  rcases edits.eq_nil_or_concat with rfl | ⟨before, e, rfl⟩
  · cases h
    simp [hStart]
  · rw [List.concat_eq_append] at h ⊢
    obtain ⟨middle, _, hLast⟩ := refreshThrough_append_eq_ok.mp h
    obtain ⟨next, hNext, hEnd⟩ := refreshThrough_cons_eq_ok.mp hLast
    cases hEnd
    rw [camera_of_refresh hNext]
    simp

/-- A graph that a refresh took compiles if and only if it passes the checks that refreshing
leaves out: those of the bodies, of the environment, of the camera and of the render
options. A scene that edits have led to has a camera if and only if the graph of the last
edit places one. -/
theorem refresh_ok_compiles_iff_checked (g : SceneGraph) (time : Float32) :
    (∀ s next : Scene, s.refresh g time = .ok next →
      ((∃ fresh, g.compileAt time = .ok fresh) ↔ g.Checked)) ∧
    ∀ (s last : Scene) (edits : List Edit),
      g.compileAt time = .ok s → s.refreshThrough edits = .ok last →
      (last.entities.camera.isSome = true ↔ ∀ e ∈ edits.getLast?, e.1.PlacesCamera) :=
  ⟨fun _ _ => compiles_iff_of_refresh,
    fun _ _ _ hCompile hEdits => camera_of_refreshThrough hEdits (camera_of_compileAt hCompile)⟩

/-- A perspective camera that is exchanged for an isometric one. -/
theorem refresh_ok_compiles_iff_checked_isometric :
    let graph (kind : CameraKind) : SceneGraph :=
      ⟨[.new .render .empty 1 [.new (.camera kind) .empty 2 []]]⟩
    ∃ s next, (graph .perspective).compileAt 0.0 = .ok s ∧
      s.refresh (graph .isometric) 1.0 = .ok next ∧
      ((∃ fresh, (graph .isometric).compileAt 1.0 = .ok fresh) ↔ (graph .isometric).Checked) ∧
      (next.entities.camera.isSome = true ↔ (graph .isometric).PlacesCamera) := by
  intro graph
  have hCompiles : ((graph .perspective).compileAt 0.0).isOk = true := rfl
  obtain ⟨s, hScene⟩ := exists_ok_of_isOk hCompiles
  have hRefreshes : (((graph .perspective).compileAt 0.0).bind
      fun s => s.refresh (graph .isometric) 1.0).isOk = true := rfl
  rw [hScene] at hRefreshes
  obtain ⟨next, hNext⟩ := exists_ok_of_isOk hRefreshes
  have hEdits : s.refreshThrough [(graph .isometric, 1.0)] = .ok next :=
    refreshThrough_cons_eq_ok.mpr ⟨next, hNext, rfl⟩
  have hLast := (refresh_ok_compiles_iff_checked _ 0.0).2 s next _ hScene hEdits
  refine ⟨s, next, hScene, hNext, (refresh_ok_compiles_iff_checked _ _).1 s next hNext, ?_⟩
  simpa using hLast

theorem exists_refresh_without_camera :
    let filmed : SceneGraph := ⟨[.new .render .empty 1 [.new (.camera .perspective) .empty 2 []]]⟩
    let blind : SceneGraph := ⟨[.new .render .empty 1 []]⟩
    ∃ s next, filmed.compileAt 0.0 = .ok s ∧ s.refresh blind 0.0 = .ok next ∧
      next.entities.camera = none := by
  intro filmed blind
  exact ⟨_, _, rfl, rfl, rfl⟩

/-- A scene with a camera takes a graph without one, which does not compile. -/
theorem refresh_of_cameraless :
    let filmed : SceneGraph := ⟨[.new .render .empty 1 [.new (.camera .perspective) .empty 2 []]]⟩
    let blind : SceneGraph := ⟨[.new .render .empty 1 []]⟩
    ∃ s next, filmed.compileAt 0.0 = .ok s ∧ s.refresh blind 0.0 = .ok next ∧
      next.entities.camera = none ∧ blind.compileAt 0.0 = .error ⟨.missingCamera, 1⟩ := by
  intro filmed blind
  obtain ⟨s, next, hCompile, hRefresh, hCamera⟩ := exists_refresh_without_camera
  exact ⟨s, next, hCompile, hRefresh, hCamera, rfl⟩

end Scene

end PathTracer
