import PathTracer.Proofs.Pipeline.Subject
import PathTracer.Proofs.Scene.Likeness

/-! Programs that are used again. A program is kept under the hash of the text that
it was built for, and whatever scene comes with that hash is rendered with it. -/
namespace PathTracer.Pipeline

section Use

variable {P F : Type} {r : Renderer P F} {p q : Pipeline P F}

/-- The scene in use is the same, and so are the programs that are kept. -/
structure SameUse (p q : Pipeline P F) : Prop where
  installed : q.installed = p.installed
  cache : q.cache = p.cache

/-- Ticks neither install nor build. -/
theorem Step.sameUse (h : Step r p q) : SameUse p q := by
  cases h with
  | main h =>
      refine ⟨h.installed, ?_⟩
      cases h with
      | announce => rw [announce]; split <;> rfl
      | _ => rfl
  | prime h => cases h <;> exact ⟨rfl, rfl⟩
  | shot h => cases h <;> exact ⟨rfl, rfl⟩
  | finish h => cases h <;> exact ⟨rfl, rfl⟩

theorem Steps.sameUse (h : Steps r p q) : SameUse p q :=
  preserves_of_step (Q := SameUse p) (fun hStep hSame =>
    ⟨hStep.sameUse.installed.trans hSame.installed, hStep.sameUse.cache.trans hSame.cache⟩) h
    ⟨rfl, rfl⟩

/-- The scene that a command tries to put in use. -/
def Command.result? (p : Pipeline P F) : Command → Option (Except CompileError Scene)
  | setGraph g => some g.compile
  | setTime g time => some <| match p.installed with
    | some i => i.scene.refresh g time
    | none => g.compileAt time
  | install scene => some (.ok scene)
  | _ => none

theorem perform_of_result {c : Command} {result : Except CompileError Scene}
    (h : c.result? p = some result) : (p.perform r c).2 = (p.installResult r result).2 := by
  cases c with
  | setGraph | setTime | install =>
      cases h
      rfl
  | _ => cases h

theorem perform_sameUse {c : Command} (h : c.result? p = none) : SameUse p (p.perform r c).2 := by
  cases c with
  | restart | resize | setBudget | enqueue => exact ⟨rfl, rfl⟩
  | setGraph | setTime | install => cases h
  | tick => exact (tick_steps r p).sameUse
  | runUntilConverged n => exact (runUntilConverged_steps r n p).sameUse
  | readMain =>
      change SameUse p (p.readMain r).2
      unfold readMain
      split <;> exact ⟨rfl, rfl⟩

/-- The graph that a command brings, with the time at which it is evaluated. -/
def Command.edit? : Command → Option Scene.Edit
  | setGraph g => some (g, 0.0)
  | setTime g time => some (g, time)
  | _ => none

/-- A scene that a command puts in use is one that it brings, or its graph is compiled,
or the scene in use is refreshed. -/
theorem result_cases {c : Command} {scene : Scene} (h : c.result? p = some (.ok scene)) :
    c = .install scene ∨ ∃ g time, c.edit? = some (g, time) ∧
      (g.compileAt time = .ok scene ∨
        ∃ i, p.installed = some i ∧ i.scene.refresh g time = .ok scene) := by
  cases c with
  | setGraph g => exact .inr ⟨g, 0.0, rfl, .inl (Option.some.inj h)⟩
  | setTime g time =>
      replace h := Option.some.inj h
      split at h
      · rename_i i hInstalled
        exact .inr ⟨g, time, rfl, .inr ⟨i, hInstalled, h⟩⟩
      · exact .inr ⟨g, time, rfl, .inl h⟩
  | install other =>
      obtain rfl := Except.ok.inj (Option.some.inj h)
      exact .inl rfl
  | _ => cases h

/-- A command leaves the scene in use and the programs alone, or it installs. -/
theorem perform_cases (r : Renderer P F) (p : Pipeline P F) (c : Command) :
    SameUse p (p.perform r c).2 ∨
      ∃ scene, c.result? p = some (.ok scene) ∧ (p.perform r c).2 = (p.install r scene).2 := by
  cases hResult : c.result? p with
  | none => exact .inl (perform_sameUse hResult)
  | some result =>
      rw [perform_of_result hResult]
      cases result with
      | error e => exact .inl ⟨rfl, rfl⟩
      | ok scene => exact .inr ⟨scene, rfl, rfl⟩

/-- A scene that has been in use at some point of a run. -/
def Used (r : Renderer P F) (p : Pipeline P F) (commands : List Command) (s : Scene) : Prop :=
  ∃ done i, done <+: commands ∧ (after r p done).installed = some i ∧ i.scene = s

theorem Used.mono {commands more : List Command} {s : Scene} (h : Used r p commands s)
    (hMore : commands <+: more) : Used r p more s := by
  obtain ⟨done, i, hDone, hInstalled, hScene⟩ := h
  exact ⟨done, i, hDone.trans hMore, hInstalled, hScene⟩

end Use

variable {p q : Pipeline Tracer Film}

/-! ### Where programs come from -/

/-- A program that is kept under a hash, or in use, was built for one of some scenes
with that hash. -/
structure Stocked (used : Scene → Prop) (p : Pipeline Tracer Film) : Prop where
  cache : ∀ hash program, p.cache.lookup hash = some program →
    ∃ s, used s ∧ s.program.hash = hash ∧ program = .ofScene s
  installed : ∀ i, p.installed = some i →
    ∃ s, used s ∧ s.program.hash = i.scene.program.hash ∧ i.program = .ofScene s

theorem Stocked.mono {used more : Scene → Prop} (h : Stocked used p)
    (hMore : ∀ s, used s → more s) : Stocked more p where
  cache hash program hLookup :=
    let ⟨s, hs, hRest⟩ := h.cache hash program hLookup
    ⟨s, hMore s hs, hRest⟩
  installed i hInstalled :=
    let ⟨s, hs, hRest⟩ := h.installed i hInstalled
    ⟨s, hMore s hs, hRest⟩

theorem SameUse.stocked {used : Scene → Prop} (h : SameUse p q) (hStocked : Stocked used p) :
    Stocked used q := by
  refine ⟨?_, ?_⟩
  · rw [h.cache]
    exact hStocked.cache
  · rw [h.installed]
    exact hStocked.installed

/-- Installing takes a kept program, or keeps one that is built for the scene. -/
theorem Stocked.install {used : Scene → Prop} (h : Stocked used p) (limit : Nat) {scene : Scene}
    (hUsed : p.cache.lookup scene.program.hash = none → used scene) :
    Stocked used (p.install (.tracing limit) scene).2 := by
  unfold Pipeline.install
  split
  · rename_i program hLookup
    refine ⟨h.cache, fun i hInstalled => ?_⟩
    cases hInstalled
    exact h.cache _ program hLookup
  · rename_i hNew
    refine ⟨fun hash program hLookup => ?_, fun i hInstalled => ?_⟩
    · change List.lookup hash ((scene.program.hash, Tracer.ofScene scene) :: p.cache) = _ at hLookup
      rw [List.lookup_cons] at hLookup
      split at hLookup
      · rename_i hSame
        cases hLookup
        exact ⟨scene, hUsed hNew, (beq_iff_eq.mp hSame).symm, rfl⟩
      · exact h.cache hash program hLookup
    · cases hInstalled
      exact ⟨scene, hUsed hNew, rfl, rfl⟩

/-- Along a run every program was built for a scene that has been in use, and that has
whatever the scenes have for which no program was kept before. -/
theorem after_stocked_of {Q : Scene → Prop} (limit : Nat) (settings : Settings) (unseeded : ChaCha)
    (commands : List Command)
    (hNew : ∀ done c scene, done ++ [c] <+: commands →
      let p := after (.tracing limit) (start settings unseeded) done
      c.result? p = some (.ok scene) → p.cache.lookup scene.program.hash = none → Q scene) :
    Stocked (fun s => Used (.tracing limit) (start settings unseeded) commands s ∧ Q s)
      (after (.tracing limit) (start settings unseeded) commands) := by
  induction commands using List.reverseRecOn with
  | nil =>
      refine ⟨fun hash program hLookup => ?_, fun i hInstalled => ?_⟩
      · cases hLookup
      · cases hInstalled
  | append_singleton done c ih =>
      have hBefore := ih fun before d scene hDone =>
        hNew before d scene (hDone.trans (List.prefix_append done [c]))
      have hOld : Stocked
          (fun s => Used (.tracing limit) (start settings unseeded) (done ++ [c]) s ∧ Q s)
          (after (.tracing limit) (start settings unseeded) done) :=
        hBefore.mono fun s hs => ⟨hs.1.mono (List.prefix_append done [c]), hs.2⟩
      have hAfter := after_append (.tracing limit) (start settings unseeded) done [c]
      obtain hSame | ⟨scene, hResult, hScene⟩ :=
        perform_cases (.tracing limit) (after (.tracing limit) (start settings unseeded) done) c
      · rw [hAfter]
        exact hSame.stocked hOld
      · have hNext := hAfter.trans hScene
        obtain ⟨program, hInstalled⟩ := installResult_of_ok
          (after (.tracing limit) (start settings unseeded) done) limit scene
        rw [hNext]
        have hUse : Used (.tracing limit) (start settings unseeded) (done ++ [c]) scene :=
          ⟨done ++ [c], _, List.prefix_rfl,
            (congrArg Pipeline.installed hNext).trans hInstalled, rfl⟩
        exact hOld.install limit fun hLookup =>
          ⟨hUse, hNew done c scene List.prefix_rfl hResult hLookup⟩

theorem after_stocked (limit : Nat) (settings : Settings) (unseeded : ChaCha)
    (commands : List Command) :
    Stocked (Used (.tracing limit) (start settings unseeded) commands)
      (after (.tracing limit) (start settings unseeded) commands) :=
  (after_stocked_of (Q := fun _ => True) limit settings unseeded commands
    fun _ _ _ _ _ _ => trivial).mono
    fun _ hs => hs.1

/-- What the scenes have that the commands of a run bring or compile, and what refreshes
keep, every scene in use has. -/
theorem Used.of_commands {Q : Scene → Prop} {limit : Nat} {settings : Settings}
    {commands : List Command} {s : Scene}
    (h : Used (.tracing limit) (start settings unseeded) commands s)
    (hInstalls : ∀ scene, Command.install scene ∈ commands → Q scene)
    (hCompiles : ∀ c ∈ commands, ∀ g time scene, c.edit? = some (g, time) →
      g.compileAt time = .ok scene → Q scene)
    (hRefreshes : ∀ c ∈ commands, ∀ g time scene next, c.edit? = some (g, time) → Q scene →
      scene.refresh g time = .ok next → Q next) : Q s := by
  obtain ⟨done, i, hDone, hInstalled, rfl⟩ := h
  induction done using List.reverseRecOn generalizing i with
  | nil => cases hInstalled
  | append_singleton before c ih =>
      replace ih := fun i => ih i ((List.prefix_append before [c]).trans hDone)
      have hMem : c ∈ commands :=
        hDone.subset (List.mem_append_right before List.mem_cons_self)
      rw [after_append] at hInstalled
      change (Pipeline.perform _ _ c).2.installed = some i at hInstalled
      obtain hSame | ⟨scene, hResult, hScene⟩ :=
        perform_cases (.tracing limit) (after (.tracing limit) (start settings unseeded) before) c
      · exact ih i (hSame.installed.symm.trans hInstalled)
      · obtain ⟨program, hUse⟩ := installResult_of_ok
          (after (.tracing limit) (start settings unseeded) before) limit scene
        rw [hScene] at hInstalled
        cases hUse.symm.trans hInstalled
        obtain rfl | ⟨g, time, hEdit, hCompile | ⟨j, hBefore, hRefresh⟩⟩ := result_cases hResult
        · exact hInstalls scene hMem
        · exact hCompiles c hMem g time scene hEdit hCompile
        · exact hRefreshes c hMem g time j.scene scene hEdit (ih j hBefore) hRefresh

/-- Along a run that installs such scenes only, whatever is in use was compiled or
refreshed. -/
theorem Used.made {limit : Nat} {settings : Settings} {unseeded : ChaCha}
    {commands : List Command} {s : Scene}
    (h : Used (.tracing limit) (start settings unseeded) commands s)
    (hInstalls : ∀ scene, Command.install scene ∈ commands → scene.Made) : s.Made :=
  h.of_commands hInstalls (fun _ _ _ _ _ _ hCompile => Scene.made_of_compileAt hCompile)
    fun _ _ _ _ _ _ _ hMade hRefresh => hMade.refresh hRefresh

/-- Hashes tell the texts of the scenes in use apart. -/
def HashesTell (r : Renderer Tracer Film) (p : Pipeline Tracer Film) (commands : List Command) :
    Prop :=
  ∀ s t, Used r p commands s → Used r p commands t → s.program.hash = t.program.hash →
    s.program.source = t.program.source

/-- Compiled scenes with one text are rendered alike where the text can be read: its
literals are finite, and no name breaks its line. Along a run the program in use then
renders the scene in use, as long as each scene was compiled or refreshed, its program
places its shapes, and hashes tell the texts apart. The premise on the literals is needed,
since a float that is not finite is written as zero. The data of the two scenes may differ
in any way. -/
theorem program_alike_scene_of_legible (limit : Nat) :
    (∀ (g h : SceneGraph) (time other : Float32) (s t : Scene),
      g.compileAt time = .ok s → h.compileAt other = .ok t →
      s.program.isLegible = true → t.program.isLegible = true →
      s.program.source = t.program.source →
      (Tracer.ofScene s).Alike (.ofScene t) ∧ ∀ frame film,
        (Renderer.tracing limit).sample (.ofScene s) frame film =
          (Renderer.tracing limit).sample (.ofScene t) frame film) ∧
    ∀ (settings : Settings) (unseeded : ChaCha) (commands : List Command),
      let r := Renderer.tracing limit
      (∀ scene, Command.install scene ∈ commands → scene.Made) →
      (∀ s, Used r (start settings unseeded) commands s →
        s.program.isLegible = true ∧ s.program.placed = s.shapes) →
      HashesTell r (start settings unseeded) commands →
      ∀ i, (after r (start settings unseeded) commands).installed = some i →
        i.program.Alike (.ofScene i.scene) ∧
          ∀ frame film, r.sample i.program frame film = r.sample (.ofScene i.scene) frame film := by
  refine ⟨fun g h time other s t hs ht hLegible hReadable hSource => ?_, ?_⟩
  · have hAlike : (Tracer.ofScene s).Alike (.ofScene t) :=
      (Scene.told_of_compileAt hs hLegible).alike (Scene.told_of_compileAt ht hReadable) hSource
    exact ⟨hAlike, fun frame film => hAlike.render frame film⟩
  · intro settings unseeded commands r hInstalls hTold hHashes i hInstalled
    have hScene : Used r (start settings unseeded) commands i.scene :=
      ⟨commands, i, List.prefix_rfl, hInstalled, rfl⟩
    have hAll : ∀ s, Used r (start settings unseeded) commands s → s.Told := fun s hs =>
      ⟨(hs.made hInstalls).generated, (hTold s hs).1, (hTold s hs).2⟩
    obtain ⟨s, hUsed, hHash, hProgram⟩ :=
      (after_stocked limit settings unseeded commands).installed i hInstalled
    have hAlike : i.program.Alike (.ofScene i.scene) := by
      rw [hProgram]
      exact (hAll s hUsed).alike (hAll i.scene hScene) (hHashes s i.scene hUsed hScene hHash)
    exact ⟨hAlike, fun frame film => hAlike.render frame film⟩

/-- A camera of a kind alone in a scene. -/
def filmed (kind : CameraKind) : SceneGraph :=
  ⟨[.new .render .empty 1 [.new (.camera kind) .empty 2 []]]⟩

theorem compile_filmed (kind : CameraKind) :
    ∃ s, (filmed kind).compile = .ok s ∧ s.program = ⟨[Shader.dispatchFunction [],
      Shader.defaultEnvironment, Shader.sceneFunction []]⟩ ∧ s.shapes = ⟨[], []⟩ := by
  cases kind <;> exact ⟨_, rfl, rfl, rfl⟩

theorem installed_after_setGraph {g : SceneGraph} {s : Scene} (h : g.compile = .ok s) (limit : Nat)
    (p : Pipeline Tracer Film) (commands : List Command) :
    ∃ program, (after (.tracing limit) p (commands ++ [Command.setGraph g])).installed =
      some ⟨s, program⟩ := by
  rw [after_append]
  change ∃ program, ((after (.tracing limit) p commands).perform _ (.setGraph g)).2.installed = _
  rw [perform_of_result (c := .setGraph g) rfl, h]
  exact installResult_of_ok _ limit s

/-- Two scenes that differ in the kind of their camera share a program. -/
theorem program_alike_scene_of_legible_cameras :
    let commands : List Command := [.setGraph (filmed .perspective), .setGraph (filmed .isometric)]
    let r := Renderer.tracing 4
    ∃ s t i, (filmed .perspective).compileAt 0.0 = .ok s ∧
      (filmed .isometric).compileAt 0.0 = .ok t ∧ (Tracer.ofScene s).Alike (.ofScene t) ∧
      (after r (start .default) commands).installed = some i ∧ i.scene = t ∧
      i.program.Alike (.ofScene i.scene) := by
  intro commands r
  obtain ⟨s, hFirst, hProgram, hShapes⟩ := compile_filmed .perspective
  obtain ⟨t, hSecond, hOther, hNone⟩ := compile_filmed .isometric
  have hLegible : s.program.isLegible = true ∧ t.program.isLegible = true := by
    rw [hProgram, hOther]
    decide
  have hPlaced : s.program.placed = s.shapes ∧ t.program.placed = t.shapes := by
    rw [hProgram, hOther, hShapes, hNone]
    exact ⟨rfl, rfl⟩
  obtain ⟨first, hInstalled⟩ := installed_after_setGraph hFirst 4 (start .default) []
  obtain ⟨second, hLast⟩ := installed_after_setGraph hSecond 4 (start .default)
    [.setGraph (filmed .perspective)]
  rw [List.nil_append] at hInstalled
  rw [List.singleton_append] at hLast
  have hUsed : ∀ u, Used r (start .default) commands u → u = s ∨ u = t := by
    rintro u ⟨done, i, hDone, hUse, rfl⟩
    simp only [commands, List.prefix_cons_iff, List.prefix_nil] at hDone
    obtain rfl | ⟨_, rfl, rfl | ⟨_, rfl, rfl⟩⟩ := hDone
    · cases hUse
    · cases hInstalled.symm.trans hUse
      exact .inl rfl
    · cases hLast.symm.trans hUse
      exact .inr rfl
  refine ⟨s, t, ⟨t, second⟩, hFirst, hSecond, ?_, hLast, rfl, ?_⟩
  · exact ((program_alike_scene_of_legible 4).1 _ _ _ _ s t hFirst hSecond hLegible.1 hLegible.2
      (by rw [hProgram, hOther])).1
  · refine ((program_alike_scene_of_legible 4).2 .default (.ofSeed 0) commands (by simp [commands]) ?_ ?_
      ⟨t, second⟩ hLast).1
    · intro u hu
      obtain rfl | rfl := hUsed u hu
      · exact ⟨hLegible.1, hPlaced.1⟩
      · exact ⟨hLegible.2, hPlaced.2⟩
    · intro u v hu hv _
      obtain rfl | rfl := hUsed u hu <;> obtain rfl | rfl := hUsed v hv <;>
        simp only [hProgram, hOther]

/-! ### A literal that is not finite -/

/-- A material with a roughness. -/
def rough (x : Float32) : Material.Program :=
  ⟨"A", 0, .surface, [⟨.field .roughness, .const (.float1 x), 2⟩]⟩

/-- The shader function of a roughness. -/
def roughFunction (x : Float32) : Shader.Function where
  name := (rough 0.0).functionName
  params := [Material.Program.inputParam]
  result := some (.named "BsdfMaterial")
  body := [.comment "A", .declare "m" (.named "BsdfMaterial") (some (.call "default_material" [])),
    .assign (.field (.ident "m") "roughness") (.float x), .return (some (.ident "m"))]

/-- A material whose roughness has a source, before a camera. -/
def roughGraph (source : String) : SceneGraph :=
  ⟨[.new (.material .surface [⟨"roughness", source, 2⟩]) ⟨[("name", .text "A")]⟩ 1 [],
    .new .render .empty 3 [.new (.camera .perspective) .empty 4 []]]⟩

/-- A graph of one surface with a given roughness compiles, to a program that depends on the
text of the roughness only as it is written back. -/
theorem compile_roughGraph {source : String} {x : Float32}
    (h : Expression.tokenize source = .ok [.number x]) :
    ∃ s, (roughGraph source).compile = .ok s ∧ s.materials = [rough x] ∧
      s.program = ⟨[roughFunction x, Shader.dispatchFunction [rough 0.0], Shader.defaultEnvironment,
        Shader.sceneFunction []]⟩ := by
  have hRender : (roughGraph source).findRender =
      .ok (.new .render .empty 3 [.new (.camera .perspective) .empty 4 []]) := rfl
  have hDefinitions : (roughGraph source).definitions =
      .ok [⟨"A", 1, [⟨"roughness", source, 2⟩]⟩] := rfl
  have hEnvironment : (roughGraph source).findEnvironment = .ok none := rfl
  have hIndex : (((Context.start 0.0).registerMaterial "A").materialIndex? "A").getD 0 = 0 := rfl
  have hBuild : Material.Program.build "A" 0 .surface [⟨"roughness", source, 2⟩] =
      .ok (rough x) := by
    simp only [Material.Program.build, Material.checkBody, Material.checkStatement,
      Expression.parse_of_number h]
    rfl
  rw [SceneGraph.compile, SceneGraph.compileAt, hRender, hDefinitions, hEnvironment]
  simp only [Context.buildMaterials, hIndex, hBuild]
  exact ⟨_, rfl, rfl, rfl⟩

theorem resolve_rough {s : Scene} {x : Float32} (h : s.materials = [rough x])
    (inputs : Material.Inputs) : ((Tracer.ofScene s).resolve 0 inputs).roughness = x := by
  have hMaterial : (Tracer.ofScene s).material? 0 = some (rough x) := by
    change (if (0 : Int) < 0 then none else s.materials[_]?) = _
    rw [h]
    rfl
  rw [Tracer.resolve, hMaterial]
  rfl

/-- An infinite roughness is written as zero: two scenes have one text, and the
surfaces of the one are rough where those of the other are smooth. -/
theorem compile_of_infinite_roughness :
    ∃ s t, (roughGraph "0").compile = .ok s ∧ (roughGraph "1e39").compile = .ok t ∧
      s.program.source = t.program.source ∧ ¬ (Tracer.ofScene s).Alike (.ofScene t) := by
  have hZero : Expression.tokenize "0" = .ok [.number 0.0] := by decide +kernel
  have hInfinite : Expression.tokenize "1e39" = .ok [.number (1.0 / 0.0)] := by decide +kernel
  obtain ⟨s, hs, hMaterials, hProgram⟩ := compile_roughGraph hZero
  obtain ⟨t, ht, hOthers, hOther⟩ := compile_roughGraph hInfinite
  refine ⟨s, t, hs, ht, ?_, fun h => ?_⟩
  · have hText : Shader.floatText 0.0 = Shader.floatText (1.0 / 0.0) := by decide
    have hFunction : (roughFunction 0.0).text = (roughFunction (1.0 / 0.0)).text := by
      simp only [Shader.Function.text, roughFunction, Shader.Stmt.texts, Shader.Stmt.text,
        Shader.Expr.text, hText]
    rw [hProgram, hOther]
    simp only [Shader.Program.source, Shader.Program.generatedText, Shader.moduleText,
      List.map_cons, hFunction]
  · have hSame := congrArg SurfaceParams.roughness
      (h.resolve 0 ⟨.zero, .zero, .zero, .splat 0.0, .splat 0.0, 0.0, 0.0⟩)
    rw [resolve_rough hMaterials, resolve_rough hOthers] at hSame
    exact absurd hSame (by decide)

end PathTracer.Pipeline
