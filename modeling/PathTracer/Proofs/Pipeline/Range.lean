import PathTracer.Proofs.Pipeline.Requests
import PathTracer.Proofs.Scene.Provenance

/-! What the samples of a run read of data and lights. The program in use may have been
built for another scene, as long as that one was compiled to the same text: then the
slots of its shapes are in the data of the scene in use. -/
namespace PathTracer.Pipeline

/-! ### The program in use is kept -/

section Kept

variable {P F : Type} {p q : Pipeline P F}

/-- The program in use is kept under the hash of the scene in use. -/
def Cached (p : Pipeline P F) : Prop :=
  ∀ i, p.installed = some i → p.cache.lookup i.scene.program.hash = some i.program

theorem SameUse.cached (h : SameUse p q) (hCached : p.Cached) : q.Cached := by
  intro i hInstalled
  rw [h.cache]
  exact hCached i (h.installed.symm.trans hInstalled)

theorem Cached.install (h : p.Cached) (r : Renderer P F) (scene : Scene) :
    (p.install r scene).2.Cached := by
  unfold Pipeline.install
  split
  · rename_i program hLookup
    intro i hInstalled
    cases hInstalled
    exact hLookup
  · dsimp only
    split
    · exact h
    · intro i hInstalled
      cases hInstalled
      exact List.lookup_cons_self

theorem after_cached (r : Renderer P F) (settings : Settings) (unseeded : ChaCha)
    (commands : List Command) :
    (after r (start settings unseeded) commands).Cached := by
  induction commands using List.reverseRecOn with
  | nil => exact fun i hInstalled => nomatch hInstalled
  | append_singleton done c ih =>
      rw [after_append]
      change (Pipeline.perform _ _ c).2.Cached
      obtain hSame | ⟨scene, -, hScene⟩ :=
        perform_cases r (after r (start settings unseeded) done) c
      · exact hSame.cached ih
      · rw [hScene]
        exact ih.install r scene

/-! ### Graphs -/

/-- A command that puts scenes in use by graphs only, with names on one line each. -/
structure Command.ByGraph (c : Command) : Prop where
  graph : ∀ scene, c ≠ .install scene
  names : ∀ edit, c.edit? = some edit → edit.1.OnOneLine

/-- Programs are built for compiled scenes only: a refresh that does not compile keeps
the program, which is found again. -/
theorem compiled_of_result (hCached : p.Cached) {c : Command} {scene : Scene} (hGraph : c.ByGraph)
    (hResult : c.result? p = some (.ok scene))
    (hNew : p.cache.lookup scene.program.hash = none) : scene.Compiled := by
  obtain rfl | ⟨g, time, hEdit, hCompile | ⟨i, hInstalled, hRefresh⟩⟩ := result_cases hResult
  · exact absurd rfl (hGraph.graph scene)
  · exact ⟨g, time, hGraph.names _ hEdit, hCompile⟩
  · obtain ⟨-, hProgram, -⟩ | ⟨-, hCompile⟩ := Scene.refresh_cases hRefresh
    · rw [hProgram, hCached i hInstalled] at hNew
      cases hNew
    · exact ⟨g, time, hGraph.names _ hEdit, hCompile⟩

end Kept

variable {limit : Nat} {settings : Settings} {unseeded : ChaCha} {commands : List Command}

theorem Used.seated {s : Scene} (h : Used (.tracing limit) (start settings unseeded) commands s)
    (hGraphs : ∀ c ∈ commands, c.ByGraph) : s.Seated :=
  h.of_commands (fun scene hMem => absurd rfl ((hGraphs _ hMem).graph scene))
    (fun c hc g time _ hEdit hCompile =>
      Scene.Compiled.seated ⟨g, time, (hGraphs c hc).names _ hEdit, hCompile⟩)
    fun c hc _ _ _ _ hEdit hSeated hRefresh =>
      hSeated.refresh ((hGraphs c hc).names _ hEdit) hRefresh

/-- The program in use was built for a scene whose shapes are in the data of the scene
in use. -/
theorem exists_built_inBounds (hGraphs : ∀ c ∈ commands, c.ByGraph)
    (hHashes : HashesTell (.tracing limit) (start settings unseeded) commands)
    {i : Installed Tracer}
    (hInstalled : (after (.tracing limit) (start settings unseeded) commands).installed = some i) :
    ∃ s, Used (.tracing limit) (start settings unseeded) commands s ∧ i.program = .ofScene s ∧
      s.shapes.InBounds i.scene.data.size := by
  have hScene : Used (.tracing limit) (start settings unseeded) commands i.scene :=
    ⟨commands, i, List.prefix_rfl, hInstalled, rfl⟩
  have hStocked := after_stocked_of (Q := Scene.Compiled) limit settings unseeded commands
    fun done c scene hDone hResult hNew =>
      compiled_of_result (after_cached _ settings unseeded done)
        (hGraphs c (hDone.subset (List.mem_append_right done List.mem_cons_self))) hResult hNew
  obtain ⟨s, ⟨hUsed, hCompiled⟩, hHash, hProgram⟩ := hStocked.installed i hInstalled
  exact ⟨s, hUsed, hProgram, (hScene.seated hGraphs).inBounds_of_source hCompiled
    (hHashes s i.scene hUsed hScene hHash)⟩

theorem HashesTell.mono {r : Renderer Tracer Film} {p : Pipeline Tracer Film}
    {done commands : List Command} (h : HashesTell r p commands) (hDone : done <+: commands) :
    HashesTell r p done :=
  fun s t hs ht => h s t (hs.mono hDone) (ht.mono hDone)

/-- Every sample of a run reads slots of its data and lights that are there, with the shapes
of the scene that its program was built for, be it the scene in use or an earlier one.
Graphs have names on one line each, no scene has more slots than there are exact numbers
for, and hashes tell the texts of programs apart. The checked passes stop where they read
out of range, and they never do. Beyond that they are the passes that are run, so that
nothing is lost by not checking. -/
theorem samples_read_in_range (limit : Nat) (settings : Settings) (unseeded : ChaCha)
    (commands : List Command)
    (hGraphs : ∀ c ∈ commands, c.ByGraph)
    (hSize : ∀ s, Used (.tracing limit) (start settings unseeded) commands s → s.data.size ≤ 2 ^ 24)
    (hHashes : HashesTell (.tracing limit) (start settings unseeded) commands) :
    ∀ target i frame, Request.sample target i frame ∈
        (after (.tracing limit) (start settings unseeded) commands).requests →
      ∃ s, Used (.tracing limit) (start settings unseeded) commands s ∧ i.program = .ofScene s ∧
        ∀ index pixel, Pass.trySample ⟨i.program, frame, index⟩ s.shapes pixel =
          some (Pass.sample ⟨i.program, frame, index⟩ pixel) := by
  intro target i frame hSample
  obtain ⟨done, hDone, hInstalled, hFrame⟩ :=
    shows_of_mem_requests (.tracing limit) settings unseeded hSample
  have hScene : Used (.tracing limit) (start settings unseeded) commands i.scene :=
    ⟨done, i, hDone, hInstalled, rfl⟩
  have hData := hSize i.scene hScene
  have hSeated := hScene.seated hGraphs
  obtain ⟨s, hUsed, hProgram, hShapes⟩ :=
    exists_built_inBounds (fun c hc => hGraphs c (hDone.subset hc)) (hHashes.mono hDone) hInstalled
  refine ⟨s, hUsed.mono hDone, hProgram, fun index pixel => Pass.trySample_eq ⟨?_, ?_⟩ pixel⟩
  · cases target with
    | main =>
        obtain ⟨_, _, _, _, hMain⟩ := hFrame
        exact .of_main hShapes hSeated.entities hData hMain
    | icon =>
        obtain ⟨_, _, _, _, _, hIcon⟩ := hFrame
        exact .of_icon hShapes hData hIcon
  · rw [hProgram]
    rfl

/-! ### A program that is kept -/

/-- The first tick after a thumbnail was asked for asks for a sample of it. -/
theorem requests_of_first (i : Installed Tracer) (cache : List (UInt64 × Tracer)) (budget : Nat)
    (requests : List (Request Tracer)) :
    let p := withoutView 2 i cache budget requests
    ∃ frame, Request.sample .icon i frame ∈
      (after (.tracing 4) p [.enqueue .scene, .tick]).requests := by
  intro p
  have hPreview : Subject.scene.preview? i.scene = some (-1) := rfl
  obtain ⟨frame, film, rng, -, hTick⟩ := exists_tick_enqueue 2 i cache budget requests hPreview
  refine ⟨frame, ?_⟩
  change _ ∈ ((p.enqueue .scene).2.tick (.tracing 4)).2.requests
  rw [hTick]
  exact List.mem_append_right _ (List.mem_singleton_self _)

section Refreshed

variable {g : SceneGraph} {time : Float32} {s t : Scene}

theorem install_of_lookup {P F : Type} {r : Renderer P F} {p : Pipeline P F} {scene : Scene}
    {program : P} (h : p.cache.lookup scene.program.hash = some program) :
    p.install r scene = (.ok (), p.use scene program) := by
  unfold install
  rw [h]

/-- A refreshed scene is rendered with the program of the scene before it where the
hash has stayed. -/
theorem after_setTime (hFirst : g.compile = .ok s) (hRefresh : s.refresh g time = .ok t)
    (hHash : t.program.hash = s.program.hash) :
    ∃ cache budget requests, after (.tracing 4) (start twoSamples)
        [.resize ⟨0, 0⟩, .setGraph g, .setTime g time] =
      withoutView 2 ⟨t, .ofScene s⟩ cache budget requests := by
  have hHere : [(s.program.hash, Tracer.ofScene s)].lookup t.program.hash = some (.ofScene s) := by
    rw [hHash]
    exact List.lookup_cons_self
  refine ⟨[(s.program.hash, .ofScene s)],
    t.render.samples.getD (s.render.samples.getD twoSamples.maxSamples), [.build], ?_⟩
  change (setTime _ (after (.tracing 4) (start (fewSamples 2)) [.resize ⟨0, 0⟩, .setGraph g]) g
    time).2 = _
  rw [after_setGraph_of_ok hFirst]
  change (installResult _ _ (s.refresh g time)).2 = _
  rw [hRefresh]
  change (install _ _ t).2 = _
  rw [install_of_lookup hHere]
  rfl

/-- A graph is set, and evaluated at another time before the first tick. -/
def refreshThenTick (g : SceneGraph) (time : Float32) : List Command :=
  [.resize ⟨0, 0⟩, .setGraph g, .setTime g time, .enqueue .scene, .tick]

theorem byGraph_of_mem_refreshThenTick (hNames : g.OnOneLine) :
    ∀ c ∈ refreshThenTick g time, c.ByGraph := by
  intro c hc
  refine ⟨fun scene => ?_, fun edit hEdit => ?_⟩
  · rintro rfl
    simp [refreshThenTick] at hc
  · simp only [refreshThenTick, List.mem_cons, List.not_mem_nil, or_false] at hc
    obtain rfl | rfl | rfl | rfl | rfl := hc <;> cases hEdit <;> exact hNames

/-- All scenes of such a run have the size and the text of the first. -/
theorem used_of_refreshThenTick (hFirst : g.compileAt 0.0 = .ok s)
    (hLater : g.compileAt time = .ok t) (hSize : t.data.size = s.data.size)
    (hSource : t.program.source = s.program.source) {u : Scene}
    (hUsed : Used (.tracing 4) (start twoSamples) (refreshThenTick g time) u) :
    u.data.size = s.data.size ∧ u.program.source = s.program.source := by
  have hEdits : ∀ c ∈ refreshThenTick g time, ∀ h when u, c.edit? = some (h, when) →
      h.compileAt when = .ok u →
      u.data.size = s.data.size ∧ u.program.source = s.program.source := by
    intro c hc h when u hEdit hScene
    simp only [refreshThenTick, List.mem_cons, List.not_mem_nil, or_false] at hc
    obtain rfl | rfl | rfl | rfl | rfl := hc <;> cases hEdit
    · cases hFirst.symm.trans hScene
      exact ⟨rfl, rfl⟩
    · cases hLater.symm.trans hScene
      exact ⟨hSize, hSource⟩
  refine hUsed.of_commands (fun scene hMem => ?_) hEdits
    fun c hc h when u next hEdit hOld hNext => ?_
  · simp [refreshThenTick] at hMem
  · obtain ⟨hKeeps, hProgram, -⟩ | ⟨-, hScene⟩ := Scene.refresh_cases hNext
    · rw [hProgram, Scene.size_of_refresh hNext hKeeps]
      exact hOld
    · exact hEdits c hc h when next hEdit hScene

end Refreshed

/-- A sphere before a camera. -/
def ball : SceneGraph :=
  ⟨[.new .render .empty 1 [.new (.camera .perspective) .empty 2 [],
    .new (.object .analytical) .empty 3 [.new (.primitive .sphere) .empty 4 []]]]⟩

theorem compile_ball : ∃ s t, ball.compileAt 0.0 = .ok s ∧ ball.compileAt 1.0 = .ok t ∧
    s.data.size = 7 ∧ t.data.size = 7 ∧ s.time = 0.0 ∧ t.time = 1.0 :=
  ⟨_, _, rfl, rfl, rfl, rfl, rfl, rfl⟩

/-- The scene of another time is rendered with the program that was built before. -/
theorem samples_read_in_range_refreshed :
    ∃ s i frame, ball.compile = .ok s ∧ i.program = .ofScene s ∧ s.time ≠ i.scene.time ∧
      Request.sample .icon i frame ∈
        (after (.tracing 4) (start twoSamples) (refreshThenTick ball 1.0)).requests ∧
      ∃ built : Scene, i.program = .ofScene built ∧
        ∀ index pixel, Pass.trySample ⟨i.program, frame, index⟩ built.shapes pixel =
          some (Pass.sample ⟨i.program, frame, index⟩ pixel) := by
  obtain ⟨s, t, hFirst, hLater, hSlots, hMore, hTime, hOther⟩ := compile_ball
  have hShape : ball.SameShape ball := Node.AllPaired.refl ball.nodes fun n _ => .refl n
  have hProgram : t.program = s.program := hShape.program hFirst hLater
  have hRefresh : s.refresh ball 1.0 = .ok t :=
    (Scene.refresh_of_compileAt hFirst 1.0).trans hLater
  have hUsed {u : Scene} := used_of_refreshThenTick (u := u) hFirst hLater
    (hMore.trans hSlots.symm) (congrArg Shader.Program.source hProgram)
  obtain ⟨cache, budget, requests, hKept⟩ :=
    after_setTime hFirst hRefresh (congrArg Shader.Program.hash hProgram)
  obtain ⟨frame, hFrame⟩ := requests_of_first ⟨t, .ofScene s⟩ cache budget requests
  rw [← hKept, ← after_append] at hFrame
  obtain ⟨built, -, hBuilt, hReads⟩ := samples_read_in_range 4 twoSamples
    (.ofSeed 0) (refreshThenTick ball 1.0) (byGraph_of_mem_refreshThenTick (by decide))
    (fun u hu => by rw [(hUsed hu).1, hSlots]; decide)
    (fun u v hu hv _ => (hUsed hu).2.trans (hUsed hv).2.symm) .icon ⟨t, .ofScene s⟩ frame hFrame
  refine ⟨s, ⟨t, .ofScene s⟩, frame, hFirst, rfl, ?_, hFrame, built, hBuilt, hReads⟩
  rw [hTime, hOther]
  decide

end PathTracer.Pipeline
