import PathTracer.Proofs.Pipeline.Requests
import PathTracer.Proofs.Scene.Freezing

/-! What a scene asks of the main view. Its depth and its background are read for
every frame, while its count of samples is written over the budget when it is
installed, where it stays until another scene brings a count. -/
namespace PathTracer

/-- The number of bounces and the background come from the scene, or from the
settings where its render node has none. -/
theorem Frame.view_of_main {scene : Scene} {settings : Settings} {extent : Extent} {index : Nat}
    {rng next : ChaCha} {frame : Frame}
    (h : Frame.main scene settings extent index rng = .ok (frame, next)) :
    frame.background = (scene.render.background.getD settings.background).extend 1.0 ∧
      frame.maxDepth = max (scene.render.depth.getD settings.maxDepth) 1 := by
  unfold Frame.main at h
  split at h
  · cases h
  · have hFrame := Except.ok.inj h
    exact ⟨(congrArg (fun f => f.1.background) hFrame).symm,
      (congrArg (fun f => f.1.maxDepth) hFrame).symm⟩

/-- A sample of the main view is one of the scene in use, with the depth and the
background of this scene. -/
def Request.OfScene {P : Type} (settings : Settings) (installed : Option (Installed P)) :
    Request P → Prop
  | .sample .main i frame => installed = some i ∧
      frame.background = (i.scene.render.background.getD settings.background).extend 1.0 ∧
      frame.maxDepth = max (i.scene.render.depth.getD settings.maxDepth) 1
  | _ => True

theorem Request.Shows.ofScene {P : Type} {settings : Settings} {installed : Option (Installed P)}
    {request : Request P} (h : request.Shows settings installed) :
    request.OfScene settings installed := by
  cases request with
  | sample target i frame =>
      cases target with
      | main =>
          obtain ⟨hInstalled, _, _, _, _, hFrame⟩ := h
          exact ⟨hInstalled, Frame.view_of_main hFrame⟩
      | icon => trivial
  | _ => trivial

namespace Pipeline

variable {P F : Type} {r : Renderer P F} {p q : Pipeline P F}

/-! ### The frames of a command -/

/-- The requests of `q` are those of `p` and more of the scene in use. -/
def Asks (p q : Pipeline P F) : Prop :=
  ∃ more, q.requests = p.requests ++ more ∧
    ∀ request ∈ more, request.OfScene p.settings p.installed

/-- Whatever a command is, its frames are those of the scene that is in use when it
comes. -/
theorem perform_asks (r : Renderer P F) (p : Pipeline P F) (c : Command) :
    Asks p (p.perform r c).2 := by
  obtain ⟨more, hMore, hShows⟩ := perform_notes r p c
  exact ⟨more, hMore, fun request hRequest => (hShows request hRequest).ofScene⟩

/-! ### The budget along a run -/

/-- The scene that a command puts in use. -/
def Command.installs? (r : Renderer P F) (p : Pipeline P F) (c : Command) : Option Scene :=
  match c.result? p with
  | some (.ok scene) => (p.install r scene).1.toOption.map fun _ => scene
  | _ => none

/-- The scenes that commands put in use, one after the other. -/
def scenesInUse (r : Renderer P F) (p : Pipeline P F) : List Command → List Scene
  | [] => []
  | c :: rest => (c.installs? r p).toList ++ scenesInUse r (p.perform r c).2 rest

theorem scenesInUse_append (r : Renderer P F) (p : Pipeline P F) (done more : List Command) :
    scenesInUse r p (done ++ more) = scenesInUse r p done ++ scenesInUse r (after r p done) more := by
  induction done generalizing p with
  | nil => rfl
  | cons c rest ih =>
      rw [List.cons_append, scenesInUse, scenesInUse, ih, List.append_assoc]
      rfl

theorem Step.budget (h : Step r p q) : q.budget = p.budget := by
  cases h with
  | main h =>
      cases h with
      | announce =>
          unfold Pipeline.announce
          split <;> rfl
      | _ => rfl
  | prime h => cases h <;> rfl
  | shot h => cases h <;> rfl
  | finish h => cases h <;> rfl

theorem Steps.budget (h : Steps r p q) : q.budget = p.budget :=
  preserves_of_step (Q := fun q => q.budget = p.budget)
    (fun hStep hSame => hStep.budget.trans hSame) h rfl

/-- Installing puts a scene in use and takes over its count, or it fails and
changes neither. -/
theorem install_use (r : Renderer P F) (p : Pipeline P F) (scene : Scene) :
    let installs := (p.install r scene).1.toOption.map fun _ => scene
    (p.install r scene).2.installed.map Installed.scene =
        installs.or (p.installed.map Installed.scene) ∧
      (p.install r scene).2.budget = (installs.bind fun s => s.render.samples).getD p.budget := by
  unfold install
  split
  · exact ⟨rfl, rfl⟩
  · dsimp only
    split <;> exact ⟨rfl, rfl⟩

/-- A command that does not set the budget only changes it by a scene that it puts
in use. -/
theorem perform_use (r : Renderer P F) (p : Pipeline P F) {c : Command}
    (h : ∀ samples, c ≠ .setBudget samples) :
    (p.perform r c).2.installed.map Installed.scene =
        (c.installs? r p).or (p.installed.map Installed.scene) ∧
      (p.perform r c).2.budget =
        ((c.installs? r p).bind fun s => s.render.samples).getD p.budget := by
  unfold Command.installs?
  cases hResult : c.result? p with
  | some result =>
      rw [perform_of_result hResult]
      cases result with
      | error e => exact ⟨rfl, rfl⟩
      | ok scene => exact install_use r p scene
  | none =>
      refine ⟨congrArg (Option.map Installed.scene) (perform_sameUse hResult).installed, ?_⟩
      cases c with
      | setBudget samples => exact absurd rfl (h samples)
      | restart | resize | enqueue => rfl
      | setGraph | setTime | install => cases hResult
      | tick => exact (tick_steps r p).budget
      | runUntilConverged n => exact (runUntilConverged_steps r n p).budget
      | readMain =>
          change (p.readMain r).2.budget = p.budget
          unfold readMain
          split <;> rfl

/-- Along a run the last scene is in use, and the budget is the last count that a
scene brought. -/
theorem after_use (r : Renderer P F) (settings : Settings) (unseeded : ChaCha)
    {commands : List Command}
    (hUnset : ∀ samples, Command.setBudget samples ∉ commands) :
    let scenes := scenesInUse r (start settings unseeded) commands
    (after r (start settings unseeded) commands).installed.map Installed.scene = scenes.getLast? ∧
      (after r (start settings unseeded) commands).budget =
        (scenes.filterMap fun s => s.render.samples).getLast?.getD settings.maxSamples := by
  induction commands using List.reverseRecOn with
  | nil => exact ⟨rfl, rfl⟩
  | append_singleton done c ih =>
      obtain ⟨hScene, hBudget⟩ := ih fun samples hMem => hUnset samples (List.mem_append_left _ hMem)
      obtain ⟨hNext, hCount⟩ := perform_use r (after r (start settings unseeded) done) (c := c)
        fun samples hSame => hUnset samples (List.mem_append_right _ (List.mem_singleton.mpr hSame.symm))
      have hScenes : scenesInUse r (start settings unseeded) (done ++ [c]) =
          scenesInUse r (start settings unseeded) done ++
            (c.installs? r (after r (start settings unseeded) done)).toList := by
        rw [scenesInUse_append, scenesInUse, scenesInUse, List.append_nil]
      rw [after_append]
      change Option.map _ (Pipeline.perform _ _ c).2.installed = _ ∧
        (Pipeline.perform _ _ c).2.budget = _
      rw [hScenes, List.filterMap_append, hNext, hCount, hScene, hBudget]
      cases c.installs? r (after r (start settings unseeded) done) with
      | none => simp
      | some s => cases hSamples : s.render.samples <;> simp [hSamples]

/-- The budget is that of the scene in use if it has a count of samples. If it has none, it
is that of the settings if and only if no scene before it had a count, or the last one had
that of the settings. Depth and background of every frame are those of the scene in use.
Commands that set the budget are left out, since they may set it to anything. A refused
scene is no scene in use and changes nothing here. -/
theorem budget_own_iff_last_count (r : Renderer P F) (settings : Settings) (unseeded : ChaCha)
    (commands : List Command) (hUnset : ∀ samples, Command.setBudget samples ∉ commands) :
    let p := after r (start settings unseeded) commands
    let scenes := scenesInUse r (start settings unseeded) commands
    let counts := scenes.filterMap fun s => s.render.samples
    p.installed.map Installed.scene = scenes.getLast? ∧
      p.budget = counts.getLast?.getD settings.maxSamples ∧
      (∀ s ∈ scenes.getLast?, p.budget = s.render.samples.getD settings.maxSamples ↔
        s.render.samples.isSome = true ∨
          ∀ samples ∈ counts.getLast?, samples = settings.maxSamples) ∧
      ∀ done c, done ++ [c] <+: commands → ∃ more,
        (after r (start settings unseeded) (done ++ [c])).requests =
          (after r (start settings unseeded) done).requests ++ more ∧
        ∀ request ∈ more,
          request.OfScene settings (after r (start settings unseeded) done).installed := by
  intro p scenes counts
  obtain ⟨hScene, hBudget⟩ := after_use r settings unseeded hUnset
  refine ⟨hScene, hBudget, fun s hLast => ?_, fun done c _ => ?_⟩
  · obtain ⟨before, hBefore⟩ := List.getLast?_eq_some_iff.mp hLast
    have hCounts : counts = before.filterMap (fun s => s.render.samples) ++
        s.render.samples.toList := by
      simp only [counts, hBefore, List.filterMap_append]
      cases hSamples : s.render.samples <;> simp [hSamples]
    rw [show p.budget = counts.getLast?.getD settings.maxSamples from hBudget]
    cases hSamples : s.render.samples with
    | some samples => simp [hCounts, hSamples]
    | none => cases counts.getLast? <;> simp
  · obtain ⟨more, hMore, hRequests⟩ := perform_asks r (after r (start settings unseeded) done) c
    rw [settings_after] at hRequests
    exact ⟨more, (congrArg Pipeline.requests (after_append r _ done [c])).trans hMore, hRequests⟩

/-! ### A count that stays -/

theorem use_after_setGraph {g : SceneGraph} {s : Scene} (h : g.compile = .ok s) (limit : Nat)
    (p : Pipeline Tracer Film) (commands : List Command) :
    (after (.tracing limit) p (commands ++ [Command.setGraph g])).installed.map Installed.scene = some s ∧
      (after (.tracing limit) p (commands ++ [Command.setGraph g])).budget =
        s.render.samples.getD (after (.tracing limit) p commands).budget := by
  obtain ⟨program, hInstalled⟩ := installed_after_setGraph h limit p commands
  refine ⟨by rw [hInstalled]; rfl, ?_⟩
  rw [after_append]
  change ((after (.tracing limit) p commands).perform _ (.setGraph g)).2.budget = _
  rw [perform_of_result (c := .setGraph g) rfl, h]
  change (install _ _ s).2.budget = _
  unfold install
  split <;> rfl

theorem compile_three_samples :
    ∃ s, (SceneGraph.ofSamples (.source "3")).compile = .ok s ∧ s.render.samples = some 3 := by
  have hThree : Expression.tokenize "3" = .ok [.number 3.0] := by decide +kernel
  obtain ⟨s, hScene, hSamples⟩ :=
    SceneGraph.compileAt_ofSamples 0.0 (SceneGraph.value_samples_of_number hThree)
  exact ⟨s, hScene, hSamples.trans (congrArg some (by decide))⟩

/-- A scene of three samples, with settings that ask for one. -/
theorem budget_own_iff_last_count_three :
    let settings := { Settings.default with maxSamples := 1 }
    let commands : List Command := [.setGraph (.ofSamples (.source "3"))]
    ∃ s, (scenesInUse (.tracing 4) (start settings) commands).getLast? = some s ∧
      (∀ samples, Command.setBudget samples ∉ commands) ∧
      (after (.tracing 4) (start settings) commands).budget = 3 := by
  intro settings commands
  obtain ⟨s, hCompile, hSamples⟩ := compile_three_samples
  have hUnset : ∀ samples, Command.setBudget samples ∉ commands := by simp [commands]
  obtain ⟨hScene, _, hOwn, _⟩ :=
    budget_own_iff_last_count (.tracing 4) settings (.ofSeed 0) commands hUnset
  have hLast : (scenesInUse (.tracing 4) (start settings) commands).getLast? = some s :=
    hScene.symm.trans (use_after_setGraph hCompile 4 (start settings) []).1
  refine ⟨s, hLast, hUnset, ?_⟩
  have hBudget := (hOwn s hLast).mpr (.inl (by rw [hSamples]; rfl))
  rwa [hSamples] at hBudget

/-- The three samples of one scene are asked for when a scene without a count has
taken its place, although the settings ask for one. -/
theorem budget_after_scene_of_three :
    let settings := { Settings.default with maxSamples := 1 }
    let p := after (.tracing 4) (start settings)
      [.setGraph (.ofSamples (.source "3")), .setGraph (filmed .perspective)]
    ∃ s, p.installed.map Installed.scene = some s ∧ s.render.samples = none ∧
      p.settings.maxSamples = 1 ∧ p.budget = 3 := by
  intro settings p
  obtain ⟨first, hFirst, hSamples⟩ := compile_three_samples
  obtain ⟨s, hCompile, _⟩ := compile_filmed .perspective
  have hOptions : .ok ⟨"Render", none, none, none⟩ = Except.ok s.render :=
    SceneGraph.renderOptions_of_compileAt hCompile rfl
  have hNone : s.render.samples = none :=
    (congrArg RenderOptions.samples (Except.ok.inj hOptions)).symm
  obtain ⟨hScene, hBudget⟩ := use_after_setGraph hCompile 4 (start settings)
    [.setGraph (.ofSamples (.source "3"))]
  refine ⟨s, hScene, hNone, congrArg Settings.maxSamples (settings_after _ _ _), hBudget.trans ?_⟩
  rw [hNone]
  refine (use_after_setGraph hFirst 4 (start settings) []).2.trans ?_
  rw [hSamples]
  rfl

end Pipeline

end PathTracer
