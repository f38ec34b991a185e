import PathTracer.Proofs.Pipeline.Chronicle
import PathTracer.Proofs.Pipeline.Reuse
import PathTracer.Proofs.Scene.Acceptance

/-! When the main view tells that it has its samples. That it has told this is forgotten
with every sample and every reset, and also where a sample is due and cannot be
rendered: then it is told again. -/
namespace PathTracer.Pipeline

section Told

variable {P F : Type} {r : Renderer P F} {past : List Moment} {p q : Pipeline P F}

theorem Chronicled.told_of_flag (h : Chronicled past p) (hFlag : p.view.converged = true) :
    ∃ n, .converged n ∈ Pipeline.recent past := by
  rw [h.flag] at hFlag
  obtain ⟨n, hTold⟩ := Option.isSome_iff_exists.mp hFlag
  obtain ⟨moment, hLast, hMoment⟩ := Option.bind_eq_some_iff.mp hTold
  obtain ⟨before, rfl⟩ := List.getLast?_eq_some_iff.mp hLast
  cases moment with
  | converged samples =>
      refine ⟨samples, ?_⟩
      rw [recent_converged]
      exact List.mem_append_right _ (List.mem_singleton_self _)
  | sampled | reset | missed => cases hMoment

/-- Where nothing was told before there are enough samples, it is told with them. It is not
told twice, since the flag is set with it. -/
theorem Chronicled.announce_due (h : Chronicled past p)
    (hNone : p.view.samples < p.budget → ∀ n, .converged n ∉ Pipeline.recent past) :
    (∃ n, .converged n ∈ Pipeline.recent (past ++ p.announcement)) ↔
      p.announce.budget ≤ p.announce.view.samples := by
  unfold announcement Pipeline.announce
  split
  · rename_i hDue
    have hEnough : p.budget ≤ p.view.samples := by simpa using (Bool.and_eq_true_iff.mp hDue).1
    refine iff_of_true ⟨p.view.samples, ?_⟩ hEnough
    rw [recent_converged]
    exact List.mem_append_right _ (List.mem_singleton_self _)
  · rename_i hIdle
    rw [List.append_nil]
    by_cases hEnough : p.budget ≤ p.view.samples
    · have hFlag : p.view.converged = true := by simpa [hEnough] using hIdle
      exact iff_of_true (h.told_of_flag hFlag) hEnough
    · exact iff_of_false (fun ⟨n, hMem⟩ => hNone (Nat.lt_of_not_le hEnough) n hMem) hEnough

/-- After rendering that did not fail, convergence is told since the last sample or reset
exactly if there are enough samples. -/
theorem Chronicled.renderMain_due (h : Chronicled past p) {sampled : Option Nat}
    (hDone : p.renderMain r = (.ok sampled, q)) (hInstalled : q.installed.isSome)
    (hFilm : q.films.main.isSome) :
    (∃ n, .converged n ∈ Pipeline.recent (past ++ p.rendering r)) ↔ q.budget ≤ q.view.samples := by
  cases hScene : p.installed with
  | none =>
      simp only [Pipeline.renderMain, hScene, Prod.mk.injEq] at hDone
      rw [← hDone.2, hScene] at hInstalled
      cases hInstalled
  | some i =>
      cases hHere : p.films.main with
      | none =>
          simp only [Pipeline.renderMain, hScene, hHere, Prod.mk.injEq] at hDone
          rw [← hDone.2, hHere] at hFilm
          cases hFilm
      | some film =>
          simp only [Pipeline.renderMain, hScene, hHere] at hDone
          simp only [rendering, hScene, hHere]
          split at hDone
          · rename_i hDue
            rw [if_pos hDue]
            have hSample := h.sampleMain (r := r) i film
            generalize p.sampleMain r i film = result at hSample hDone ⊢
            obtain ⟨e | samples, o⟩ := result
            · cases hDone
            · cases hDone
              have hEnd := hSample.announce_due fun _ n hMem => by
                rw [recent_sampled] at hMem
                cases hMem
              rw [List.append_assoc] at hEnd
              exact hEnd
          · rename_i hEnough
            cases hDone
            rw [if_neg hEnough]
            exact h.announce_due fun hDue => absurd hDue hEnough

/-- A tick that did not fail leaves convergence told exactly if there are enough samples.
The premises say that there is something to render and a film for it. -/
theorem Chronicled.tick_due (h : Chronicled past p) {report : TickReport}
    (hDone : p.tick r = (.ok report, q)) (hInstalled : q.installed.isSome)
    (hFilm : q.films.main.isSome) :
    (∃ n, .converged n ∈ Pipeline.recent (past ++ p.tickMoments r)) ↔
      q.budget ≤ q.view.samples := by
  have hPrepared := h.prepared (r := r)
  have hRun := p.tickRun r
  rw [hDone] at hRun
  cases hRun with
  | @done _ _ _ o m q hPrepare hRender hIcon =>
      rw [hPrepare] at hPrepared
      have hSpared := m.stepIcon_spared (r := r)
      rw [hIcon] at hSpared
      rw [tickMoments_of_ok hPrepare, ← List.append_assoc, hSpared.budget, hSpared.view]
      rw [hSpared.installed] at hInstalled
      rw [hSpared.film] at hFilm
      exact hPrepared.renderMain_due hRender hInstalled hFilm

/-- Ticks until the main view has converged are some ticks. How many depends on the run.
With too few of them it may end before the view has converged. -/
theorem runUntilConverged_ticks (r : Renderer P F) (ticks : Nat) (p : Pipeline P F) :
    ∃ count ≤ ticks,
      (p.runUntilConverged r ticks).2 = p.through (.replicate count ⟨r, .tick⟩) ∧
      runMoments r ticks p = p.chronicle (.replicate count ⟨r, .tick⟩) := by
  induction ticks generalizing p with
  | zero => exact ⟨0, le_rfl, rfl, rfl⟩
  | succ n ih =>
      obtain ⟨count, hCount, hThrough, hMoments⟩ := ih (p.tick r).2
      rw [Pipeline.runUntilConverged, runMoments]
      cases hTick : p.tick r with
      | mk answer q =>
          have hNext : (Job.perform ⟨r, .tick⟩ p).2 = q := congrArg Prod.snd hTick
          rw [hTick] at hThrough hMoments
          cases answer with
          | error e => exact ⟨1, Nat.le_add_left 1 n, hNext.symm, rfl⟩
          | ok report =>
              dsimp only at hThrough hMoments ⊢
              split
              · exact ⟨1, Nat.le_add_left 1 n, hNext.symm, rfl⟩
              · refine ⟨count + 1, Nat.succ_le_succ hCount, ?_, ?_⟩
                · rw [hThrough, ← hNext]
                  rfl
                · rw [hMoments, ← hNext]
                  rfl

/-- Something happens between two tellings. -/
theorem Chronicled.between (h : Chronicled past p) {before between after : List Moment}
    {n m : Nat} (hPast : past = before ++ .converged n :: (between ++ .converged m :: after)) :
    .sampled ∈ between ∨ .reset ∈ between ∨ .missed ∈ between := by
  have hSpaced := h.spaced
  rw [hPast, List.isChain_append] at hSpaced
  cases between with
  | nil => cases (List.isChain_cons_cons.mp hSpaced.2.1).1 rfl
  | cons moment rest =>
      have hTold := (List.isChain_cons_cons.mp hSpaced.2.1).1 rfl
      cases moment with
      | converged samples => cases hTold
      | sampled | reset | missed => simp

/-- Between two times that it is told, the main view gets a sample, is reset or misses a
sample that was due. A tick that does not fail leaves it told after the last sample or reset
if and only if there are enough samples. A sample is missed where it fails after the flag
was taken back, for want of a camera or in the renderer. The last part says that a run of
ticks is no more than its ticks. -/
theorem converged_again_only_after_change (settings : Settings) (unseeded : ChaCha)
    (jobs : List (Job P F)) :
    let p := (start settings unseeded).through jobs
    let past := (start settings unseeded : Pipeline P F).chronicle jobs
    p.events.filterMap Event.converged? = past.filterMap Moment.told? ∧
      p.view.samples = sampleCount past ∧
      (∀ before between after n m,
        past = before ++ .converged n :: (between ++ .converged m :: after) →
        .sampled ∈ between ∨ .reset ∈ between ∨ .missed ∈ between) ∧
      (∀ r report q, p.tick r = (.ok report, q) → q.installed.isSome → q.films.main.isSome →
        ((∃ n, .converged n ∈ recent (past ++ p.tickMoments r)) ↔ q.budget ≤ q.view.samples)) ∧
      ∀ r ticks, ∃ count ≤ ticks,
        (p.runUntilConverged r ticks).2 = p.through (.replicate count ⟨r, .tick⟩) ∧
        runMoments r ticks p = p.chronicle (.replicate count ⟨r, .tick⟩) := by
  intro p past
  have hChronicled := chronicled_through (P := P) (F := F) settings unseeded jobs
  exact ⟨hChronicled.told, hChronicled.samples, fun _ _ _ _ _ => hChronicled.between,
    fun _ _ _ hDone => hChronicled.tick_due hDone, fun r ticks => runUntilConverged_ticks r ticks p⟩

end Told

/-! ### A sample that is missed -/

/-- A film without samples, and a scene without a camera. -/
structure Unseen (p : Pipeline Tracer Film) : Prop where
  scene : ∃ i, p.installed = some i ∧ i.scene.entities.camera = none
  film : ∃ film, p.films.main = some film
  extent : p.resolution = p.view.extent
  restarted : p.restartPending = false
  samples : p.view.samples = 0

section Unseen

variable {p : Pipeline Tracer Film} {r : Renderer Tracer Film}

/-- A budget does not bring a camera. -/
theorem Unseen.setBudget (h : Unseen p) (samples : Nat) : Unseen (p.setBudget samples) :=
  ⟨h.scene, h.film, h.extent, h.restarted, h.samples⟩

/-- Without samples to ask for, a tick tells of convergence at once. -/
theorem Unseen.tick_told (h : Unseen p) (hBudget : p.budget = 0)
    (hSilent : p.view.converged = false) : p.tickMoments r = [.converged 0] := by
  obtain ⟨⟨i, hInstalled, -⟩, ⟨film, hFilm⟩, hExtent, hRestarted, hSamples⟩ := h
  simp [tickMoments, consumeRestart, preparation, prepareMain, rendering, announcement,
    hInstalled, hFilm, hExtent, hRestarted, hSamples, hBudget, hSilent]

/-- With one sample to ask for, a tick takes the flag back, fails for want of a camera and
tells nothing. -/
theorem Unseen.tick_missed (h : Unseen p) (hBudget : p.budget = 1) :
    p.tickMoments r = [.missed] ∧ Unseen (p.tick r).2 ∧
      (p.tick r).2.view.converged = false := by
  obtain ⟨⟨i, hInstalled, hCamera⟩, ⟨film, hFilm⟩, hExtent, hRestarted, hSamples⟩ := h
  have hFrame (settings : Settings) (extent : Extent) (rng : ChaCha) :
      Frame.main i.scene settings extent 0 rng = .error (.compile ⟨.missingCamera, 0⟩) := by
    simp only [Frame.main, hCamera]
  have hSample (q : Pipeline Tracer Film) (hSamples : q.view.samples = 0) : q.sampleMain r i film =
      (.error (.compile ⟨.missingCamera, 0⟩), { q with
        view := { q.view with converged := false } }) := by
    simp only [sampleMain, hSamples, hFrame]
  have hTick : (p.tick r).2 = { p.consumeRestart.2 with
      view := { p.view with converged := false } } := by
    simp [tick, consumeRestart, prepareMain, renderMain, hSample, hInstalled, hFilm, hExtent,
      hRestarted, hSamples, hBudget]
  refine ⟨?_, ?_, ?_⟩
  · simp [tickMoments, consumeRestart, preparation, prepareMain, rendering, hSample, hInstalled,
      hFilm, hExtent, hRestarted, hSamples, hBudget]
  · rw [hTick]
    exact ⟨⟨i, hInstalled, hCamera⟩, ⟨film, hFilm⟩, hExtent, rfl, hSamples⟩
  · rw [hTick]

/-- A tick without a camera leads to such a state again, be convergence told or not. -/
theorem Unseen.exists_ticked {told : Prop} (h : Unseen (p.tick r).2)
    (hDone : ∃ report, (p.tick r).1 = .ok report)
    (hTold : ∀ report q, p.tick r = (.ok report, q) → q.installed.isSome → q.films.main.isSome →
      (told ↔ q.budget ≤ q.view.samples)) :
    ∃ report q, p.tick r = (.ok report, q) ∧ q.installed.isSome ∧ q.films.main.isSome ∧
      (told ↔ q.budget ≤ q.view.samples) := by
  obtain ⟨report, hDone⟩ := hDone
  obtain ⟨⟨i, hInstalled, -⟩, ⟨film, hFilm⟩, -⟩ := h
  have hTick : p.tick r = (.ok report, (p.tick r).2) := by
    rw [← hDone]
  have hScene := Option.isSome_of_eq_some hInstalled
  have hMain := Option.isSome_of_eq_some hFilm
  exact ⟨report, _, hTick, hScene, hMain, hTold report _ hTick hScene hMain⟩

theorem chronicle_setBudget_tick (p : Pipeline Tracer Film) (samples : Nat)
    (rest : List (Job Tracer Film)) :
    p.chronicle (⟨r, .setBudget samples⟩ :: ⟨r, .tick⟩ :: rest) =
      (p.setBudget samples).tickMoments r ++ ((p.setBudget samples).tick r).2.chronicle rest :=
  rfl

/-- Asking for no samples and ticking is one announcement. -/
theorem Unseen.chronicle_told (h : Unseen p) (hSilent : p.view.converged = false) :
    p.chronicle [⟨r, .setBudget 0⟩, ⟨r, .tick⟩] = [.converged 0] := by
  rw [chronicle_setBudget_tick, (h.setBudget 0).tick_told rfl hSilent]
  rfl

/-- A sample that is missed makes the view tell again. -/
theorem Unseen.chronicle_missed (h : Unseen p) :
    p.chronicle [⟨r, .setBudget 1⟩, ⟨r, .tick⟩, ⟨r, .setBudget 0⟩, ⟨r, .tick⟩] =
      [.missed, .converged 0] := by
  obtain ⟨hMissed, hStill, hSilent⟩ := (h.setBudget 1).tick_missed (r := r) rfl
  rw [chronicle_setBudget_tick, hMissed, hStill.chronicle_told hSilent]
  rfl

end Unseen

/-- Installing a scene puts it in use and asks for a restart. The cache, the requests and
the budget may change with it, and nothing else. -/
theorem exists_install (p : Pipeline Tracer Film) (limit : Nat) (scene : Scene) :
    ∃ program cache requests budget, (p.installResult (.tracing limit) (.ok scene)).2 =
      { p with
        installed := some ⟨scene, program⟩
        cache := cache
        requests := requests
        restartPending := true
        budget := budget } := by
  rw [installResult, install]
  split <;> exact ⟨_, _, _, _, rfl⟩

/-- A scene with a camera, and the same scene after an edit that takes it away. -/
theorem exists_unseen (limit : Nat) (p : Pipeline Tracer Film) :
    let r := Renderer.tracing limit
    let filmed : SceneGraph := ⟨[.new .render .empty 1 [.new (.camera .perspective) .empty 2 []]]⟩
    let blind : SceneGraph := ⟨[.new .render .empty 1 []]⟩
    ∃ i cache requests budget, i.scene.entities.camera = none ∧
      p.through [⟨r, .setGraph filmed⟩, ⟨r, .setTime blind 0.0⟩] =
      { p with
        installed := some i
        cache := cache
        requests := requests
        restartPending := true
        budget := budget } := by
  intro r filmed blind
  obtain ⟨s, next, hCompile, hRefresh, hCamera⟩ := Scene.exists_refresh_without_camera
  obtain ⟨program, cache, requests, budget, hFirst⟩ := exists_install p limit s
  have hSet : (Job.perform ⟨r, .setGraph filmed⟩ p).2 = (p.installResult r (.ok s)).2 := by
    change (p.installResult r (filmed.compileAt 0.0)).2 = _
    rw [hCompile]
  have hEdit (q : Pipeline Tracer Film) (hInstalled : q.installed = some ⟨s, program⟩) :
      (Job.perform ⟨r, .setTime blind 0.0⟩ q).2 = (q.installResult r (.ok next)).2 := by
    have hResult : (Command.setTime blind 0.0).result? q = some (.ok next) := by
      simp only [Command.result?, hInstalled]
      rw [hRefresh]
    exact perform_of_result hResult
  obtain ⟨program', cache', requests', budget', hSecond⟩ :=
    exists_install (p.installResult r (.ok s)).2 limit next
  refine ⟨⟨next, program'⟩, cache', requests', budget', hCamera, ?_⟩
  change (Job.perform ⟨r, .setTime blind 0.0⟩ (Job.perform ⟨r, .setGraph filmed⟩ p).2).2 = _
  rw [hSet, hEdit _ (by rw [hFirst]), hSecond, hFirst]

theorem through_resize {r : Renderer Tracer Film} (p : Pipeline Tracer Film) (extent : Extent) :
    p.through [⟨r, .resize extent⟩] = p.resize extent :=
  rfl

theorem through_setBudget {r : Renderer Tracer Film} (p : Pipeline Tracer Film) (samples : Nat) :
    p.through [⟨r, .setBudget samples⟩] = p.setBudget samples :=
  rfl

theorem chronicle_resize {r : Renderer Tracer Film} (p : Pipeline Tracer Film) (extent : Extent) :
    p.chronicle [⟨r, .resize extent⟩] = [] :=
  rfl

theorem chronicle_edits {r : Renderer Tracer Film} (p : Pipeline Tracer Film) (g next : SceneGraph)
    (time : Float32) : p.chronicle [⟨r, .setGraph g⟩, ⟨r, .setTime next time⟩] = [] :=
  rfl

/-- The first tick makes a film, and no sample is due. The budget is zero here, so that the
scene without a camera does no harm yet. -/
theorem first_tick {p : Pipeline Tracer Film} {i : Installed Tracer}
    {cache : List (UInt64 × Tracer)} {requests : List (Request Tracer)} {budget : Nat}
    (hStart : p = { (start .default : Pipeline Tracer Film).resize ⟨1, 1⟩ with
      installed := some i
      cache := cache
      requests := requests
      restartPending := true
      budget := budget }) (hCamera : i.scene.entities.camera = none) :
    (p.setBudget 0).tickMoments (.tracing 4) = [.reset, .converged 0] ∧
      (∃ report, ((p.setBudget 0).tick (.tracing 4)).1 = .ok report) ∧
      Unseen ((p.setBudget 0).tick (.tracing 4)).2 := by
  subst hStart
  exact ⟨rfl, ⟨_, rfl⟩, ⟨i, rfl, hCamera⟩, ⟨_, rfl⟩, rfl, rfl, rfl⟩

/-- A budget that goes up and down again while the scene has no camera. No sample is
added and nothing is reset, and convergence is told twice. -/
theorem converged_twice_without_camera :
    let filmed : SceneGraph := ⟨[.new .render .empty 1 [.new (.camera .perspective) .empty 2 []]]⟩
    let blind : SceneGraph := ⟨[.new .render .empty 1 []]⟩
    let jobs : List (Job Tracer Film) := [.resize ⟨1, 1⟩, .setGraph filmed, .setTime blind 0.0,
      .setBudget 0, .tick, .setBudget 1, .tick, .setBudget 0, .tick].map (⟨.tracing 4, ·⟩)
    (start .default : Pipeline Tracer Film).chronicle jobs =
        [.reset, .converged 0, .missed, .converged 0] ∧
      ((start .default : Pipeline Tracer Film).through jobs).events.filterMap Event.converged? =
        [0, 0] := by
  intro filmed blind jobs
  have hTold := (chronicled_through (P := Tracer) (F := Film) .default (.ofSeed 0) jobs).told
  suffices hChronicle : (start .default : Pipeline Tracer Film).chronicle jobs =
      [.reset, .converged 0, .missed, .converged 0] from
    ⟨hChronicle, by rw [hTold, hChronicle]; rfl⟩
  obtain ⟨i, cache, requests, budget, hCamera, hReady⟩ :=
    exists_unseen 4 ((start .default : Pipeline Tracer Film).resize ⟨1, 1⟩)
  have hJobs : jobs = [⟨.tracing 4, .resize ⟨1, 1⟩⟩] ++
      ([⟨.tracing 4, .setGraph filmed⟩, ⟨.tracing 4, .setTime blind 0.0⟩] ++
        [⟨.tracing 4, .setBudget 0⟩, ⟨.tracing 4, .tick⟩, ⟨.tracing 4, .setBudget 1⟩,
          ⟨.tracing 4, .tick⟩, ⟨.tracing 4, .setBudget 0⟩, ⟨.tracing 4, .tick⟩]) := rfl
  rw [hJobs, chronicle_append, chronicle_append, through_resize, chronicle_resize, chronicle_edits,
    List.nil_append, List.nil_append]
  obtain ⟨hFirst, -, hUnseen⟩ := first_tick hReady hCamera
  rw [chronicle_setBudget_tick, hFirst, hUnseen.chronicle_missed]
  rfl

/-- The first tick of this run tells it, as there are enough samples. -/
theorem converged_again_only_after_change_at_once :
    let filmed : SceneGraph := ⟨[.new .render .empty 1 [.new (.camera .perspective) .empty 2 []]]⟩
    let blind : SceneGraph := ⟨[.new .render .empty 1 []]⟩
    let jobs : List (Job Tracer Film) :=
      [.resize ⟨1, 1⟩, .setGraph filmed, .setTime blind 0.0, .setBudget 0].map (⟨.tracing 4, ·⟩)
    let p := (start .default).through jobs
    ∃ report q, p.tick (.tracing 4) = (.ok report, q) ∧ q.installed.isSome ∧
      q.films.main.isSome ∧ ((∃ n, .converged n ∈
        recent ((start .default).chronicle jobs ++ p.tickMoments (.tracing 4))) ↔
        q.budget ≤ q.view.samples) := by
  intro filmed blind jobs p
  obtain ⟨i, cache, requests, budget, hCamera, hReady⟩ :=
    exists_unseen 4 ((start .default : Pipeline Tracer Film).resize ⟨1, 1⟩)
  obtain ⟨-, ⟨report, hDone⟩, hUnseen⟩ := first_tick hReady hCamera
  have hJobs : jobs = [⟨.tracing 4, .resize ⟨1, 1⟩⟩] ++ ([⟨.tracing 4, .setGraph filmed⟩,
      ⟨.tracing 4, .setTime blind 0.0⟩] ++ [⟨.tracing 4, .setBudget 0⟩]) := rfl
  have hHere : p = (((start .default : Pipeline Tracer Film).resize ⟨1, 1⟩).through
      [⟨.tracing 4, .setGraph filmed⟩, ⟨.tracing 4, .setTime blind 0.0⟩]).setBudget 0 := by
    rw [show p = (start .default).through jobs from rfl, hJobs, through_append, through_append,
      through_setBudget, through_resize]
  rw [← hHere] at hDone hUnseen
  exact hUnseen.exists_ticked ⟨report, hDone⟩
    ((converged_again_only_after_change .default (.ofSeed 0) jobs).2.2.2.1 (.tracing 4))

end PathTracer.Pipeline
