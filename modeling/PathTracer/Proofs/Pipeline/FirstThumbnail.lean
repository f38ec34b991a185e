import PathTracer.Proofs.Pipeline.Exposure

/-! The first thumbnail of a run without a main view. A graph is set, a thumbnail is
asked for, and the first tick finds the preview, gets a film and samples it. -/
namespace PathTracer

theorem Film.exists_render_icon (film : Film) (tracer : Tracer) (scene : Scene) (preview : Int)
    (settings : Settings) (index : Nat) (rng : ChaCha) :
    ∃ sampled, film.render tracer
      (Frame.icon scene preview settings film.extent index rng).1 = .ok sampled :=
  ⟨_, if_pos rfl⟩

namespace Pipeline

/-! ### Single steps -/

section steps

variable {P F : Type} {r : Renderer P F} {p : Pipeline P F}

/-- After the main view a tick is about thumbnails. -/
theorem tick_eq_stepIcon {q m : Pipeline P F} {reallocated : Bool} {samples : Option Nat}
    (hPrepare : p.consumeRestart.2.prepareMain r p.consumeRestart.1 = (.ok reallocated, q))
    (hRender : q.renderMain r = (.ok samples, m)) : (p.tick r).2 = (m.stepIcon r).2 := by
  unfold tick
  dsimp only
  rw [hPrepare]
  dsimp only
  rw [hRender]
  dsimp only
  generalize m.stepIcon r = result
  obtain ⟨_ | _, _⟩ := result <;> rfl

variable {i : Installed P} {a : ActiveThumbnail} {film sampled : F} {frame : Frame} {rng : ChaCha}

/-- What a sample of a thumbnail leaves, and what follows depends on how many it has. -/
theorem sampleIcon_of_ok
    (hFrame : Frame.icon i.scene a.preview p.settings p.icon.extent a.samples p.rng = (frame, rng))
    (hSample : r.sample i.program frame film = .ok sampled) :
    let b := { a with samples := a.samples + 1 }
    let q := { note { p with rng := rng } (.sample .icon i frame) with
      films := p.films.insert .icon sampled
      active := some b }
    p.sampleIcon r i a film = if max p.settings.iconSamples 1 ≤ b.samples then q.finishIcon r b sampled
      else (.ok ⟨some (b.thumbnail.id, b.samples), none⟩, q) := by
  unfold sampleIcon
  rw [hFrame]
  dsimp only
  rw [hSample]
  rfl

end steps

/-! ### Runs without a main view -/

/-- Settings for thumbnails of four pixels and few samples. -/
def fewSamples (samples : Nat) : Settings :=
  { Settings.default with iconSize := 2, iconSamples := samples }

/-- A pipeline without a main view, with a scene in use. -/
def withoutView (samples : Nat) (i : Installed Tracer) (cache : List (UInt64 × Tracer))
    (budget : Nat) (requests : List (Request Tracer)) : Pipeline Tracer Film :=
  { (start (fewSamples samples) : Pipeline Tracer Film) with
    resolution := ⟨0, 0⟩
    installed := some i
    cache := cache
    budget := budget
    restartPending := true
    requests := requests }

/-- Such a pipeline while its first thumbnail is the active one. -/
def withThumbnail (samples : Nat) (i : Installed Tracer) (cache : List (UInt64 × Tracer))
    (budget : Nat) (requests : List (Request Tracer)) (a : ActiveThumbnail) (film : Film)
    (rng : ChaCha) : Pipeline Tracer Film :=
  { withoutView samples i cache budget requests with
    restartPending := false
    nextId := 2
    films := PerTarget.empty.insert .icon film
    icon := ⟨⟨2, 2⟩, false⟩
    active := some a
    rng := rng }

/-- The requests for an empty film. -/
def filmRequests : List (Request Tracer) :=
  [.allocate .icon ⟨2, 2⟩, .clear .icon]

theorem after_setGraph_of_ok {g : SceneGraph} {s : Scene} (h : g.compile = .ok s) (samples : Nat) :
    after (.tracing 4) (start (fewSamples samples)) [.resize ⟨0, 0⟩, .setGraph g] =
      withoutView samples ⟨s, .ofScene s⟩ [(s.program.hash, .ofScene s)]
        (s.render.samples.getD (fewSamples samples).maxSamples) [.build] := by
  change (installResult _ ((start (fewSamples samples)).resize ⟨0, 0⟩) g.compile).2 = _
  rw [h]
  rfl

variable (samples : Nat) (i : Installed Tracer) (cache : List (UInt64 × Tracer)) (budget : Nat)
  (requests : List (Request Tracer)) {subject : Subject} {preview : Int}

/-- The first tick activates the thumbnail that was asked for and samples it once. It
hands the thumbnail out if that was the last sample. -/
theorem exists_tick_enqueue (hPreview : subject.preview? i.scene = some preview) :
    ∃ frame film rng, frame.preview = preview ∧
      (((withoutView samples i cache budget requests).enqueue subject).2.tick (.tracing 4)).2 =
        let a : ActiveThumbnail := ⟨⟨1, subject⟩, preview, 1⟩
        let q := withThumbnail samples i cache budget
          (requests ++ filmRequests ++ [Request.sample .icon i frame]) a film rng
        if max samples 1 ≤ 1 then (q.finishIcon (.tracing 4) a film).2 else q := by
  let waiting : Pipeline Tracer Film :=
    { ((withoutView samples i cache budget requests).enqueue subject).2 with
      restartPending := false }
  -- There is no main view, so that a tick comes to its thumbnail at once.
  have hTick : (((withoutView samples i cache budget requests).enqueue subject).2.tick
      (.tracing 4)).2 = (waiting.stepIcon (.tracing 4)).2 :=
    tick_eq_stepIcon (m := waiting) rfl rfl
  let active := withThumbnail samples i cache budget (requests ++ filmRequests)
    ⟨⟨1, subject⟩, preview, 0⟩ (.blank ⟨2, 2⟩) waiting.rng
  have hPrime : waiting.primeIfIdle (.tracing 4) = (.ok (), active) := by
    have hFilm : requests ++ filmRequests =
        requests ++ [Request.allocate .icon ⟨2, 2⟩] ++ [Request.clear .icon] := by
      rw [filmRequests, List.append_assoc, List.singleton_append]
    change primeFrom (.tracing 4) i.scene [⟨1, subject⟩] waiting = _
    rw [primeFrom, hPreview, show active = withThumbnail .. from rfl, hFilm]
    rfl
  have hStep : waiting.stepIcon (.tracing 4) =
      active.sampleIcon (.tracing 4) i ⟨⟨1, subject⟩, preview, 0⟩ (.blank ⟨2, 2⟩) := by
    rw [stepIcon, hPrime]
    rfl
  let blank := Film.blank ⟨2, 2⟩
  obtain ⟨film, hRender⟩ :=
    blank.exists_render_icon i.program i.scene preview (fewSamples samples) 0 waiting.rng
  rcases hFrame : Frame.icon i.scene preview (fewSamples samples) blank.extent 0 waiting.rng with
    ⟨frame, rng⟩
  rw [hFrame] at hRender
  have hShown : frame.preview = preview := (congrArg (fun drawn => drawn.1.preview) hFrame).symm
  refine ⟨frame, film, rng, hShown, ?_⟩
  rw [hTick, hStep, sampleIcon_of_ok (r := .tracing 4) (p := active) hFrame hRender]
  exact apply_ite Prod.snd _ _ _

end Pipeline

end PathTracer
