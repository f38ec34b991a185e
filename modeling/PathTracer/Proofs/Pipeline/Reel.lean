import PathTracer.Proofs.Pipeline.Exposure

/-! The films of a renderer as its requests tell of them. The pipeline keeps
extents and numbers of samples of its own. They stay in step with the films,
whatever memory there is. -/
namespace PathTracer

/-- Which films there is memory for. -/
abbrev Room : Type := Target → Extent → Bool

/-- The renderer that runs the passes while there is room for some films of at
most `limit` pixels. -/
def Renderer.tracingIn (limit : Nat) (room : Room) : Renderer Tracer Film :=
  { tracing limit with
    allocate := fun target extent =>
      if room target extent then Film.allocate limit target extent
      else .error (.exhausted target.name extent.width extent.height) }

namespace Film

/-- A film that was allocated is blank, whatever memory there was. -/
theorem eq_cleared_of_tracingIn {limit : Nat} {room : Room} {target : Target} {extent : Extent}
    {film : Film} (h : (Renderer.tracingIn limit room).allocate target extent = .ok film) :
    film = cleared target extent := by
  change (if room target extent then allocate limit target extent else _) = _ at h
  split at h
  · exact eq_cleared_of_allocate h
  · cases h

/-- There is no other reason for which a film cannot be had. -/
theorem isResource_of_allocate {limit : Nat} {room : Room} {target : Target} {extent : Extent}
    {e : Failure} (h : (Renderer.tracingIn limit room).allocate target extent = .error e) :
    e.isResource = true := by
  change (if room target extent then allocate limit target extent else _) = _ at h
  split at h
  · unfold allocate at h
    split at h <;> cases h
    rfl
  · cases h
    rfl

/-- Clearing undoes all samples. -/
theorem clear_of_expose {target : Target} {extent : Extent} {film : Film}
    {shots : List (Shot Tracer)} (h : (cleared target extent).expose shots = .ok film) :
    film.clear = cleared target extent :=
  clear_of_sameShape (expose_sameShape h)

end Film

/-- What the requests about a target come to. -/
structure Reel (P : Type) where
  /-- The extent for which a film was last asked. -/
  asked : Option Extent
  /-- The extent of the film, if there was memory for it. -/
  granted : Option Extent
  /-- The samples since the film was allocated or cleared. -/
  shots : List (Shot P)

namespace Reel

/-- The reel of a target that was never asked for. -/
def blank {P : Type} : Reel P := ⟨none, none, []⟩

/-- Follow one request. -/
def follow {P F : Type} (r : Renderer P F) (target : Target) (reel : Reel P) : Request P → Reel P
  | .allocate t extent =>
    if t = target then ⟨some extent, (r.allocate t extent).toOption.map r.extent, []⟩ else reel
  | .clear t => if t = target then { reel with shots := [] } else reel
  | .sample t installed frame =>
    if t = target then { reel with shots := reel.shots ++ [⟨installed, frame⟩] } else reel
  | _ => reel

/-- The film of the target is the average of the samples on the reel. -/
structure Holds (reel : Reel Tracer) (target : Target) (film : Film) : Prop where
  granted : reel.granted = some film.extent
  exposed : (Film.cleared target film.extent).expose reel.shots = .ok film

variable {limit : Nat} {room : Room} {reel : Reel Tracer} {target : Target} {film : Film}

/-- After an allocation the reel holds the new film, and no samples. -/
theorem holds_allocate {extent : Extent}
    (h : (Renderer.tracingIn limit room).allocate target extent = .ok film) :
    (reel.follow (.tracingIn limit room) target (.allocate target extent)).Holds target film := by
  obtain rfl := Film.eq_cleared_of_tracingIn h
  refine ⟨?_, ?_⟩
  · rw [follow, if_pos rfl, h]
    rfl
  · rw [follow, if_pos rfl]
    rfl

/-- A film and its reel are cleared together. -/
theorem Holds.clear (h : reel.Holds target film) (r : Renderer Tracer Film) :
    (reel.follow r target (.clear target)).Holds target film.clear := by
  have hExtent : film.clear.extent = film.extent := rfl
  refine ⟨?_, ?_⟩
  · rw [follow, if_pos rfl]
    exact h.granted
  · rw [follow, if_pos rfl, hExtent, Film.clear_of_expose h.exposed]
    rfl

/-- A sample is added to the film and to the reel together. -/
theorem Holds.sample (h : reel.Holds target film) (r : Renderer Tracer Film)
    {installed : Installed Tracer} {frame : Frame} {sampled : Film}
    (hSample : film.render installed.program frame = .ok sampled) :
    (reel.follow r target (.sample target installed frame)).Holds target sampled := by
  have hExtent := (Film.render_sameShape hSample).extent
  refine ⟨?_, ?_⟩
  · rw [follow, if_pos rfl, hExtent]
    exact h.granted
  · rw [follow, if_pos rfl, hExtent, Film.expose_append_singleton, h.exposed]
    exact hSample

end Reel

/-- Every sample is made for the film that there is, and it has the index of the
next sample on it. -/
def SamplesInStep {P F : Type} (r : Renderer P F) (start : Target → Reel P)
    (requests : List (Request P)) : Prop :=
  ∀ before target installed frame later,
    requests = before ++ .sample target installed frame :: later →
      let reel := before.foldl (Reel.follow r target) (start target)
      reel.granted = some frame.extent ∧ frame.sampleIndex = reel.shots.length

/-- A sample that has the index its reel asks for keeps the samples in step. -/
theorem SamplesInStep.append_singleton {P F : Type} {r : Renderer P F} {start : Target → Reel P}
    {requests : List (Request P)} {request : Request P} (h : SamplesInStep r start requests)
    (hLast : ∀ target installed frame, request = .sample target installed frame →
      let reel := requests.foldl (Reel.follow r target) (start target)
      reel.granted = some frame.extent ∧ frame.sampleIndex = reel.shots.length) :
    SamplesInStep r start (requests ++ [request]) := by
  intro before target installed frame later hSplit
  rcases List.eq_nil_or_concat later with rfl | ⟨earlier, last, rfl⟩
  · obtain ⟨rfl, hSame⟩ := List.append_inj' hSplit rfl
    exact hLast target installed frame (List.singleton_inj.mp hSame)
  · rw [List.concat_eq_append, ← List.cons_append, ← List.append_assoc] at hSplit
    exact h before target installed frame earlier (List.append_inj' hSplit rfl).1

def Request.isSample {P : Type} : Request P → Bool
  | sample .. => true
  | _ => false

/-- Requests that are no samples keep the samples in step. -/
theorem SamplesInStep.append_other {P F : Type} {r : Renderer P F} {start : Target → Reel P}
    {requests : List (Request P)} {request : Request P} (h : SamplesInStep r start requests)
    (hOther : request.isSample = false) : SamplesInStep r start (requests ++ [request]) := by
  refine h.append_singleton fun target installed frame hSame => ?_
  rw [hSame] at hOther
  cases hOther

namespace Pipeline

/-- The reel of a target after the requests of a pipeline. -/
def reel {P F : Type} (p : Pipeline P F) (r : Renderer P F) (start : Target → Reel P)
    (target : Target) : Reel P :=
  p.requests.foldl (Reel.follow r target) (start target)

/-- A request that is noted is followed by the reel. -/
theorem reel_note {P F : Type} (p : Pipeline P F) (r : Renderer P F) (start : Target → Reel P)
    (target : Target) (request : Request P) :
    (p.note request).reel r start target = (p.reel r start target).follow r target request := by
  unfold reel note
  rw [List.foldl_append]
  rfl

/-- Nothing about the main view has changed. -/
structure SameMain {P F : Type} (r : Renderer P F) (start : Target → Reel P) (p q : Pipeline P F) :
    Prop where
  resolution : q.resolution = p.resolution
  installed : q.installed = p.installed
  film : q.films.main = p.films.main
  view : q.view = p.view
  reel : q.reel r start .main = p.reel r start .main

/-- Looking for a thumbnail leaves the main view and its reel. -/
theorem PrimeStep.sameMain {P F : Type} {r : Renderer P F} {p q : Pipeline P F}
    (h : PrimeStep r p q) (start : Target → Reel P) : SameMain r start p q := by
  have hReel := fun request => p.reel_note r start .main request
  cases h with
  | drop => exact ⟨rfl, rfl, rfl, rfl, rfl⟩
  | allocateIcon | refuseIcon | allocateIconFails =>
      exact ⟨rfl, rfl, rfl, rfl, hReel (.allocate .icon p.iconExtent)⟩
  | activate | clearIconFails => exact ⟨rfl, rfl, rfl, rfl, hReel (.clear .icon)⟩

/-- A sample of a thumbnail leaves the main view and its reel. -/
theorem ShotStep.sameMain {P F : Type} {r : Renderer P F} {p q : Pipeline P F}
    (h : ShotStep r p q) (start : Target → Reel P) : SameMain r start p q := by
  cases h with
  | @sampleIcon i a film sampled frame =>
      exact ⟨rfl, rfl, rfl, rfl, p.reel_note r start .main (.sample .icon i frame)⟩
  | @sampleIconFails i a film frame =>
      exact ⟨rfl, rfl, rfl, rfl, p.reel_note r start .main (.sample .icon i frame)⟩

/-- Handing out a picture leaves the main view and its reel. -/
theorem FinishStep.sameMain {P F : Type} {r : Renderer P F} {p q : Pipeline P F}
    (h : FinishStep r p q) (start : Target → Reel P) : SameMain r start p q := by
  cases h <;> exact ⟨rfl, rfl, rfl, rfl, p.reel_note r start .main (.read .icon)⟩

/-- The main view counts the samples of its film, and its extent is that of the
film. If there is none, it is empty or was last asked for in vain. -/
structure MainInStep (r : Renderer Tracer Film) (start : Target → Reel Tracer)
    (p : Pipeline Tracer Film) : Prop where
  film : ∀ film, p.films.main = some film →
    (p.reel r start .main).Holds .main film ∧ film.extent = p.view.extent ∧
      p.view.samples = (p.reel r start .main).shots.length
  vacant : p.films.main = none → p.view.extent.isEmpty = true ∨
    ((p.reel r start .main).asked = some p.view.extent ∧ (p.reel r start .main).granted = none)

/-- The active thumbnail counts the samples of the film of thumbnails. -/
structure IconInStep (r : Renderer Tracer Film) (start : Target → Reel Tracer)
    (p : Pipeline Tracer Film) : Prop where
  film : ∀ film, p.films.icon = some film →
    (p.reel r start .icon).Holds .icon film ∧ film.extent = p.icon.extent
  active : ∀ a, p.active = some a → a.samples = (p.reel r start .icon).shots.length

/-- All that is counted is in step with the films. -/
structure InStep (r : Renderer Tracer Film) (start : Target → Reel Tracer)
    (p : Pipeline Tracer Film) : Prop where
  main : MainInStep r start p
  icon : IconInStep r start p
  samples : SamplesInStep r start p.requests

section Reels

variable {r : Renderer Tracer Film} {start : Target → Reel Tracer} {p q : Pipeline Tracer Film}

/-- Whether the main view is in step depends only on its film, its extent, its count and its
reel. -/
theorem MainInStep.congr (h : MainInStep r start p) (hFilm : q.films.main = p.films.main)
    (hExtent : q.view.extent = p.view.extent) (hSamples : q.view.samples = p.view.samples)
    (hReel : q.reel r start .main = p.reel r start .main) : MainInStep r start q := by
  refine ⟨fun film hFilm' => ?_, fun hNone => ?_⟩
  · rw [hReel, hExtent, hSamples]
    exact h.film film (hFilm ▸ hFilm')
  · rw [hReel, hExtent]
    exact h.vacant (hFilm ▸ hNone)

/-- What leaves the main view leaves it in step. -/
theorem SameMain.mainInStep (h : SameMain r start p q) (hStep : MainInStep r start p) :
    MainInStep r start q :=
  hStep.congr h.film (congrArg MainView.extent h.view) (congrArg MainView.samples h.view) h.reel

/-- The main view is in step where its reel holds its film and its count is that of the
reel. -/
theorem mainInStep_of_holds {film : Film} (hFilm : q.films.main = some film)
    (hHolds : (q.reel r start .main).Holds .main film) (hExtent : film.extent = q.view.extent)
    (hSamples : q.view.samples = (q.reel r start .main).shots.length) : MainInStep r start q := by
  refine ⟨fun other hOther => ?_, fun hNone => ?_⟩
  · cases hFilm.symm.trans hOther
    exact ⟨hHolds, hExtent, hSamples⟩
  · cases hFilm.symm.trans hNone

/-- Whether thumbnails are in step depends only on their film, their extent, the active one
and their reel. -/
theorem IconInStep.congr (h : IconInStep r start p) (hFilm : q.films.icon = p.films.icon)
    (hExtent : q.icon.extent = p.icon.extent) (hActive : q.active = p.active)
    (hReel : q.reel r start .icon = p.reel r start .icon) : IconInStep r start q := by
  refine ⟨fun film hFilm' => ?_, fun a hActive' => ?_⟩
  · rw [hReel, hExtent]
    exact h.film film (hFilm ▸ hFilm')
  · rw [hReel]
    exact h.active a (hActive ▸ hActive')

/-- Without an active thumbnail there is nothing to count. -/
theorem iconInStep_of_idle (hActive : q.active = none)
    (hFilm : ∀ film, q.films.icon = some film →
      (q.reel r start .icon).Holds .icon film ∧ film.extent = q.icon.extent) :
    IconInStep r start q := by
  refine ⟨hFilm, fun a hSome => ?_⟩
  cases hActive.symm.trans hSome

/-- The reel of thumbnails follows the requests for thumbnails alone. -/
theorem reel_icon (p : Pipeline Tracer Film) : p.reel r start .icon =
    p.iconRequests.foldl (Reel.follow r .icon) (start .icon) := by
  unfold reel iconRequests
  rw [List.foldl_filter]
  refine congrArg (fun f => p.requests.foldl f _) (funext fun reel => funext fun request => ?_)
  cases request with
  | build => rfl
  | allocate target _ | clear target | sample target _ _ | read target => cases target <;> rfl

/-- What leaves the thumbnails leaves them in step. -/
theorem SameIcons.iconInStep (h : SameIcons p q) (hStep : IconInStep r start p) :
    IconInStep r start q := by
  refine hStep.congr h.film h.extent h.active ?_
  rw [reel_icon, reel_icon, h.requests]

end Reels

/-! ### Single changes -/

variable {limit : Nat} {room : Room} {start : Target → Reel Tracer} {p q : Pipeline Tracer Film}

/-- A film is never refused a frame of its own extent. -/
theorem exists_render {film : Film} {frame : Frame} (h : frame.extent = film.extent)
    (tracer : Tracer) : ∃ sampled, film.render tracer frame = .ok sampled :=
  ⟨_, if_pos h⟩

/-- Lights do not change the extent of a frame. -/
theorem extent_foldl_addLight (lights : List Light) (frame : Frame) :
    (lights.foldl Frame.addLight frame).extent = frame.extent := by
  induction lights generalizing frame with
  | nil => rfl
  | cons light rest ih => exact ih (frame.addLight light)

/-- A frame of the main view has the extent it is made for. -/
theorem extent_of_frame_main {scene : Scene} {settings : Settings} {extent : Extent} {index : Nat}
    {rng next : ChaCha} {frame : Frame}
    (h : Frame.main scene settings extent index rng = .ok (frame, next)) :
    frame.extent = extent ∧ frame.sampleIndex = index := by
  unfold Frame.main at h
  split at h
  · cases h
  · have hFrame := Except.ok.inj h
    refine ⟨?_, (congrArg (fun f => f.1.sampleIndex) hFrame).symm⟩
    exact (congrArg (fun f => f.1.extent) hFrame).symm.trans (extent_foldl_addLight _ _)

/-- A frame of a thumbnail has the extent it is made for. -/
theorem extent_of_frame_icon {scene : Scene} {preview : Int} {settings : Settings}
    {extent : Extent} {index : Nat} {rng next : ChaCha} {frame : Frame}
    (h : Frame.icon scene preview settings extent index rng = (frame, next)) :
    frame.extent = extent ∧ frame.sampleIndex = index :=
  ⟨(congrArg (fun f => f.1.extent) h).symm, (congrArg (fun f => f.1.sampleIndex) h).symm⟩

/-- Every step of the main view keeps it in step. -/
theorem MainStep.mainInStep (h : MainStep (.tracingIn limit room) p q)
    (hStep : MainInStep (.tracingIn limit room) start p) :
    MainInStep (.tracingIn limit room) start q := by
  cases h with
  | consumeRestart => exact hStep.congr rfl rfl rfl rfl
  | vacate hEmpty => exact ⟨nofun, fun _ => .inl hEmpty⟩
  | @allocateMain film hEmpty hFilm =>
      have hReel := p.reel_note (.tracingIn limit room) start .main (.allocate .main p.resolution)
      refine mainInStep_of_holds rfl (hReel ▸ Reel.holds_allocate hFilm) ?_ ?_
      · rw [Film.eq_cleared_of_tracingIn hFilm]
        rfl
      · exact (congrArg (fun reel => reel.shots.length) hReel).symm
  | @refuseMain e hEmpty hFault hResource =>
      have hReel := p.reel_note (.tracingIn limit room) start .main (.allocate .main p.resolution)
      refine ⟨nofun, fun _ => .inr ⟨?_, ?_⟩⟩
      · exact congrArg Reel.asked hReel
      · refine (congrArg Reel.granted hReel).trans ?_
        rw [Reel.follow, if_pos rfl, hFault]
        rfl
  | allocateMainFails hEmpty hFault hResource =>
      rw [Film.isResource_of_allocate hFault] at hResource
      cases hResource
  | forgetSamples hFilm =>
      refine ⟨fun film h => ?_, hStep.vacant⟩
      cases hFilm.symm.trans h
  | @clearMain film cleared hFilm hClear =>
      cases hClear
      obtain ⟨hHolds, hExtent, _⟩ := hStep.film film hFilm
      have hReel := p.reel_note (.tracingIn limit room) start .main (.clear .main)
      refine mainInStep_of_holds rfl (hReel ▸ hHolds.clear _) hExtent ?_
      exact (congrArg (fun reel => reel.shots.length) hReel).symm
  | clearMainFails hFilm hClear => cases hClear
  | @sampleMain i film sampled frame rng hInstalled hFilm hBudget hFrame hSample =>
      obtain ⟨hHolds, hExtent, hSamples⟩ := hStep.film film hFilm
      have hReel := p.reel_note (.tracingIn limit room) start .main (.sample .main i frame)
      refine mainInStep_of_holds rfl (hReel ▸ hHolds.sample _ hSample) ?_ ?_
      · rw [(Film.render_sameShape hSample).extent]
        exact hExtent
      · refine Eq.trans ?_ (congrArg (fun reel => reel.shots.length) hReel).symm
        simp [Reel.follow, hSamples]
  | frameFails => exact hStep.congr rfl rfl rfl rfl
  | @sampleMainFails i film frame rng e hInstalled hFilm hBudget hFrame hSample =>
      obtain ⟨_, hExtent, _⟩ := hStep.film film hFilm
      obtain ⟨sampled, hRender⟩ :=
        exists_render ((extent_of_frame_main hFrame).1.trans hExtent.symm) i.program
      cases hRender.symm.trans hSample
  | announce =>
      unfold Pipeline.announce
      split
      · exact hStep.congr rfl rfl rfl rfl
      · exact hStep

/-- What a step of the main view samples has the index of the next sample. -/
theorem MainStep.samplesInStep (h : MainStep (.tracingIn limit room) p q)
    (hStep : InStep (.tracingIn limit room) start p) :
    SamplesInStep (.tracingIn limit room) start q.requests := by
  have hSamples := hStep.samples
  cases h with
  | consumeRestart | vacate | forgetSamples | frameFails => exact hSamples
  | allocateMain | refuseMain | allocateMainFails | clearMain | clearMainFails =>
      exact hSamples.append_other rfl
  | @sampleMain i film sampled frame rng hInstalled hFilm hBudget hFrame hSample =>
      obtain ⟨hHolds, hExtent, hCount⟩ := hStep.main.film film hFilm
      obtain ⟨hFrameExtent, hIndex⟩ := extent_of_frame_main hFrame
      refine hSamples.append_singleton fun target installed other hSame => ?_
      cases hSame
      exact ⟨hHolds.granted.trans (by rw [hExtent, hFrameExtent]), hIndex.trans hCount⟩
  | @sampleMainFails i film frame rng e hInstalled hFilm hBudget hFrame hSample =>
      obtain ⟨_, hExtent, _⟩ := hStep.main.film film hFilm
      obtain ⟨sampled, hRender⟩ :=
        exists_render ((extent_of_frame_main hFrame).1.trans hExtent.symm) i.program
      cases hRender.symm.trans hSample
  | announce =>
      unfold Pipeline.announce
      split <;> exact hSamples

/-- Every step of the main view keeps all views in step. -/
theorem MainStep.inStep (h : MainStep (.tracingIn limit room) p q)
    (hStep : InStep (.tracingIn limit room) start p) : InStep (.tracingIn limit room) start q :=
  ⟨h.mainInStep hStep.main, h.sameIcons.iconInStep hStep.icon, h.samplesInStep hStep⟩

/-- Looking for a thumbnail keeps all views in step. -/
theorem PrimeStep.inStep (h : PrimeStep (.tracingIn limit room) p q)
    (hStep : InStep (.tracingIn limit room) start p) : InStep (.tracingIn limit room) start q := by
  have hMain := (h.sameMain start).mainInStep hStep.main
  obtain ⟨_, hIcon, hSamples⟩ := hStep
  cases h with
  | drop hReady => exact ⟨hMain, hIcon.congr rfl rfl rfl rfl, hSamples⟩
  | @allocateIcon film hActive hExtent hRefused hFilm =>
      have hReel := p.reel_note (.tracingIn limit room) start .icon (.allocate .icon p.iconExtent)
      refine ⟨hMain, iconInStep_of_idle hActive fun other hOther => ?_, hSamples.append_other rfl⟩
      cases hOther
      refine ⟨hReel ▸ Reel.holds_allocate hFilm, ?_⟩
      rw [Film.eq_cleared_of_tracingIn hFilm]
      rfl
  | refuseIcon hActive =>
      exact ⟨hMain, iconInStep_of_idle hActive nofun, hSamples.append_other rfl⟩
  | allocateIconFails hReady hExtent hRefused hFault hResource =>
      rw [Film.isResource_of_allocate hFault] at hResource
      cases hResource
  | @activate t rest i preview film cleared hReady hPreview hFilm hClear =>
      cases hClear
      have hReel := p.reel_note (.tracingIn limit room) start .icon (.clear .icon)
      obtain ⟨hHolds, hExtent⟩ := hIcon.film film hFilm
      refine ⟨hMain, ⟨fun other hOther => ?_, fun a hActive => ?_⟩, hSamples.append_other rfl⟩
      · cases hOther
        exact ⟨hReel ▸ hHolds.clear _, hExtent⟩
      · cases hActive
        exact (congrArg (fun reel => reel.shots.length) hReel).symm
  | clearIconFails hReady hFilm hClear => cases hClear

/-- A sample of a thumbnail keeps all views in step. -/
theorem ShotStep.inStep (h : ShotStep (.tracingIn limit room) p q)
    (hStep : InStep (.tracingIn limit room) start p) : InStep (.tracingIn limit room) start q := by
  have hMain := (h.sameMain start).mainInStep hStep.main
  obtain ⟨_, hIcon, hSamples⟩ := hStep
  cases h with
  | @sampleIcon i a film sampled frame rng hInstalled hActive hFilm hFrame hSample =>
      have hReel := p.reel_note (.tracingIn limit room) start .icon (.sample .icon i frame)
      obtain ⟨hHolds, hExtent⟩ := hIcon.film film hFilm
      obtain ⟨hFrameExtent, hIndex⟩ := extent_of_frame_icon hFrame
      have hCount := hIcon.active a hActive
      refine ⟨hMain, ⟨fun other hOther => ?_, fun b hNext => ?_⟩, ?_⟩
      · cases hOther
        refine ⟨hReel ▸ hHolds.sample _ hSample, ?_⟩
        rw [(Film.render_sameShape hSample).extent]
        exact hExtent
      · cases hNext
        refine Eq.trans ?_ (congrArg (fun reel => reel.shots.length) hReel).symm
        simp [Reel.follow, hCount]
      · refine hSamples.append_singleton fun target installed other hSame => ?_
        cases hSame
        exact ⟨hHolds.granted.trans (by rw [hExtent, hFrameExtent]), hIndex.trans hCount⟩
  | @sampleIconFails i a film frame rng e hInstalled hActive hFilm hFrame hSample =>
      obtain ⟨_, hExtent⟩ := hIcon.film film hFilm
      obtain ⟨sampled, hRender⟩ :=
        exists_render ((extent_of_frame_icon hFrame).1.trans hExtent.symm) i.program
      cases hRender.symm.trans hSample

/-- Handing out a picture keeps all views in step. -/
theorem FinishStep.inStep (h : FinishStep (.tracingIn limit room) p q)
    (hStep : InStep (.tracingIn limit room) start p) : InStep (.tracingIn limit room) start q := by
  have hMain := (h.sameMain start).mainInStep hStep.main
  cases h with
  | finishIcon hActive hFilm hCount hRead =>
      have hReel := p.reel_note (.tracingIn limit room) start .icon (.read .icon)
      refine ⟨hMain, iconInStep_of_idle rfl fun film hFilm => ?_, hStep.samples.append_other rfl⟩
      obtain ⟨hHolds, hExtent⟩ := hStep.icon.film film hFilm
      exact ⟨hReel ▸ hHolds, hExtent⟩
  | readIconFails hActive hFilm hRead => cases hRead

/-- Every single change keeps what is counted in step with the films. -/
theorem Step.inStep (h : Step (.tracingIn limit room) p q)
    (hStep : InStep (.tracingIn limit room) start p) : InStep (.tracingIn limit room) start q := by
  cases h with
  | main h => exact h.inStep hStep
  | prime h => exact h.inStep hStep
  | shot h => exact h.inStep hStep
  | finish h => exact h.inStep hStep

/-- Any number of steps keeps all views in step. The induction is on the steps, one lemma
for each kind above. -/
theorem Steps.inStep (h : Steps (.tracingIn limit room) p q)
    (hStep : InStep (.tracingIn limit room) start p) : InStep (.tracingIn limit room) start q :=
  preserves_of_step (fun hNext hBefore => hNext.inStep hBefore) h hStep

end Pipeline

end PathTracer
