import PathTracer.Proofs.Pipeline.Queue

/-! The samples on the film of thumbnails. Those of a picture are the ones since
the film was last cleared, each rendered with the scene that was in use then. -/
namespace PathTracer

/-- A sample of a thumbnail and what it was rendered with. -/
structure Shot (P : Type) where
  installed : Installed P
  frame : Frame

/-- What the requests about the film of thumbnails come to. -/
structure Album (P : Type) where
  /-- The samples on the film. -/
  shots : List (Shot P)
  /-- The samples of each picture that was read from it. -/
  pictures : List (List (Shot P))

/-- Follow one request. -/
def Album.record {P : Type} (a : Album P) : Request P → Album P
  | .allocate .icon _ => { a with shots := [] }
  | .clear .icon => { a with shots := [] }
  | .sample .icon installed frame => { a with shots := a.shots ++ [⟨installed, frame⟩] }
  | .read .icon => { a with pictures := a.pictures ++ [a.shots] }
  | _ => a

/-- Requests about the main view change nothing in the album. -/
theorem Album.record_of_not_isIcon {P : Type} (a : Album P) {request : Request P}
    (h : request.isIcon = false) : a.record request = a := by
  cases request with
  | build => rfl
  | allocate target _ | clear target | sample target _ _ | read target =>
      cases target with
      | main => rfl
      | icon => cases h

/-- The picture that an event hands out, with its thumbnail. -/
def Event.picture? : Event → Option (Nat × Image)
  | iconFinished id image => some (id, image)
  | _ => none

namespace Film

/-- A film with nothing on it. -/
def cleared (target : Target) (extent : Extent) : Film :=
  ⟨target, extent, .replicate extent.pixels .blank⟩

/-- A film of thumbnails with nothing on it. -/
def blank (extent : Extent) : Film :=
  ⟨.icon, extent, .replicate extent.pixels .blank⟩

/-- The same place for as many pixels. -/
structure SameShape (f g : Film) : Prop where
  target : g.target = f.target
  extent : g.extent = f.extent
  size : g.pixels.size = f.pixels.size

/-- A film that was allocated has nothing on it. -/
theorem eq_cleared_of_allocate {limit : Nat} {target : Target} {extent : Extent} {film : Film}
    (h : allocate limit target extent = .ok film) : film = cleared target extent := by
  unfold allocate allocate? at h
  split at h
  · rename_i found hFound
    split at hFound
    · cases hFound
    · cases hFound
      cases h
      rfl
  · cases h

/-- Any film of one shape is cleared to the same film. -/
theorem clear_of_sameShape {target : Target} {extent : Extent} {film : Film}
    (h : SameShape (cleared target extent) film) : film.clear = cleared target extent := by
  unfold clear
  rw [h.size, h.target, h.extent]
  simp [cleared]

/-- A sample does not change the shape of a film. -/
theorem render_sameShape {f g : Film} {tracer : Tracer} {frame : Frame}
    (h : f.render tracer frame = .ok g) : SameShape f g := by
  unfold render at h
  split at h
  · cases h
    exact ⟨rfl, rfl, Array.size_mapIdx⟩
  · cases h

/-- A film after some samples. -/
def expose (film : Film) (shots : List (Shot Tracer)) : Except Failure Film :=
  shots.foldlM (fun film shot => film.render shot.installed.program shot.frame) film

/-- One more sample is rendered onto the film of those before it. -/
theorem expose_append_singleton (film : Film) (shots : List (Shot Tracer)) (shot : Shot Tracer) :
    film.expose (shots ++ [shot]) =
      (film.expose shots).bind fun f => f.render shot.installed.program shot.frame := by
  unfold expose
  rw [List.foldlM_append]
  refine congrArg _ (funext fun f => ?_)
  rw [List.foldlM_cons]
  exact bind_pure _

/-- A film keeps its shape over all samples. -/
theorem expose_sameShape {film last : Film} {shots : List (Shot Tracer)}
    (h : film.expose shots = .ok last) : SameShape film last := by
  induction shots generalizing film with
  | nil =>
      cases h
      exact ⟨rfl, rfl, rfl⟩
  | cons shot rest ih =>
      rw [expose, List.foldlM_cons] at h
      cases hRender : film.render shot.installed.program shot.frame with
      | error e =>
          rw [hRender] at h
          cases h
      | ok next =>
          rw [hRender] at h
          have hRest := ih h
          have hFirst := render_sameShape hRender
          exact ⟨hRest.target.trans hFirst.target, hRest.extent.trans hFirst.extent,
            hRest.size.trans hFirst.size⟩

end Film

namespace Pipeline

variable {P F : Type} {r : Renderer P F} {p q : Pipeline P F}

/-- What the requests so far come to. -/
def album (p : Pipeline P F) : Album P :=
  p.requests.foldl Album.record ⟨[], []⟩

/-- The pictures that were handed out, the oldest first. -/
def pictures (p : Pipeline P F) : List (Nat × Image) :=
  p.events.filterMap Event.picture?

/-- The album depends on the requests about thumbnails only. -/
theorem album_eq (p : Pipeline P F) : p.album = p.iconRequests.foldl Album.record ⟨[], []⟩ := by
  unfold album iconRequests
  rw [List.foldl_filter]
  refine congrArg (fun f => p.requests.foldl f _) (funext fun a => funext fun request => ?_)
  cases hIcon : request.isIcon with
  | true => rfl
  | false => exact a.record_of_not_isIcon hIcon

/-- The album follows every request that is noted. -/
theorem album_note (p : Pipeline P F) (request : Request P) :
    (p.note request).album = p.album.record request := by
  unfold album note
  rw [List.foldl_append]
  rfl

/-- What leaves thumbnails alone leaves the album. -/
theorem SameIcons.album (h : SameIcons p q) : q.album = p.album := by
  rw [album_eq, album_eq, h.requests]

/-- What leaves thumbnails alone hands out no picture. -/
theorem SameIcons.pictures (h : SameIcons p q) : q.pictures = p.pictures := by
  rw [Pipeline.pictures, Pipeline.pictures, ← filterMap_iconEvents (fun _ => rfl), h.events,
    filterMap_iconEvents fun _ => rfl]

/-- No step of the main view exchanges the scene in use. -/
theorem MainStep.installed (h : MainStep r p q) : q.installed = p.installed := by
  cases h with
  | announce =>
      unfold Pipeline.announce
      split <;> rfl
  | _ => rfl

/-- Nothing changes the settings of a pipeline. -/
theorem Step.settings (h : Step r p q) : q.settings = p.settings := by
  cases h with
  | main h => exact h.sameIcons.settings
  | prime h => cases h <;> rfl
  | shot h => cases h <;> rfl
  | finish h => cases h <;> rfl

/-- The settings are those of the start after any commands. -/
theorem settings_after (r : Renderer P F) (p : Pipeline P F) (commands : List Command) :
    (after r p commands).settings = p.settings :=
  after_preserves (Q := fun q => q.settings = p.settings)
    (fun hStep hSame => hStep.settings.trans hSame)
    (fun hIcons hSame => hIcons.settings.trans hSame) id rfl commands

/-! ### What is on the film -/

/-- The film of thumbnails holds the samples that were asked for, and they show
what the active thumbnail was to show when it became active. -/
structure Exposed (p : Pipeline Tracer Film) : Prop where
  film : ∀ film, p.films.icon = some film →
    p.icon.extent = p.iconExtent ∧ (Film.blank p.iconExtent).expose p.album.shots = .ok film
  preview : ∀ a, p.active = some a → ∀ shot ∈ p.album.shots, shot.frame.preview = a.preview

/-- Whether the film is exposed as asked for depends on settings, film, active thumbnail and
album only. -/
theorem Exposed.congr {p q : Pipeline Tracer Film} (h : Exposed p)
    (hSettings : q.settings = p.settings) (hFilm : q.films.icon = p.films.icon)
    (hExtent : q.icon.extent = p.icon.extent) (hActive : q.active = p.active)
    (hShots : q.album.shots = p.album.shots) : Exposed q := by
  have hSize : q.iconExtent = p.iconExtent := by rw [iconExtent, iconExtent, hSettings]
  refine ⟨fun film h' => ?_, fun a h' => ?_⟩
  · rw [hExtent, hSize, hShots]
    exact h.film film (hFilm ▸ h')
  · rw [hShots]
    exact h.preview a (hActive ▸ h')

/-- What leaves thumbnails alone keeps their film exposed as asked for. -/
theorem SameIcons.exposed {p q : Pipeline Tracer Film} (h : SameIcons p q) (hExposed : Exposed p) :
    Exposed q :=
  hExposed.congr h.settings h.film h.extent h.active (congrArg Album.shots h.album)

/-- A pipeline without a film has nothing to show. -/
theorem exposed_of_none {p : Pipeline Tracer Film} (hFilm : p.films.icon = none)
    (hActive : p.active = none) : Exposed p := by
  refine ⟨fun film h => ?_, fun a h => ?_⟩
  · rw [hFilm] at h
    cases h
  · rw [hActive] at h
    cases h

/-- A blank film is exposed as asked for where no sample was. -/
theorem exposed_of_blank {p : Pipeline Tracer Film}
    (hFilm : p.films.icon = some (Film.blank p.iconExtent)) (hExtent : p.icon.extent = p.iconExtent)
    (hShots : p.album.shots = []) : Exposed p := by
  refine ⟨fun film h => ⟨hExtent, ?_⟩, fun a _ shot hShot => ?_⟩
  · rw [hFilm] at h
    cases h
    rw [hShots]
    rfl
  · rw [hShots] at hShot
    cases hShot

/-- Cleared, the film of thumbnails is the blank one that every thumbnail starts from. -/
theorem Exposed.clear {p : Pipeline Tracer Film} (h : Exposed p) {film : Film}
    (hFilm : p.films.icon = some film) : film.clear = Film.blank p.iconExtent :=
  Film.clear_of_sameShape (Film.expose_sameShape (h.film film hFilm).2)

/-- A sample of the active thumbnail never fails. -/
theorem Exposed.render {p : Pipeline Tracer Film} (h : Exposed p) {film : Film} {scene : Scene}
    {preview : Int} {index : Nat} {frame : Frame} {rng : ChaCha}
    (hFilm : p.films.icon = some film)
    (hFrame : Frame.icon scene preview p.settings p.icon.extent index p.rng = (frame, rng))
    (tracer : Tracer) : ∃ sampled, film.render tracer frame = .ok sampled := by
  obtain ⟨hExtent, hExpose⟩ := h.film film hFilm
  have hFrameExtent : frame.extent = p.icon.extent := (congrArg (fun f => f.1.extent) hFrame).symm
  have hFilmExtent : film.extent = p.iconExtent := (Film.expose_sameShape hExpose).extent
  rw [Film.render, if_pos (by rw [hFrameExtent, hExtent, hFilmExtent])]
  exact ⟨_, rfl⟩

variable {limit : Nat} {p q : Pipeline Tracer Film}

/-- Looking for a thumbnail ends with a film that is cleared for it. -/
theorem PrimeStep.exposed (h : PrimeStep (.tracing limit) p q) (hExposed : Exposed p) :
    Exposed q := by
  cases h with
  | drop _ _ => exact hExposed.congr rfl rfl rfl rfl rfl
  | allocateIcon _ _ _ hFilm =>
      exact exposed_of_blank (congrArg some (Film.eq_cleared_of_allocate hFilm)) rfl
        (congrArg Album.shots (p.album_note (.allocate .icon p.iconExtent)))
  | refuseIcon hActive => exact exposed_of_none rfl hActive
  | allocateIconFails hReady => exact exposed_of_none rfl hReady.active
  | activate _ _ hFilm hClear =>
      cases hClear
      exact exposed_of_blank (congrArg some (hExposed.clear hFilm)) (hExposed.film _ hFilm).1
        (congrArg Album.shots (p.album_note (.clear .icon)))
  | clearIconFails _ _ hClear => cases hClear

/-- The active thumbnail gets a sample with the scene in use. -/
theorem ShotStep.exposure (h : ShotStep (.tracing limit) p q) (hExposed : Exposed p) :
    ∃ a i frame, p.active = some a ∧ p.installed = some i ∧ frame.preview = a.preview ∧
      q.active = some { a with samples := a.samples + 1 } ∧ q.installed = p.installed ∧
      q.album = { p.album with shots := p.album.shots ++ [⟨i, frame⟩] } ∧
      q.pictures = p.pictures ∧ Exposed q := by
  cases h with
  | @sampleIcon i a film sampled frame rng hInstalled hActive hFilm hFrame hSample =>
      have hPreview : frame.preview = a.preview := (congrArg (fun f => f.1.preview) hFrame).symm
      have hAlbum := p.album_note (.sample .icon i frame)
      refine ⟨a, i, frame, hActive, hInstalled, hPreview, rfl, rfl, hAlbum, rfl, ?_, ?_⟩
      · intro f hLast
        cases hLast
        obtain ⟨hExtent, hExpose⟩ := hExposed.film film hFilm
        have hNext : (Film.blank p.iconExtent).expose (p.album.shots ++ [⟨i, frame⟩]) =
            .ok sampled := by
          rw [Film.expose_append_singleton, hExpose]
          exact hSample
        exact ⟨hExtent, (congrArg _ (congrArg Album.shots hAlbum)).trans hNext⟩
      · intro b hLast shot hShot
        cases hLast
        rcases List.mem_append.mp ((congrArg Album.shots hAlbum) ▸ hShot) with hOld | hNew
        · exact hExposed.preview a hActive shot hOld
        · rw [List.mem_singleton] at hNew
          rw [hNew]
          exact hPreview
  | @sampleIconFails i a film frame rng e hInstalled hActive hFilm hFrame hSample =>
      obtain ⟨sampled, hRender⟩ := hExposed.render hFilm hFrame i.program
      cases hRender.symm.trans hSample

/-- The picture that is handed out is that of the samples on the film. The album closes the
samples with it. -/
theorem FinishStep.exposure (h : FinishStep (.tracing limit) p q) (hExposed : Exposed p) :
    ∃ a film, p.active = some a ∧ p.films.icon = some film ∧
      q.pictures = p.pictures ++ [(a.thumbnail.id, film.image)] ∧
      q.album.pictures = p.album.pictures ++ [p.album.shots] ∧ Exposed q := by
  cases h with
  | @finishIcon a film image hActive hFilm hSamples hRead =>
      cases hRead
      refine ⟨a, film, hActive, hFilm, ?_, ?_, ?_⟩
      · exact filterMap_emit Event.picture? (p.note (.read .icon)) _
      · exact congrArg Album.pictures (p.album_note (.read .icon))
      · refine ⟨fun f hLast => ?_, nofun⟩
        obtain ⟨hExtent, hExpose⟩ := hExposed.film f hLast
        exact ⟨hExtent, (congrArg _ (congrArg Album.shots (p.album_note (.read .icon)))).trans hExpose⟩
  | readIconFails _ _ hRead => cases hRead

/-- Every step of a tick keeps the film of thumbnails exposed as asked for. -/
theorem Step.exposed (h : Step (.tracing limit) p q) (hExposed : Exposed p) : Exposed q := by
  cases h with
  | main h => exact h.sameIcons.exposed hExposed
  | prime h => exact h.exposed hExposed
  | shot h =>
      obtain ⟨_, _, _, _, _, _, _, _, _, _, hNext⟩ := h.exposure hExposed
      exact hNext
  | finish h =>
      obtain ⟨_, _, _, _, _, _, hNext⟩ := h.exposure hExposed
      exact hNext

/-- After any commands the film of thumbnails holds exactly the samples that were asked for
since it was cleared. -/
theorem after_exposed (hExposed : Exposed p) (commands : List Command) :
    Exposed (after (.tracing limit) p commands) :=
  after_preserves Step.exposed SameIcons.exposed (fun h => h.congr rfl rfl rfl rfl rfl) hExposed
    commands

/-! ### One tick -/

section Tick

variable {P F : Type} {r : Renderer P F} {p q : Pipeline P F}

/-- Another thumbnail is active at most, without samples and with the preview
that it has in the scene in use. -/
structure Primed (p q : Pipeline P F) : Prop where
  installed : q.installed = p.installed
  pictures : q.pictures = p.pictures
  album : q.album.pictures = p.album.pictures
  shots : ∀ a, q.active = some a → q.album.shots = []
  preview : ∀ a i, q.active = some a → q.installed = some i →
    a.thumbnail.subject.preview? i.scene = some a.preview

/-- Where no thumbnail is active, there is nothing to prime. -/
theorem Primed.of_idle (hInstalled : q.installed = p.installed) (hPictures : q.pictures = p.pictures)
    (hAlbum : q.album.pictures = p.album.pictures) (hActive : q.active = none) : Primed p q := by
  refine ⟨hInstalled, hPictures, hAlbum, fun a h => ?_, fun a i h => ?_⟩
  · rw [hActive] at h
    cases h
  · rw [hActive] at h
    cases h

/-- What is primed after one step is primed after the next. -/
theorem Primed.trans {o : Pipeline P F} (h : Primed o p) (h' : Primed p q) : Primed o q :=
  ⟨h'.installed.trans h.installed, h'.pictures.trans h.pictures, h'.album.trans h.album,
    h'.shots, h'.preview⟩

/-- Looking for a thumbnail leaves at most one active, and that one fresh. -/
theorem PrimeStep.primed (h : PrimeStep r p q) : Primed p q := by
  cases h with
  | drop hReady _ =>
      refine .of_idle rfl ?_ rfl hReady.active
      exact (filterMap_emit Event.picture? p _).trans (List.append_nil _)
  | allocateIcon hActive | refuseIcon hActive =>
      exact .of_idle rfl rfl
        (congrArg Album.pictures (p.album_note (.allocate .icon p.iconExtent)) :) hActive
  | allocateIconFails hReady =>
      exact .of_idle rfl rfl
        (congrArg Album.pictures (p.album_note (.allocate .icon p.iconExtent)) :) hReady.active
  | activate hReady hPreview _ _ =>
      have hAlbum := p.album_note (.clear .icon)
      refine ⟨rfl, rfl, (congrArg Album.pictures hAlbum :), fun _ _ => congrArg Album.shots hAlbum, ?_⟩
      intro a i hActive hInstalled
      cases hActive
      cases hReady.installed.symm.trans hInstalled
      exact hPreview
  | clearIconFails hReady _ _ =>
      exact .of_idle rfl rfl (congrArg Album.pictures (p.album_note (.clear .icon)) :) hReady.active

/-- Going through the queue leaves at most one thumbnail active, and that one fresh. -/
theorem PrimeSteps.primed (h : PrimeSteps r p q) (hActive : p.active = none) : Primed p q :=
  preserves_of_step (fun hStep hPrimed => hPrimed.trans hStep.primed) h
    (.of_idle rfl rfl rfl hActive)

/-- The scene in use stays while the main view is rendered. -/
theorem MainSteps.installed (h : MainSteps r p q) : q.installed = p.installed :=
  preserves_of_step (Q := fun q => q.installed = p.installed)
    (fun hStep hSame => hStep.installed.trans hSame) h rfl

/-- What a tick does before it samples the active thumbnail. -/
theorem Opening.cases (h : Opening r p q) :
    (p.active ≠ none ∧ SameIcons p q ∧ q.installed = p.installed) ∨
      (p.active = none ∧ Primed p q) := by
  cases h with
  | active hMain hActive =>
      have hIcons := hMain.sameIcons
      exact .inl ⟨hIcons.active ▸ hActive, hIcons, hMain.installed⟩
  | prime hMain hActive hPrime =>
      have hIcons := hMain.sameIcons
      have hIdle := hIcons.active.symm.trans hActive
      refine .inr ⟨hIdle, Primed.trans ?_ (hPrime.primed hActive)⟩
      exact .of_idle hMain.installed hIcons.pictures (congrArg Album.pictures hIcons.album) hActive

end Tick

/-- What a tick that hands out a picture hands out. -/
theorem TickPath.exposure (h : TickPath (.tracing limit) p q) (hExposed : Exposed p) :
    (q.pictures = p.pictures ∧ q.album.pictures = p.album.pictures) ∨
      ∃ o a film last, Opening (.tracing limit) p o ∧ o.active = some a ∧
        o.installed = some last.installed ∧ last.frame.preview = a.preview ∧
        q.pictures = p.pictures ++ [(a.thumbnail.id, film.image)] ∧
        q.album.pictures = p.album.pictures ++ [o.album.shots ++ [last]] ∧
        (Film.blank p.iconExtent).expose (o.album.shots ++ [last]) = .ok film := by
  have hOpened : ∀ {o}, Opening (.tracing limit) p o →
      Exposed o ∧ o.iconExtent = p.iconExtent ∧ o.pictures = p.pictures ∧
        o.album.pictures = p.album.pictures := by
    intro o hOpening
    refine ⟨?_, ?_, ?_⟩
    · exact preserves_of_step (fun hStep hBefore => hStep.exposed hBefore) hOpening.steps hExposed
    · exact preserves_of_step (Q := fun o => o.iconExtent = p.iconExtent)
        (fun hStep hSize => by rw [iconExtent, hStep.settings]; exact hSize) hOpening.steps rfl
    · obtain ⟨_, hIcons, _⟩ | ⟨_, hPrimed⟩ := hOpening.cases
      · exact ⟨hIcons.pictures, congrArg Album.pictures hIcons.album⟩
      · exact ⟨hPrimed.pictures, hPrimed.album⟩
  cases h with
  | opened hOpening =>
      obtain ⟨_, _, hPictures⟩ := hOpened hOpening
      exact .inl hPictures
  | sampled hOpening hShot =>
      obtain ⟨hExposed, _, hPictures, hAlbum⟩ := hOpened hOpening
      obtain ⟨_, _, _, _, _, _, _, _, hShots, hKept, _⟩ := hShot.exposure hExposed
      exact .inl ⟨hKept.trans hPictures, (congrArg Album.pictures hShots).trans hAlbum⟩
  | @finished o s f hOpening hShot hFinish hNext =>
      obtain ⟨hExposed, hSize, hPictures, hAlbum⟩ := hOpened hOpening
      obtain ⟨a, i, frame, hActive, hInstalled, hPreview, hSampled, _, hShots, hKept, hExposed'⟩ :=
        hShot.exposure hExposed
      obtain ⟨b, film, hLast, hFilm, hHanded, hPasted, _⟩ := hFinish.exposure hExposed'
      cases hSampled.symm.trans hLast
      have hIdle : f.active = none := by
        cases hFinish with
        | finishIcon => rfl
        | readIconFails _ _ hRead => cases hRead
      have hPrimed := hNext.primed hIdle
      refine .inr ⟨o, a, film, ⟨i, frame⟩, hOpening, hActive, hInstalled, hPreview, ?_, ?_, ?_⟩
      · rw [hPrimed.pictures, hHanded, hKept, hPictures]
      · rw [hPrimed.album, hPasted, hShots, ← hAlbum]
      · have hExpose := (hExposed'.film film hFilm).2
        rw [iconExtent, Step.settings (.shot hShot), ← iconExtent, hSize, hShots] at hExpose
        exact hExpose

end Pipeline

end PathTracer
