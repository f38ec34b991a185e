import Mathlib.Logic.Relation
import PathTracer.Pipeline.Command

/-! What a tick does, as a sequence of single changes. Whatever is to hold along
every run only has to be shown for each of them. -/
namespace PathTracer.Pipeline

variable {P F : Type}

/-- The main view at the requested extent, before it has a film. -/
def vacate (p : Pipeline P F) : Pipeline P F :=
  { p with films := p.films.erase .main, view := .fresh p.resolution }

/-- A thumbnail taken from the head of the queue. -/
structure Ready (p : Pipeline P F) (t : Thumbnail) (rest : List Thumbnail) (i : Installed P) :
    Prop where
  active : p.active = none
  queue : p.queue = t :: rest
  installed : p.installed = some i

/-- Single changes of the signals and of the main view. Those whose names end in
`Fails` are the last ones of a tick. -/
inductive MainStep (r : Renderer P F) (p : Pipeline P F) : Pipeline P F → Prop where
  | consumeRestart : MainStep r p p.consumeRestart.2
  | vacate (hEmpty : p.resolution.isEmpty = true) : MainStep r p p.vacate
  | allocateMain {film : F} (hEmpty : p.resolution.isEmpty = false)
      (hFilm : r.allocate .main p.resolution = .ok film) :
      MainStep r p { p.vacate.note (.allocate .main p.resolution) with
        films := p.vacate.films.insert .main film }
  | refuseMain {e : Failure} (hEmpty : p.resolution.isEmpty = false)
      (hFault : r.allocate .main p.resolution = .error e) (hResource : e.isResource = true) :
      MainStep r p { p.vacate.note (.allocate .main p.resolution) with
        view := { p.vacate.view with refused := true } }
  | allocateMainFails {e : Failure} (hEmpty : p.resolution.isEmpty = false)
      (hFault : r.allocate .main p.resolution = .error e) (hResource : e.isResource = false) :
      MainStep r p (p.vacate.note (.allocate .main p.resolution))
  | forgetSamples (hFilm : p.films.main = none) : MainStep r p p.forgetSamples
  | clearMain {film cleared : F} (hFilm : p.films.main = some film)
      (hClear : r.clear film = .ok cleared) :
      MainStep r p (forgetSamples
        { p.note (.clear .main) with films := p.films.insert .main cleared })
  | clearMainFails {film : F} {e : Failure} (hFilm : p.films.main = some film)
      (hClear : r.clear film = .error e) : MainStep r p (p.note (.clear .main))
  | sampleMain {i : Installed P} {film sampled : F} {frame : Frame} {rng : ChaCha}
      (hInstalled : p.installed = some i) (hFilm : p.films.main = some film)
      (hBudget : p.view.samples < p.budget)
      (hFrame : Frame.main i.scene p.settings p.view.extent p.view.samples p.rng =
        .ok (frame, rng))
      (hSample : r.sample i.program frame film = .ok sampled) :
      MainStep r p { note { p with rng := rng } (.sample .main i frame) with
        films := p.films.insert .main sampled
        view := { p.view with converged := false, samples := p.view.samples + 1 } }
  | frameFails {i : Installed P} {film : F} {e : Failure} (hInstalled : p.installed = some i)
      (hFilm : p.films.main = some film) (hBudget : p.view.samples < p.budget)
      (hFrame : Frame.main i.scene p.settings p.view.extent p.view.samples p.rng = .error e) :
      MainStep r p { p with view := { p.view with converged := false } }
  | sampleMainFails {i : Installed P} {film : F} {frame : Frame} {rng : ChaCha} {e : Failure}
      (hInstalled : p.installed = some i) (hFilm : p.films.main = some film)
      (hBudget : p.view.samples < p.budget)
      (hFrame : Frame.main i.scene p.settings p.view.extent p.view.samples p.rng =
        .ok (frame, rng))
      (hSample : r.sample i.program frame film = .error e) :
      MainStep r p (note { p with rng := rng, view := { p.view with converged := false } }
        (.sample .main i frame))
  | announce {i : Installed P} {film : F} (hInstalled : p.installed = some i)
      (hFilm : p.films.main = some film) : MainStep r p p.announce

/-- Single changes on the way from the queue to an active thumbnail. -/
inductive PrimeStep (r : Renderer P F) (p : Pipeline P F) : Pipeline P F → Prop where
  | drop {t : Thumbnail} {rest : List Thumbnail} {i : Installed P} (hReady : p.Ready t rest i)
      (hPreview : t.subject.preview? i.scene = none) :
      PrimeStep r p { p.emit (.iconDropped t.id t.subject.dropReason) with queue := rest }
  | allocateIcon {film : F} (hActive : p.active = none)
      (hExtent : p.films.icon.map r.extent ≠ some p.iconExtent) (hRefused : p.icon.refused = false)
      (hFilm : r.allocate .icon p.iconExtent = .ok film) :
      PrimeStep r p { p.note (.allocate .icon p.iconExtent) with
        films := p.films.insert .icon film
        icon := ⟨p.iconExtent, false⟩ }
  | refuseIcon {e : Failure} (hActive : p.active = none)
      (hExtent : p.films.icon.map r.extent ≠ some p.iconExtent) (hRefused : p.icon.refused = false)
      (hFault : r.allocate .icon p.iconExtent = .error e) (hResource : e.isResource = true) :
      PrimeStep r p { p.note (.allocate .icon p.iconExtent) with
        films := p.films.erase .icon
        icon := { p.icon with refused := true } }
  | allocateIconFails {t : Thumbnail} {rest : List Thumbnail} {i : Installed P} {e : Failure}
      (hReady : p.Ready t rest i)
      (hExtent : p.films.icon.map r.extent ≠ some p.iconExtent) (hRefused : p.icon.refused = false)
      (hFault : r.allocate .icon p.iconExtent = .error e) (hResource : e.isResource = false) :
      PrimeStep r p { p.note (.allocate .icon p.iconExtent) with
        films := p.films.erase .icon
        queue := rest }
  | activate {t : Thumbnail} {rest : List Thumbnail} {i : Installed P} {preview : Int}
      {film cleared : F} (hReady : p.Ready t rest i)
      (hPreview : t.subject.preview? i.scene = some preview) (hFilm : p.films.icon = some film)
      (hClear : r.clear film = .ok cleared) :
      PrimeStep r p { p.note (.clear .icon) with
        queue := rest
        films := p.films.insert .icon cleared
        active := some ⟨t, preview, 0⟩ }
  | clearIconFails {t : Thumbnail} {rest : List Thumbnail} {i : Installed P} {film : F}
      {e : Failure} (hReady : p.Ready t rest i) (hFilm : p.films.icon = some film)
      (hClear : r.clear film = .error e) :
      PrimeStep r p { p.note (.clear .icon) with queue := rest }

/-- A sample of the active thumbnail. -/
inductive ShotStep (r : Renderer P F) (p : Pipeline P F) : Pipeline P F → Prop where
  | sampleIcon {i : Installed P} {a : ActiveThumbnail} {film sampled : F} {frame : Frame}
      {rng : ChaCha} (hInstalled : p.installed = some i) (hActive : p.active = some a)
      (hFilm : p.films.icon = some film)
      (hFrame : Frame.icon i.scene a.preview p.settings p.icon.extent a.samples p.rng =
        (frame, rng))
      (hSample : r.sample i.program frame film = .ok sampled) :
      ShotStep r p { note { p with rng := rng } (.sample .icon i frame) with
        films := p.films.insert .icon sampled
        active := some { a with samples := a.samples + 1 } }
  | sampleIconFails {i : Installed P} {a : ActiveThumbnail} {film : F} {frame : Frame}
      {rng : ChaCha} {e : Failure} (hInstalled : p.installed = some i)
      (hActive : p.active = some a) (hFilm : p.films.icon = some film)
      (hFrame : Frame.icon i.scene a.preview p.settings p.icon.extent a.samples p.rng =
        (frame, rng))
      (hSample : r.sample i.program frame film = .error e) :
      ShotStep r p (note { p with rng := rng } (.sample .icon i frame))

/-- The end of the active thumbnail. -/
inductive FinishStep (r : Renderer P F) (p : Pipeline P F) : Pipeline P F → Prop where
  | finishIcon {a : ActiveThumbnail} {film : F} {image : Image} (hActive : p.active = some a)
      (hFilm : p.films.icon = some film) (hSamples : max p.settings.iconSamples 1 ≤ a.samples)
      (hRead : r.read film = .ok image) :
      FinishStep r p (emit { p.note (.read .icon) with active := none }
        (.iconFinished a.thumbnail.id image))
  | readIconFails {a : ActiveThumbnail} {film : F} {e : Failure} (hActive : p.active = some a)
      (hFilm : p.films.icon = some film) (hRead : r.read film = .error e) :
      FinishStep r p (p.note (.read .icon))

/-- A single change of a tick. -/
inductive Step (r : Renderer P F) (p q : Pipeline P F) : Prop where
  | main (h : MainStep r p q)
  | prime (h : PrimeStep r p q)
  | shot (h : ShotStep r p q)
  | finish (h : FinishStep r p q)

/-- Any number of changes of the main view. -/
abbrev MainSteps (r : Renderer P F) : Pipeline P F → Pipeline P F → Prop :=
  Relation.ReflTransGen (MainStep r)

/-- Any number of changes on the way to an active thumbnail. -/
abbrev PrimeSteps (r : Renderer P F) : Pipeline P F → Pipeline P F → Prop :=
  Relation.ReflTransGen (PrimeStep r)

/-- Any number of changes. -/
abbrev Steps (r : Renderer P F) : Pipeline P F → Pipeline P F → Prop :=
  Relation.ReflTransGen (Step r)

/-- Steps of the main view are steps. -/
theorem MainSteps.steps {r : Renderer P F} {p q : Pipeline P F} (h : MainSteps r p q) :
    Steps r p q :=
  Relation.ReflTransGen.mono (fun _ _ h => Step.main h) p q h

/-- Steps of looking for a thumbnail are steps. -/
theorem PrimeSteps.steps {r : Renderer P F} {p q : Pipeline P F} (h : PrimeSteps r p q) :
    Steps r p q :=
  Relation.ReflTransGen.mono (fun _ _ h => Step.prime h) p q h

/-- What every single change preserves, every sequence of them preserves. -/
theorem preserves_of_step {R : Pipeline P F → Pipeline P F → Prop} {Q : Pipeline P F → Prop}
    (hStep : ∀ {p q}, R p q → Q p → Q q) {p q : Pipeline P F}
    (h : Relation.ReflTransGen R p q) (hStart : Q p) : Q q := by
  induction h with
  | refl => exact hStart
  | tail _ hLast ih => exact hStep hLast ih

/-! ### The main view -/

/-- Reallocating is made of steps of the main view. -/
theorem reallocate_steps (r : Renderer P F) (p : Pipeline P F) :
    MainSteps r p (p.reallocate r).2 := by
  unfold reallocate
  dsimp only
  split
  · rename_i hEmpty
    exact .single (.vacate hEmpty)
  · rename_i hEmpty
    rw [Bool.not_eq_true] at hEmpty
    split
    · rename_i film hFilm
      exact .single (.allocateMain hEmpty hFilm)
    · rename_i e hFault
      split
      · rename_i hResource
        exact .single (.refuseMain hEmpty hFault hResource)
      · rename_i hResource
        exact .single (.allocateMainFails hEmpty hFault (Bool.eq_false_iff.mpr hResource))

/-- Clearing the main view is made of steps of the main view. -/
theorem clearMain_steps (r : Renderer P F) (p : Pipeline P F) : MainSteps r p (p.clearMain r).2 := by
  unfold clearMain
  split
  · rename_i hFilm
    exact .single (.forgetSamples hFilm)
  · rename_i film hFilm
    dsimp only
    split
    · rename_i e hClear
      exact .single (.clearMainFails hFilm hClear)
    · rename_i cleared hClear
      exact .single (.clearMain hFilm hClear)

/-- Preparing the main view is made of its steps, failing or not. -/
theorem prepareMain_steps (r : Renderer P F) (p : Pipeline P F) (restarted : Bool) :
    MainSteps r p (p.prepareMain r restarted).2 := by
  unfold prepareMain
  split
  · exact p.reallocate_steps r
  · split
    · have hClear := p.clearMain_steps r
      generalize p.clearMain r = result at hClear
      obtain ⟨answer, q⟩ := result
      cases answer <;> exact hClear
    · exact .refl

/-- Rendering the main view is made of its steps, failing or not. -/
theorem renderMain_steps (r : Renderer P F) (p : Pipeline P F) : MainSteps r p (p.renderMain r).2 := by
  unfold renderMain
  split
  · rename_i i film hInstalled hFilm
    split
    · rename_i hBudget
      unfold sampleMain
      dsimp only
      cases hFrame : Frame.main i.scene p.settings p.view.extent p.view.samples p.rng with
      | error e => exact .single (.frameFails hInstalled hFilm hBudget hFrame)
      | ok frame =>
          obtain ⟨frame, rng⟩ := frame
          dsimp only
          cases hSample : r.sample i.program frame film with
          | error e => exact .single (.sampleMainFails hInstalled hFilm hBudget hFrame hSample)
          | ok sampled =>
              exact .tail (.single (.sampleMain hInstalled hFilm hBudget hFrame hSample))
                (.announce hInstalled rfl)
    · exact .single (.announce hInstalled hFilm)
  · exact .refl

/-! ### Thumbnails -/

/-- A thumbnail that goes back to the head of the queue leaves it as it was. -/
theorem Ready.restore {p : Pipeline P F} {t : Thumbnail} {rest : List Thumbnail}
    {i : Installed P} (h : p.Ready t rest i) : { p with queue := t :: rest } = p := by
  rw [← h.queue]

/-- With a film for it, a thumbnail is activated. -/
theorem clearIcon_steps (r : Renderer P F) {p : Pipeline P F} {t : Thumbnail}
    {rest : List Thumbnail} {i : Installed P} {preview : Int} {film : F}
    (hReady : p.Ready t rest i) (hPreview : t.subject.preview? i.scene = some preview)
    (hFilm : p.films.icon = some film) :
    PrimeSteps r p (match clearIcon r { p with queue := rest } with
      | (.error e, p) => (.error e, p)
      | (.ok (), p) => (.ok (), { p with active := some ⟨t, preview, 0⟩ }) :
        Except Failure Unit × Pipeline P F).2 := by
  unfold clearIcon
  dsimp only
  rw [hFilm]
  dsimp only
  cases hClear : r.clear film with
  | error e => exact .single (.clearIconFails hReady hFilm hClear)
  | ok cleared => exact .single (.activate hReady hPreview hFilm hClear)

/-- Everything that looking for a film of thumbnails can come to. The film is there, or it
was refused before, or it is allocated or refused now. -/
theorem ensureIconFilm_cases (r : Renderer P F) (p : Pipeline P F) :
    (p.films.icon.map r.extent = some p.iconExtent ∧ p.ensureIconFilm r = (.ok true, p)) ∨
    (p.icon.refused = true ∧ p.ensureIconFilm r = (.ok false, p)) ∨
    (p.films.icon.map r.extent ≠ some p.iconExtent ∧ p.icon.refused = false ∧
      ((∃ film, r.allocate .icon p.iconExtent = .ok film ∧
          p.ensureIconFilm r = (.ok true, { p.note (.allocate .icon p.iconExtent) with
            films := p.films.insert .icon film
            icon := ⟨p.iconExtent, false⟩ })) ∨
        (∃ e, r.allocate .icon p.iconExtent = .error e ∧ e.isResource = true ∧
          p.ensureIconFilm r = (.ok false, { p.note (.allocate .icon p.iconExtent) with
            films := p.films.erase .icon
            icon := { p.icon with refused := true } })) ∨
        (∃ e, r.allocate .icon p.iconExtent = .error e ∧ e.isResource = false ∧
          p.ensureIconFilm r = (.error e, { p.note (.allocate .icon p.iconExtent) with
            films := p.films.erase .icon })))) := by
  unfold ensureIconFilm
  by_cases hExtent : p.films.icon.map r.extent = some p.iconExtent
  · exact .inl ⟨hExtent, if_pos hExtent⟩
  · rw [if_neg hExtent]
    cases hRefused : p.icon.refused with
    | true => exact .inr (.inl ⟨rfl, if_pos rfl⟩)
    | false =>
        refine .inr (.inr ⟨hExtent, rfl, ?_⟩)
        rw [if_neg Bool.false_ne_true]
        have hSize : (note { p with films := p.films.erase .icon }
          (.allocate .icon p.iconExtent)).iconExtent = p.iconExtent := rfl
        dsimp only
        rw [hSize]
        cases hFilm : r.allocate .icon p.iconExtent with
        | ok film => exact .inl ⟨film, rfl, rfl⟩
        | error e =>
            cases hResource : e.isResource with
            | true => exact .inr (.inl ⟨e, rfl, hResource, by simp only [hResource]; rfl⟩)
            | false => exact .inr (.inr ⟨e, rfl, hResource, by simp only [hResource]; rfl⟩)

/-- Activating the first thumbnail that the scene can show is made of steps of looking for
one. -/
theorem activate_steps (r : Renderer P F) {p : Pipeline P F} {t : Thumbnail}
    {rest : List Thumbnail} {i : Installed P} {preview : Int} (hReady : p.Ready t rest i)
    (hPreview : t.subject.preview? i.scene = some preview) :
    PrimeSteps r p (activate r { p with queue := rest } t preview).2 := by
  unfold activate
  obtain ⟨hExtent, hFound⟩ | ⟨_, hFound⟩ | ⟨hExtent, hRefused, hAllocate⟩ :=
    ensureIconFilm_cases r { p with queue := rest }
  · obtain ⟨film, hFilm, _⟩ := Option.map_eq_some_iff.mp hExtent
    rw [hFound]
    exact clearIcon_steps r hReady hPreview hFilm
  · rw [hFound]
    dsimp only
    rw [hReady.restore]
  · obtain ⟨film, hFilm, hFound⟩ | ⟨e, hFault, hResource, hFound⟩ | ⟨e, hFault, hResource, hFound⟩ :=
      hAllocate
    · rw [hFound]
      refine .head (.allocateIcon hReady.active hExtent hRefused hFilm) ?_
      exact clearIcon_steps r ⟨hReady.active, hReady.queue, hReady.installed⟩ hPreview rfl
    · rw [hFound]
      have hStep := PrimeStep.refuseIcon hReady.active hExtent hRefused hFault hResource
      cases p
      cases hReady.queue
      exact .single hStep
    · rw [hFound]
      exact .single (.allocateIconFails hReady hExtent hRefused hFault hResource)

/-- The queue of the pipeline is in no way used to prime from a list. -/
theorem primeFrom_queue (r : Renderer P F) (scene : Scene) (thumbnails queue : List Thumbnail)
    (p : Pipeline P F) :
    primeFrom r scene thumbnails { p with queue := queue } = primeFrom r scene thumbnails p := by
  induction thumbnails generalizing p with
  | nil => rfl
  | cons t rest ih =>
      rw [primeFrom, primeFrom]
      cases t.subject.preview? scene with
      | none => exact ih (p.emit (.iconDropped t.id t.subject.dropReason))
      | some preview => rfl

/-- Going through the queue drops thumbnails that the scene cannot show up to the first that
it can, one step each. -/
theorem primeFrom_steps (r : Renderer P F) {p : Pipeline P F} {i : Installed P}
    (hInstalled : p.installed = some i) (hActive : p.active = none) {thumbnails : List Thumbnail}
    (hQueue : p.queue = thumbnails) : PrimeSteps r p (primeFrom r i.scene thumbnails p).2 := by
  induction thumbnails generalizing p with
  | nil =>
      rw [primeFrom, ← hQueue]
  | cons t rest ih =>
      have hReady : p.Ready t rest i := ⟨hActive, hQueue, hInstalled⟩
      rw [primeFrom]
      split
      · rename_i hPreview
        rw [← primeFrom_queue r i.scene rest rest]
        exact .head (.drop hReady hPreview) (ih hInstalled hActive rfl)
      · rename_i preview hPreview
        exact activate_steps r hReady hPreview

/-- Looking for a thumbnail is made of its steps, with a scene in use or without one. -/
theorem prime_steps (r : Renderer P F) {p : Pipeline P F} (hActive : p.active = none) :
    PrimeSteps r p (p.prime r).2 := by
  unfold prime
  split
  · exact .refl
  · rename_i i hInstalled
    exact primeFrom_steps r hInstalled hActive rfl

/-- A tick up to the sample of the active thumbnail. -/
inductive Opening (r : Renderer P F) (p q : Pipeline P F) : Prop where
  | active (hMain : MainSteps r p q) (hActive : q.active ≠ none)
  | prime {m : Pipeline P F} (hMain : MainSteps r p m) (hActive : m.active = none)
      (hPrime : PrimeSteps r m q)

/-- A tick, which ends early where something fails. -/
inductive TickPath (r : Renderer P F) (p q : Pipeline P F) : Prop where
  | opened (hOpening : Opening r p q)
  | sampled {o : Pipeline P F} (hOpening : Opening r p o) (hShot : ShotStep r o q)
  | finished {o s f : Pipeline P F} (hOpening : Opening r p o) (hShot : ShotStep r o s)
      (hFinish : FinishStep r s f) (hNext : PrimeSteps r f q)

/-- A tick may look for no thumbnail at all. -/
theorem Opening.of_main {r : Renderer P F} {p q : Pipeline P F} (h : MainSteps r p q) :
    Opening r p q := by
  cases hActive : q.active with
  | none => exact .prime h hActive .refl
  | some a => exact .active h (hActive ▸ Option.some_ne_none a)

/-- The opening of a tick is made of steps. -/
theorem Opening.steps {r : Renderer P F} {p q : Pipeline P F} (h : Opening r p q) :
    Steps r p q := by
  cases h with
  | active hMain _ => exact hMain.steps
  | prime hMain _ hPrime => exact hMain.steps.trans hPrime.steps

/-- A tick is made of steps. -/
theorem TickPath.steps {r : Renderer P F} {p q : Pipeline P F} (h : TickPath r p q) :
    Steps r p q := by
  cases h with
  | opened hOpening => exact hOpening.steps
  | sampled hOpening hShot => exact hOpening.steps.tail (.shot hShot)
  | finished hOpening hShot hFinish hNext =>
      exact ((hOpening.steps.tail (.shot hShot)).tail (.finish hFinish)).trans hNext.steps

/-- Rendering the main view and then looking for a thumbnail opens a tick. -/
theorem primeIfIdle_opening (r : Renderer P F) {p m : Pipeline P F} (hMain : MainSteps r p m) :
    Opening r p (m.primeIfIdle r).2 := by
  unfold primeIfIdle
  split
  · rename_i hActive
    rw [Option.isNone_iff_eq_none] at hActive
    exact .prime hMain hActive (prime_steps r hActive)
  · exact .of_main hMain

/-- A tick may end with the picture of the thumbnail that it has sampled. -/
theorem finishIcon_path (r : Renderer P F) {p o s : Pipeline P F} {a : ActiveThumbnail} {film : F}
    (hOpening : Opening r p o) (hShot : ShotStep r o s) (hActive : s.active = some a)
    (hFilm : s.films.icon = some film) (hSamples : max s.settings.iconSamples 1 ≤ a.samples) :
    TickPath r p (s.finishIcon r a film).2 := by
  unfold finishIcon
  dsimp only
  split
  · rename_i e hRead
    exact .finished hOpening hShot (.readIconFails hActive hFilm hRead) .refl
  · rename_i image hRead
    have hFinish := FinishStep.finishIcon hActive hFilm hSamples hRead
    have hPrime := prime_steps r (p := emit { s.note (.read .icon) with active := none }
      (.iconFinished a.thumbnail.id image)) rfl
    generalize prime r _ = result at hPrime ⊢
    obtain ⟨answer, q⟩ := result
    cases answer <;> exact .finished hOpening hShot hFinish hPrime

/-- A tick may end with a sample of a thumbnail, and with its picture after the last one. -/
theorem sampleIcon_path (r : Renderer P F) {p o : Pipeline P F} {i : Installed P}
    {a : ActiveThumbnail} {film : F} (hOpening : Opening r p o) (hInstalled : o.installed = some i)
    (hActive : o.active = some a) (hFilm : o.films.icon = some film) :
    TickPath r p (o.sampleIcon r i a film).2 := by
  unfold sampleIcon
  cases hFrame : Frame.icon i.scene a.preview o.settings o.icon.extent a.samples o.rng with
  | mk frame rng =>
      dsimp only
      cases hSample : r.sample i.program frame film with
      | error e =>
          exact .sampled hOpening (.sampleIconFails hInstalled hActive hFilm hFrame hSample)
      | ok sampled =>
          have hShot := ShotStep.sampleIcon hInstalled hActive hFilm hFrame hSample
          dsimp only
          split
          · rename_i hSamples
            exact finishIcon_path r hOpening hShot rfl rfl hSamples
          · exact .sampled hOpening hShot

/-- All that a tick does for thumbnails completes its path. -/
theorem stepIcon_path (r : Renderer P F) {p m : Pipeline P F} (hMain : MainSteps r p m) :
    TickPath r p (m.stepIcon r).2 := by
  unfold stepIcon
  have hOpening := primeIfIdle_opening r hMain
  generalize m.primeIfIdle r = result at hOpening
  obtain ⟨answer, o⟩ := result
  cases answer with
  | error e => exact .opened hOpening
  | ok _ =>
      dsimp only
      split
      · rename_i i a film hInstalled hActive hFilm
        exact sampleIcon_path r hOpening hInstalled hActive hFilm
      · exact .opened hOpening

/-! ### Ticks and runs -/

/-- How a tick goes. The main view is prepared and rendered, then thumbnails make a step,
and the first of the three that fails is the last one. -/
inductive TickRun (r : Renderer P F) (p : Pipeline P F) :
    Except Failure TickReport × Pipeline P F → Prop where
  | unprepared {e : Failure} {o : Pipeline P F}
      (hPrepare : p.consumeRestart.2.prepareMain r p.restartPending = (.error e, o)) :
      TickRun r p (.error e, o)
  | unrendered {reallocated : Bool} {e : Failure} {o m : Pipeline P F}
      (hPrepare : p.consumeRestart.2.prepareMain r p.restartPending = (.ok reallocated, o))
      (hRender : o.renderMain r = (.error e, m)) : TickRun r p (.error e, m)
  | unstepped {reallocated : Bool} {mainSamples : Option Nat} {e : Failure}
      {o m q : Pipeline P F}
      (hPrepare : p.consumeRestart.2.prepareMain r p.restartPending = (.ok reallocated, o))
      (hRender : o.renderMain r = (.ok mainSamples, m)) (hIcon : m.stepIcon r = (.error e, q)) :
      TickRun r p (.error e, q)
  | done {reallocated : Bool} {mainSamples : Option Nat} {step : IconStep}
      {o m q : Pipeline P F}
      (hPrepare : p.consumeRestart.2.prepareMain r p.restartPending = (.ok reallocated, o))
      (hRender : o.renderMain r = (.ok mainSamples, m)) (hIcon : m.stepIcon r = (.ok step, q)) :
      TickRun r p (.ok ⟨p.restartPending, reallocated, mainSamples, step.sampled, step.finished⟩, q)

/-- Every tick runs along a path, and says whether it failed. -/
theorem tickRun (r : Renderer P F) (p : Pipeline P F) : TickRun r p (p.tick r) := by
  unfold tick
  split
  rename_i restarted start hSignal
  cases hSignal
  split
  · exact .unprepared ‹_›
  · split
    · exact .unrendered ‹_› ‹_›
    · split
      · exact .unstepped ‹_› ‹_› ‹_›
      · exact .done ‹_› ‹_› ‹_›

/-- A tick starts with the signals and the preparation of the main view. -/
theorem prepared_steps (r : Renderer P F) (p : Pipeline P F) :
    MainSteps r p (p.consumeRestart.2.prepareMain r p.restartPending).2 :=
  have hStart : MainSteps r p p.consumeRestart.2 := .single .consumeRestart
  hStart.trans (p.consumeRestart.2.prepareMain_steps r p.restartPending)

/-- A tick ends with changes of the main view, or these go before a step of thumbnails. -/
theorem tick_cases (r : Renderer P F) (p : Pipeline P F) :
    ∃ m, MainSteps r p m ∧ ((p.tick r).2 = m ∨ (p.tick r).2 = (m.stepIcon r).2) := by
  have hPrepared := p.prepared_steps r
  have hRun := p.tickRun r
  generalize p.tick r = result at hRun ⊢
  cases hRun with
  | unprepared hPrepare => exact ⟨_, hPrepared, .inl (by rw [hPrepare])⟩
  | unrendered hPrepare hRender =>
      rw [hPrepare] at hPrepared
      exact ⟨_, hPrepared.trans (renderMain_steps r _), .inl (by rw [hRender])⟩
  | unstepped hPrepare hRender hIcon | done hPrepare hRender hIcon =>
      rw [hPrepare] at hPrepared
      exact ⟨_, hPrepared.trans (renderMain_steps r _), .inr (by rw [hRender, hIcon])⟩

/-- Every tick goes along a path: the main view first, then at most one sample of a
thumbnail. -/
theorem tick_path (r : Renderer P F) (p : Pipeline P F) : TickPath r p (p.tick r).2 := by
  obtain ⟨m, hMain, hTick⟩ := p.tick_cases r
  obtain hTick | hTick := hTick
  · rw [hTick]
    exact .opened (.of_main hMain)
  · rw [hTick]
    exact stepIcon_path r hMain

/-- A tick is a sequence of single changes, also where it fails. -/
theorem tick_steps (r : Renderer P F) (p : Pipeline P F) : Steps r p (p.tick r).2 :=
  (p.tick_path r).steps

/-- A run of ticks is made of steps. -/
theorem runUntilConverged_steps (r : Renderer P F) (ticks : Nat) (p : Pipeline P F) :
    Steps r p (p.runUntilConverged r ticks).2 := by
  induction ticks generalizing p with
  | zero => exact .refl
  | succ n ih =>
      have hTick := p.tick_steps r
      rw [runUntilConverged]
      generalize p.tick r = ticked at hTick
      obtain ⟨_ | report, q⟩ := ticked
      · exact hTick
      · dsimp only
        split
        · exact hTick
        · exact hTick.trans (ih q)

end PathTracer.Pipeline
