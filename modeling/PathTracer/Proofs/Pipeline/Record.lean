import PathTracer.Pipeline.Command

/-! The record of requests. A pipeline writes down what it asks of its renderer, and
nothing that it does reads this record: every operation gives the same answer and the
same state over any older requests. -/
namespace PathTracer.Pipeline

/-- A command with the renderer that it finds. What a renderer can build, hold or
render may change from one command to the next. -/
structure Job (P F : Type) where
  renderer : Renderer P F
  command : Command

variable {P F : Type}

def Job.perform (c : Job P F) (p : Pipeline P F) : Answer × Pipeline P F :=
  p.perform c.renderer c.command

/-- The pipeline after some jobs. -/
def through (p : Pipeline P F) (jobs : List (Job P F)) : Pipeline P F :=
  jobs.foldl (fun p c => (c.perform p).2) p

/-- What some jobs are answered. -/
def replies (p : Pipeline P F) : List (Job P F) → List Answer
  | [] => []
  | c :: rest => (c.perform p).1 :: replies (c.perform p).2 rest

/-- More jobs go on from where the earlier ones have led. -/
theorem through_append (p : Pipeline P F) (done more : List (Job P F)) :
    p.through (done ++ more) = (p.through done).through more :=
  List.foldl_append

/-! ### The record of requests -/

/-- The pipeline without its record of requests. -/
def unlogged (p : Pipeline P F) : Pipeline P F :=
  { p with requests := [] }

/-- The pipeline with older requests before its own. -/
def behind (log : List (Request P)) (p : Pipeline P F) : Pipeline P F :=
  { p with requests := log ++ p.requests }

/-- A pipeline is itself without its record, put behind that record. -/
theorem behind_unlogged (p : Pipeline P F) : p.unlogged.behind p.requests = p := by
  simp [unlogged, behind]

/-- A longer record is no difference without the record. -/
@[simp]
theorem unlogged_behind (log : List (Request P)) (p : Pipeline P F) :
    (p.behind log).unlogged = p.unlogged :=
  rfl

/-- A longer record leaves the scene in use. -/
@[simp]
theorem installed_behind (log : List (Request P)) (p : Pipeline P F) :
    (p.behind log).installed = p.installed :=
  rfl

/-- A longer record leaves the films. -/
@[simp]
theorem films_behind (log : List (Request P)) (p : Pipeline P F) :
    (p.behind log).films = p.films :=
  rfl

/-- A longer record leaves extent, samples and convergence. -/
@[simp]
theorem view_behind (log : List (Request P)) (p : Pipeline P F) :
    (p.behind log).view = p.view :=
  rfl

/-- A longer record leaves the budget. -/
@[simp]
theorem budget_behind (log : List (Request P)) (p : Pipeline P F) :
    (p.behind log).budget = p.budget :=
  rfl

/-- A longer record leaves the active thumbnail. -/
@[simp]
theorem active_behind (log : List (Request P)) (p : Pipeline P F) :
    (p.behind log).active = p.active :=
  rfl

/-- A request is noted at the end of the record, however long it is. -/
@[simp]
theorem note_behind (log : List (Request P)) (p : Pipeline P F) (request : Request P) :
    (p.behind log).note request = (p.note request).behind log := by
  simp [note, behind]

/-- What is done with a pipeline does not look at its record of requests. -/
def Blind {α : Type} (f : Pipeline P F → α × Pipeline P F) : Prop :=
  ∀ log p, f (p.behind log) = (f p).map id (behind log)

variable (r : Renderer P F)

/-- Go on with an answer unless it is a failure. -/
def proceed {α β : Type} (result : Except Failure α × Pipeline P F)
    (next : α → Pipeline P F → Except Failure β × Pipeline P F) :
    Except Failure β × Pipeline P F :=
  match result with
  | (.error e, p) => (.error e, p)
  | (.ok x, p) => next x p

/-- One thing after another, of which the second is left out where the first fails. -/
theorem Blind.proceed {α β : Type} {f : Pipeline P F → Except Failure α × Pipeline P F}
    {g : α → Pipeline P F → Except Failure β × Pipeline P F} (hFirst : Blind f)
    (hSecond : ∀ x, Blind (g x)) : Blind fun p => Pipeline.proceed (f p) g := by
  intro log p
  dsimp only
  rw [hFirst]
  rcases f p with ⟨e | x, q⟩
  · rfl
  · exact hSecond x log q

/-- Two functions that agree are blind together. -/
theorem Blind.congr {α : Type} {f g : Pipeline P F → α × Pipeline P F} (h : Blind f)
    (hSame : ∀ p, g p = f p) : Blind g := by
  intro log p
  rw [hSame, hSame, h]

/-- What only returns a value is blind. -/
theorem Blind.pure {α : Type} (x : α) : Blind fun p : Pipeline P F => (x, p) :=
  fun _ _ => rfl

/-- What is done first does not look at the record either. -/
theorem Blind.first {α : Type} {f : Pipeline P F → α × Pipeline P F} (hDone : Blind f)
    (change : Pipeline P F → Pipeline P F)
    (hChange : ∀ log p, change (p.behind log) = (change p).behind log) :
    Blind fun p => f (change p) := by
  intro log p
  dsimp only
  rw [hChange, hDone]

/-- One of two things, by a test that does not look at the record. -/
theorem Blind.choose {α : Type} {f g : Pipeline P F → α × Pipeline P F}
    {c : Pipeline P F → Prop} [DecidablePred c] (hThen : Blind f) (hElse : Blind g)
    (hTest : ∀ log p, c (p.behind log) ↔ c p) : Blind fun p => if c p then f p else g p := by
  intro log p
  by_cases hHolds : c p
  · simpa [hTest, hHolds] using hThen log p
  · simpa [hTest, hHolds] using hElse log p

/-- An answer is put in another form. -/
theorem Blind.map {α β : Type} {f : Pipeline P F → α × Pipeline P F} (hDone : Blind f)
    (form : α → β) : Blind fun p => (f p).map form id := by
  intro log p
  dsimp only
  rw [hDone]
  rfl

/-- Reallocating notes requests and reads none. -/
theorem blind_reallocate : Blind (reallocate (P := P) r) := by
  intro log p
  cases hEmpty : p.resolution.isEmpty with
  | true => simp [reallocate, behind, hEmpty]
  | false =>
      cases hFilm : r.allocate .main p.resolution with
      | ok film => simp [reallocate, behind, note, hEmpty, hFilm]
      | error e =>
          cases hResource : e.isResource <;>
            simp [reallocate, behind, note, hEmpty, hFilm, hResource]

/-- Clearing the main view notes requests and reads none. -/
theorem blind_clearMain : Blind (clearMain (P := P) r) := by
  intro log p
  cases hFilm : p.films.main with
  | none => simp [clearMain, forgetSamples, behind, hFilm]
  | some film =>
      cases hClear : r.clear film <;>
        simp [clearMain, forgetSamples, behind, note, hFilm, hClear]

/-- Preparing the main view does not read the record. -/
theorem blind_prepareMain (restarted : Bool) :
    Blind fun p : Pipeline P F => p.prepareMain r restarted := by
  have hClear := (blind_clearMain r).proceed fun _ => .pure (Except.ok false)
  have hRest := hClear.choose (c := fun _ => restarted) (.pure (Except.ok false)) fun _ _ => .rfl
  refine ((blind_reallocate r).choose (c := fun p => p.resolution ≠ p.view.extent ||
    (restarted && p.view.refused)) hRest fun _ _ => .rfl).congr fun p => ?_
  unfold prepareMain
  rcases p.clearMain r with ⟨e | done, q⟩ <;> rfl

/-- A sample of the main view does not read the record. -/
theorem blind_sampleMain (i : Installed P) (film : F) :
    Blind fun p : Pipeline P F => p.sampleMain r i film := by
  intro log p
  cases hFrame : Frame.main i.scene p.settings p.view.extent p.view.samples p.rng with
  | error e => simp [sampleMain, behind, hFrame]
  | ok frame =>
      cases hSample : r.sample i.program frame.1 film <;>
        simp [sampleMain, behind, note, hFrame, hSample]

/-- The announcement is made of samples and budget, and not of the record. -/
theorem announce_behind (log : List (Request P)) (p : Pipeline P F) :
    (p.behind log).announce = p.announce.behind log := by
  by_cases hDue : p.budget ≤ p.view.samples && !p.view.converged
  · rw [show p.announce = _ from if_pos hDue]
    exact if_pos hDue
  · rw [show p.announce = p from if_neg hDue]
    exact if_neg hDue

/-- Announcing does not read the record. -/
theorem blind_announce {α : Type} (x : α) : Blind fun p : Pipeline P F => (x, p.announce) :=
  (Blind.pure x).first announce announce_behind

/-- Rendering the main view does not read the record. -/
theorem blind_renderMain : Blind (renderMain (P := P) r) := by
  intro log p
  cases hInstalled : p.installed with
  | none => simp [renderMain, hInstalled]
  | some i =>
      cases hFilm : p.films.main with
      | none => simp [renderMain, hInstalled, hFilm]
      | some film =>
          have hSample := ((blind_sampleMain r i film).proceed fun samples =>
            blind_announce (.ok (some samples))).choose (c := fun p => p.view.samples < p.budget)
            (blind_announce (.ok none)) fun _ _ => .rfl
          have hRender (q : Pipeline P F) (hHere : q.installed = some i)
              (hMain : q.films.main = some film) : q.renderMain r =
                if q.view.samples < q.budget then Pipeline.proceed (q.sampleMain r i film)
                  fun samples q => (.ok (some samples), q.announce)
                else (.ok none, q.announce) := by
            simp only [renderMain, hHere, hMain]
            rcases q.sampleMain r i film with ⟨e | samples, o⟩ <;> rfl
          rw [hRender p hInstalled hFilm, hRender (p.behind log) hInstalled hFilm]
          exact hSample log p

/-! ### Thumbnails -/

/-- Looking for a film of thumbnails does not read the record. -/
theorem blind_ensureIconFilm : Blind (ensureIconFilm (P := P) r) := by
  intro log p
  by_cases hFits : p.films.icon.map r.extent = some p.iconExtent
  · rw [show p.ensureIconFilm r = _ from if_pos hFits]
    exact if_pos hFits
  · rw [iconExtent] at hFits
    cases hRefused : p.icon.refused with
    | true =>
        rw [show p.ensureIconFilm r = _ from (if_neg hFits).trans (if_pos hRefused)]
        exact (if_neg hFits).trans (if_pos hRefused)
    | false =>
        cases hFilm : r.allocate .icon p.iconExtent with
        | ok film =>
            rw [iconExtent] at hFilm
            simp [ensureIconFilm, behind, note, iconExtent, hFits, hRefused, hFilm]
        | error e =>
            rw [iconExtent] at hFilm
            cases hResource : e.isResource <;>
              simp [ensureIconFilm, behind, note, iconExtent, hFits, hRefused, hFilm, hResource]

/-- Clearing the film of thumbnails does not read the record. -/
theorem blind_clearIcon : Blind (clearIcon (P := P) r) := by
  intro log p
  cases hFilm : p.films.icon with
  | none => simp [clearIcon, hFilm]
  | some film =>
      cases hClear : r.clear film <;> simp [clearIcon, behind, note, hFilm, hClear]

/-- Activating a thumbnail does not read the record. -/
theorem blind_activate (t : Thumbnail) (preview : Int) :
    Blind fun p : Pipeline P F => p.activate r t preview := by
  have hStart := (blind_clearIcon r).proceed fun _ => (Blind.pure (Except.ok ())).first
    (fun p => { p with active := some ⟨t, preview, 0⟩ }) fun _ _ => rfl
  have hWait := (Blind.pure (P := P) (F := F) (Except.ok (ε := Failure) ())).first
    (fun p => { p with queue := t :: p.queue }) fun _ _ => rfl
  refine ((blind_ensureIconFilm r).proceed fun ready =>
    hStart.choose (c := fun _ => ready) hWait fun _ _ => .rfl).congr fun p => ?_
  unfold activate
  rcases p.ensureIconFilm r with ⟨e | _ | _, q⟩
  · rfl
  · rfl
  · dsimp only [Pipeline.proceed]
    rcases q.clearIcon r with ⟨e | done, o⟩ <;> rfl

/-- Going through the queue does not read the record. The induction is on the queue. -/
theorem blind_primeFrom (scene : Scene) (waiting : List Thumbnail) :
    Blind (P := P) (F := F) (primeFrom r scene waiting) := by
  induction waiting with
  | nil =>
      exact (Blind.pure (Except.ok ())).first (fun p => { p with queue := [] })
        fun _ _ => rfl
  | cons t rest ih =>
      intro log p
      cases hPreview : t.subject.preview? scene with
      | none =>
          simp only [primeFrom, hPreview]
          exact ih log (p.emit (.iconDropped t.id t.subject.dropReason))
      | some preview =>
          simp only [primeFrom, hPreview]
          exact blind_activate r t preview log { p with queue := rest }

/-- Looking for the next thumbnail does not read the record. -/
theorem blind_prime : Blind (prime (P := P) r) := by
  intro log p
  cases hInstalled : p.installed with
  | none => simp [prime, hInstalled]
  | some i =>
      simp only [prime, installed_behind, hInstalled]
      exact blind_primeFrom r i.scene p.queue log p

/-- Looking for a thumbnail where none is active does not read the record. -/
theorem blind_primeIfIdle : Blind (primeIfIdle (P := P) r) :=
  (blind_prime r).choose (.pure (Except.ok ())) fun _ _ => .rfl

/-- Handing out a picture does not read the record. -/
theorem blind_finishIcon (a : ActiveThumbnail) (film : F) :
    Blind fun p : Pipeline P F => p.finishIcon r a film := by
  intro log p
  cases hRead : r.read film with
  | error e => simp [finishIcon, hRead]
  | ok image =>
      have hNext := (blind_prime r).proceed fun _ => .pure
        (Except.ok (IconStep.mk (some (a.thumbnail.id, a.samples)) (some a.thumbnail.id)))
      have hFinish (q : Pipeline P F) : q.finishIcon r a film = Pipeline.proceed (prime r
          (emit { q.note (.read .icon) with active := none }
            (.iconFinished a.thumbnail.id image))) fun _ q =>
          (.ok ⟨some (a.thumbnail.id, a.samples), some a.thumbnail.id⟩, q) := by
        simp only [finishIcon, hRead]
        rcases prime r _ with ⟨e | done, o⟩ <;> rfl
      dsimp only
      rw [hFinish, hFinish, note_behind]
      exact hNext log (emit { p.note (.read .icon) with active := none }
        (.iconFinished a.thumbnail.id image))

/-- A sample of a thumbnail does not read the record. -/
theorem blind_sampleIcon (i : Installed P) (a : ActiveThumbnail) (film : F) :
    Blind fun p : Pipeline P F => p.sampleIcon r i a film := by
  intro log p
  cases hSample : r.sample i.program
      (Frame.icon i.scene a.preview p.settings p.icon.extent a.samples p.rng).1 film with
  | error e =>
      simp only [sampleIcon, behind, hSample]
      simp [note, behind]
  | ok film =>
      have hEnd (last : ActiveThumbnail) : Blind fun p : Pipeline P F =>
          if max p.settings.iconSamples 1 ≤ last.samples then p.finishIcon r last film
          else (Except.ok ⟨some (last.thumbnail.id, last.samples), none⟩, p) :=
        (blind_finishIcon r last film).choose (.pure (Except.ok _)) fun _ _ => .rfl
      have hEnded := hEnd { a with samples := a.samples + 1 } log
        { note { p with
            rng := (Frame.icon i.scene a.preview p.settings p.icon.extent a.samples p.rng).2 }
            (.sample .icon i
              (Frame.icon i.scene a.preview p.settings p.icon.extent a.samples p.rng).1) with
          films := p.films.insert .icon film
          active := some { a with samples := a.samples + 1 } }
      simp only [behind, note] at hEnded
      simp only [sampleIcon, behind, hSample, note, List.append_assoc]
      exact hEnded

/-- A tick of thumbnails does not read the record. -/
theorem blind_stepIcon : Blind (stepIcon (P := P) r) := by
  intro log p
  have hHere := blind_primeIfIdle r log p
  rcases hPrimed : p.primeIfIdle r with ⟨e | done, q⟩
  · rw [hPrimed] at hHere
    simp only [stepIcon, hPrimed, hHere, Prod.map]
    rfl
  · rw [hPrimed] at hHere
    simp only [stepIcon, hPrimed, hHere, Prod.map_apply, id, installed_behind, active_behind,
      films_behind]
    cases q.installed with
    | none => rfl
    | some i =>
        cases q.active with
        | none => rfl
        | some a =>
            cases q.films.icon with
            | none => rfl
            | some film => exact blind_sampleIcon r i a film log q

/-! ### Ticks -/

/-- A tick does not read the record, and it fails or not whatever was requested before. -/
theorem blind_tick : Blind (tick (P := P) r) := by
  have hTick (restarted : Bool) := (blind_prepareMain r restarted).proceed fun reallocated =>
    (blind_renderMain r).proceed fun mainSamples => (blind_stepIcon r).proceed fun step => .pure
      (Except.ok (TickReport.mk restarted reallocated mainSamples step.sampled step.finished))
  have hForm (p : Pipeline P F) : p.tick r =
      Pipeline.proceed (p.consumeRestart.2.prepareMain r p.restartPending) fun reallocated q =>
        Pipeline.proceed (q.renderMain r) fun mainSamples q =>
          Pipeline.proceed (q.stepIcon r) fun step q => (.ok ⟨p.restartPending, reallocated,
            mainSamples, step.sampled, step.finished⟩, q) := by
    unfold tick
    dsimp only [consumeRestart]
    rcases prepareMain r _ _ with ⟨e | reallocated, o⟩
    · rfl
    · dsimp only [Pipeline.proceed]
      rcases o.renderMain r with ⟨e | mainSamples, m⟩
      · rfl
      · dsimp only
        rcases m.stepIcon r with ⟨e | step, q⟩ <;> rfl
  intro log p
  rw [hForm, hForm]
  exact hTick p.restartPending log p.consumeRestart.2

/-- A run of ticks does not read the record. -/
theorem blind_runUntilConverged (ticks : Nat) :
    Blind (P := P) (F := F) (runUntilConverged r ticks) := by
  induction ticks with
  | zero => exact fun _ _ => rfl
  | succ n ih =>
      have hNext : Blind fun p : Pipeline P F => (Except.ok (ε := Failure) p.view.samples, p) :=
        fun _ _ => rfl
      refine ((blind_tick r).proceed fun _ => hNext.choose (c := fun p => p.view.converged) ih
        fun _ _ => .rfl).congr fun p => ?_
      rw [runUntilConverged]
      rcases p.tick r with ⟨e | report, q⟩ <;> rfl

/-! ### Commands -/

/-- Installing a scene does not read the record. A program that is kept is found in the
cache. -/
theorem blind_install (scene : Scene) :
    Blind fun p : Pipeline P F => p.install r scene := by
  intro log p
  cases hCached : p.cache.lookup scene.program.hash with
  | some program => simp [install, behind, use, restart, hCached]
  | none =>
      cases hBuild : r.build scene <;>
        simp [install, behind, note, use, restart, hCached, hBuild]

/-- Neither a scene nor its fault is taken in another way with a longer record. -/
theorem blind_installResult (result : Except CompileError Scene) :
    Blind fun p : Pipeline P F => p.installResult r result := by
  cases result with
  | error e => exact .pure (Except.error (Failure.compile e))
  | ok scene => exact blind_install r scene

/-- Reading the picture of the main view does not read the record. -/
theorem blind_readMain : Blind (readMain (P := P) r) := by
  intro log p
  cases hFilm : p.films.main <;> simp [readMain, hFilm]

/-- No command reads the record. -/
theorem blind_perform (c : Command) : Blind fun p : Pipeline P F => p.perform r c := by
  cases c with
  | restart | resize | setBudget | enqueue => exact fun _ _ => rfl
  | setGraph g => exact (blind_installResult r g.compile).map _
  | setTime g time =>
      intro log p
      cases hInstalled : p.installed with
      | none =>
          simp only [perform, setTime, installed_behind, hInstalled]
          exact (blind_installResult r (g.compileAt time)).map _ log p
      | some i =>
          simp only [perform, setTime, installed_behind, hInstalled]
          exact (blind_installResult r (i.scene.refresh g time)).map _ log p
  | install scene => exact (blind_install r scene).map _
  | tick => exact (blind_tick r).map _
  | runUntilConverged ticks => exact (blind_runUntilConverged r ticks).map _
  | readMain => exact (blind_readMain r).map _

/-- Any jobs lead to the same state with a longer record put in front. -/
theorem through_behind (log : List (Request P)) (p : Pipeline P F) (jobs : List (Job P F)) :
    (p.behind log).through jobs = (p.through jobs).behind log := by
  induction jobs generalizing p with
  | nil => rfl
  | cons c rest ih =>
      have hHere := congrArg Prod.snd (blind_perform c.renderer c.command log p)
      exact (congrArg (through · rest) hHere).trans (ih _)

/-- Any jobs are answered alike with a longer record, failures included. -/
theorem replies_behind (log : List (Request P)) (p : Pipeline P F) (jobs : List (Job P F)) :
    (p.behind log).replies jobs = p.replies jobs := by
  induction jobs generalizing p with
  | nil => rfl
  | cons c rest ih =>
      have hHere := blind_perform c.renderer c.command log p
      simp only [replies, Job.perform, hHere, Prod.map, id, ih]

/-- Two pipelines that differ in their requests only cannot be told apart. -/
theorem same_of_unlogged {p q : Pipeline P F} (hSame : p.unlogged = q.unlogged)
    (later : List (Job P F)) :
    p.replies later = q.replies later ∧
      (p.through later).unlogged = (q.through later).unlogged := by
  constructor
  · rw [← behind_unlogged p, ← behind_unlogged q, replies_behind, replies_behind, hSame]
  · rw [← behind_unlogged p, ← behind_unlogged q, through_behind, through_behind,
      unlogged_behind, unlogged_behind, hSame]

end PathTracer.Pipeline
