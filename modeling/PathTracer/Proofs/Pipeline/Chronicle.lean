import Mathlib.Data.List.Chain
import Mathlib.Data.List.DropRight
import PathTracer.Proofs.Pipeline.Record
import PathTracer.Proofs.Pipeline.Step

/-! The chronicle of the main view: in which order it was reset, got samples, missed them
and told that it has them all. The state of the view is what its chronicle says. -/
namespace PathTracer

/-- The count of samples with which an event says that the main view has converged. -/
def Event.converged? : Event → Option Nat
  | .converged samples => some samples
  | _ => none

namespace Pipeline

/-- What happens to the main view. -/
inductive Moment where
  /-- It has its samples, and this is told. -/
  | converged (samples : Nat)
  /-- A sample is added. -/
  | sampled
  /-- The samples are forgotten, with a new film or without one. -/
  | reset
  /-- A sample is due and cannot be rendered. -/
  | missed
  deriving Repr, DecidableEq

/-- The count of samples that is told. -/
def Moment.told? : Moment → Option Nat
  | .converged samples => some samples
  | _ => none

/-- The moments after the last sample or reset. -/
def recent (past : List Moment) : List Moment :=
  past.rtakeWhile fun moment => moment ≠ .sampled && moment ≠ .reset

/-- The number of samples after the last reset. -/
def sampleCount (past : List Moment) : Nat :=
  (past.rtakeWhile fun moment => moment ≠ .reset).count .sampled

variable {P F : Type} (r : Renderer P F)

/-! ### The chronicle -/

/-- What happens while the film of the main view is prepared. -/
def preparation (p : Pipeline P F) (restarted : Bool) : List Moment :=
  if p.resolution ≠ p.view.extent || (restarted && p.view.refused) then [.reset]
  else if restarted then
    match p.films.main with
    | none => [.reset]
    | some film =>
      match r.clear film with
      | .ok _ => [.reset]
      | .error _ => []
  else []

/-- What happens when the main view may tell that it has its samples. -/
def announcement (p : Pipeline P F) : List Moment :=
  if p.budget ≤ p.view.samples && !p.view.converged then [.converged p.view.samples] else []

/-- What happens while the main view is rendered. -/
def rendering (p : Pipeline P F) : List Moment :=
  match p.installed, p.films.main with
  | some i, some film =>
    if p.view.samples < p.budget then
      match p.sampleMain r i film with
      | (.error _, _) => [.missed]
      | (.ok _, p) => .sampled :: p.announcement
    else p.announcement
  | _, _ => []

/-- What happens to the main view in a tick. -/
def tickMoments (p : Pipeline P F) : List Moment :=
  let (restarted, p) := p.consumeRestart
  p.preparation r restarted ++
    match p.prepareMain r restarted with
    | (.error _, _) => []
    | (.ok _, p) => p.rendering r

/-- What happens to the main view in ticks until it has converged. -/
def runMoments : Nat → Pipeline P F → List Moment
  | 0, _ => []
  | n + 1, p =>
    p.tickMoments r ++
      match p.tick r with
      | (.error _, _) => []
      | (.ok _, p) => if p.view.converged then [] else runMoments n p

/-- What happens to the main view in a job. -/
def Job.moments (c : Job P F) (p : Pipeline P F) : List Moment :=
  match c.command with
  | .tick => p.tickMoments c.renderer
  | .runUntilConverged ticks => runMoments c.renderer ticks p
  | _ => []

/-- What happens to the main view in some jobs. -/
def chronicle (p : Pipeline P F) : List (Job P F) → List Moment
  | [] => []
  | c :: rest => c.moments p ++ chronicle (c.perform p).2 rest

/-- The chronicle of more jobs goes on from where the earlier ones have led. -/
theorem chronicle_append (p : Pipeline P F) (done more : List (Job P F)) :
    p.chronicle (done ++ more) = p.chronicle done ++ (p.through done).chronicle more := by
  induction done generalizing p with
  | nil => rfl
  | cons c rest ih =>
      rw [List.cons_append, chronicle, chronicle, ih, List.append_assoc]
      rfl

/-! ### What a chronicle says -/

/-- Nothing is recent after a sample. -/
@[simp]
theorem recent_sampled (past : List Moment) : recent (past ++ [Moment.sampled]) = [] :=
  List.rtakeWhile_concat_neg _ _ _ (by decide)

/-- Nothing is recent after a reset. -/
@[simp]
theorem recent_reset (past : List Moment) : recent (past ++ [Moment.reset]) = [] :=
  List.rtakeWhile_concat_neg _ _ _ (by decide)

/-- A missed sample does not start anew. -/
@[simp]
theorem recent_missed (past : List Moment) :
    recent (past ++ [Moment.missed]) = recent past ++ [Moment.missed] :=
  List.rtakeWhile_concat_pos _ _ _ (by decide)

/-- Being told of convergence does not start anew. -/
@[simp]
theorem recent_converged (past : List Moment) (samples : Nat) :
    recent (past ++ [Moment.converged samples]) = recent past ++ [Moment.converged samples] :=
  List.rtakeWhile_concat_pos _ _ _ (by simp)

/-- A reset starts the count at zero. -/
@[simp]
theorem sampleCount_reset (past : List Moment) : sampleCount (past ++ [Moment.reset]) = 0 := by
  rw [sampleCount, List.rtakeWhile_concat_neg _ _ _ (by decide)]
  rfl

/-- A sample counts one. -/
@[simp]
theorem sampleCount_sampled (past : List Moment) :
    sampleCount (past ++ [Moment.sampled]) = sampleCount past + 1 := by
  rw [sampleCount, List.rtakeWhile_concat_pos _ _ _ (by decide), List.count_append]
  rfl

/-- Nothing but samples and resets changes the count. -/
theorem sampleCount_concat (past : List Moment) {moment : Moment} (hSampled : moment ≠ .sampled)
    (hReset : moment ≠ .reset) : sampleCount (past ++ [moment]) = sampleCount past := by
  rw [sampleCount, List.rtakeWhile_concat_pos _ _ _ (by simpa using hReset), List.count_append,
    List.count_singleton, if_neg (by simpa using hSampled)]
  rfl

/-- The state of the main view as a chronicle tells it. -/
structure Chronicled (past : List Moment) (p : Pipeline P F) : Prop where
  told : p.events.filterMap Event.converged? = past.filterMap Moment.told?
  samples : p.view.samples = sampleCount past
  /-- The last that happened is that the view told that it has its samples. -/
  flag : p.view.converged = (past.getLast?.bind Moment.told?).isSome
  recent : ∀ n, .converged n ∈ recent past → n = p.view.samples
  spaced : past.IsChain fun a b => a.told?.isSome → b.told? = none

variable {r} {past : List Moment} {p q : Pipeline P F}

/-- Two announcements never stand next to each other, as long as none is made while the view
is converged. -/
theorem Chronicled.spaced_concat (h : Chronicled past p) {moment : Moment}
    (hNext : p.view.converged = true → moment.told? = none) :
    (past ++ [moment]).IsChain fun a b => a.told?.isSome → b.told? = none := by
  refine List.isChain_append.mpr ⟨h.spaced, List.isChain_singleton _, ?_⟩
  intro last hLast first hFirst hTold
  cases hFirst
  refine hNext ?_
  rw [h.flag, hLast]
  exact hTold

/-- Whatever resets the view without an event is chronicled as a reset. -/
theorem Chronicled.reset (h : Chronicled past p) (hEvents : q.events = p.events)
    (hSamples : q.view.samples = 0) (hConverged : q.view.converged = false) :
    Chronicled (past ++ [Moment.reset]) q where
  told := by rw [hEvents, h.told, List.filterMap_append]; exact (List.append_nil _).symm
  samples := by rw [hSamples, sampleCount_reset]
  flag := by rw [hConverged, List.getLast?_concat]; rfl
  recent n hMem := by rw [recent_reset] at hMem; cases hMem
  spaced := h.spaced_concat fun _ => rfl

/-- Whatever adds a sample without an event is chronicled as a sample. -/
theorem Chronicled.sampled (h : Chronicled past p) (hEvents : q.events = p.events)
    (hSamples : q.view.samples = p.view.samples + 1) (hConverged : q.view.converged = false) :
    Chronicled (past ++ [Moment.sampled]) q where
  told := by rw [hEvents, h.told, List.filterMap_append]; exact (List.append_nil _).symm
  samples := by rw [hSamples, sampleCount_sampled, h.samples]
  flag := by rw [hConverged, List.getLast?_concat]; rfl
  recent n hMem := by rw [recent_sampled] at hMem; cases hMem
  spaced := h.spaced_concat fun _ => rfl

/-- Where convergence is taken back and no sample is added, one was missed. This is the
moment that makes a second announcement possible. -/
theorem Chronicled.missed (h : Chronicled past p) (hEvents : q.events = p.events)
    (hSamples : q.view.samples = p.view.samples) (hConverged : q.view.converged = false) :
    Chronicled (past ++ [Moment.missed]) q where
  told := by rw [hEvents, h.told, List.filterMap_append]; exact (List.append_nil _).symm
  samples := by rw [hSamples, sampleCount_concat _ (by decide) (by decide), h.samples]
  flag := by rw [hConverged, List.getLast?_concat]; rfl
  recent n hMem := by
    rw [recent_missed, List.mem_append] at hMem
    rw [hSamples]
    exact hMem.elim (h.recent n) fun hLast => by cases List.mem_singleton.mp hLast
  spaced := h.spaced_concat fun _ => rfl

/-- An announcement is chronicled as the moment it is made, if it is made. -/
theorem Chronicled.announce (h : Chronicled past p) :
    Chronicled (past ++ p.announcement) p.announce := by
  unfold announcement Pipeline.announce
  split
  · rename_i hDue
    have hSilent : p.view.converged = false := by simpa using (Bool.and_eq_true_iff.mp hDue).2
    refine ⟨?_, ?_, ?_, fun n hMem => ?_, h.spaced_concat fun hTold => ?_⟩
    · simp only [emit, List.filterMap_append, h.told]
      rfl
    · rw [sampleCount_concat _ (by simp) (by simp), ← h.samples]
      rfl
    · rw [List.getLast?_concat]
      rfl
    · rw [recent_converged, List.mem_append] at hMem
      obtain hMem | hMem := hMem
      · exact h.recent n hMem
      · cases List.mem_singleton.mp hMem
        rfl
    · rw [hSilent] at hTold
      cases hTold
  · rwa [List.append_nil]

/-! ### One tick -/

/-- Reallocating takes samples and convergence back and tells nothing. -/
theorem reallocate_reset (p : Pipeline P F) :
    (p.reallocate r).2.events = p.events ∧ (p.reallocate r).2.view.samples = 0 ∧
      (p.reallocate r).2.view.converged = false := by
  unfold reallocate
  dsimp only
  split
  · exact ⟨rfl, rfl, rfl⟩
  · split
    · exact ⟨rfl, rfl, rfl⟩
    · split <;> exact ⟨rfl, rfl, rfl⟩

/-- Preparing the main view is chronicled as a reset, where it resets, and as nothing
otherwise. -/
theorem Chronicled.prepareMain (h : Chronicled past p) (restarted : Bool) :
    Chronicled (past ++ p.preparation r restarted) (p.prepareMain r restarted).2 := by
  unfold preparation Pipeline.prepareMain
  split
  · obtain ⟨hEvents, hSamples, hConverged⟩ := reallocate_reset (r := r) p
    exact h.reset hEvents hSamples hConverged
  · split
    · cases hFilm : p.films.main with
      | none =>
          simp only [clearMain, hFilm]
          exact h.reset rfl rfl rfl
      | some film =>
          cases hClear : r.clear film with
          | ok cleared =>
              simp only [clearMain, hFilm, hClear]
              exact h.reset rfl rfl rfl
          | error e =>
              simp only [clearMain, hFilm, hClear, List.append_nil]
              exact ⟨h.told, h.samples, h.flag, h.recent, h.spaced⟩
    · rwa [List.append_nil]

/-- A sample of the main view is chronicled as one, and as missed where the renderer fails.
-/
theorem Chronicled.sampleMain (h : Chronicled past p) (i : Installed P) (film : F) :
    Chronicled (past ++ match p.sampleMain r i film with
      | (.error _, _) => [.missed]
      | (.ok _, _) => [.sampled]) (p.sampleMain r i film).2 := by
  cases hFrame : Frame.main i.scene p.settings p.view.extent p.view.samples p.rng with
  | error e =>
      simp only [Pipeline.sampleMain, hFrame]
      exact h.missed rfl rfl rfl
  | ok frame =>
      cases hSample : r.sample i.program frame.1 film with
      | error e =>
          simp only [Pipeline.sampleMain, hFrame, hSample]
          exact h.missed rfl rfl rfl
      | ok sampled =>
          simp only [Pipeline.sampleMain, hFrame, hSample]
          exact h.sampled rfl rfl rfl

/-- Rendering is chronicled: a sample that was due, added or missed, and then the
announcement. -/
theorem Chronicled.renderMain (h : Chronicled past p) :
    Chronicled (past ++ p.rendering r) (p.renderMain r).2 := by
  cases hInstalled : p.installed with
  | none => simpa only [rendering, Pipeline.renderMain, hInstalled, List.append_nil]
  | some i =>
      cases hFilm : p.films.main with
      | none => simpa only [rendering, Pipeline.renderMain, hInstalled, hFilm, List.append_nil]
      | some film =>
          simp only [rendering, Pipeline.renderMain, hInstalled, hFilm]
          split
          · have hSample := h.sampleMain (r := r) i film
            generalize p.sampleMain r i film = result at hSample ⊢
            obtain ⟨e | samples, q⟩ := result
            · exact hSample
            · have hEnd := Chronicled.announce hSample
              rw [List.append_assoc] at hEnd
              exact hEnd
          · exact h.announce

/-- The main view is as it was, and nothing was told about it. -/
structure Spared (p q : Pipeline P F) : Prop where
  installed : q.installed = p.installed
  budget : q.budget = p.budget
  film : q.films.main = p.films.main
  view : q.view = p.view
  told : q.events.filterMap Event.converged? = p.events.filterMap Event.converged?

/-- What spares the main view after what spares it spares it. -/
theorem Spared.after {o : Pipeline P F} (hNext : Spared p q) (h : Spared o p) : Spared o q :=
  ⟨hNext.installed.trans h.installed, hNext.budget.trans h.budget, hNext.film.trans h.film,
    hNext.view.trans h.view, hNext.told.trans h.told⟩

theorem Spared.refl : Spared p p :=
  ⟨rfl, rfl, rfl, rfl, rfl⟩

/-- An event of another kind is no announcement. -/
theorem spared_emit {event : Event} (h : event.converged? = none) : Spared p (p.emit event) := by
  refine ⟨rfl, rfl, rfl, rfl, ?_⟩
  simp [emit, h]

/-- Each step of looking for a thumbnail spares the main view. -/
theorem PrimeStep.spared (h : PrimeStep r p q) : Spared p q := by
  cases h with
  | drop => exact ⟨rfl, rfl, rfl, rfl, (spared_emit rfl).told⟩
  | _ => exact ⟨rfl, rfl, rfl, rfl, rfl⟩

/-- Looking for a thumbnail spares the main view. -/
theorem prime_spared (hActive : p.active = none) : Spared p (p.prime r).2 :=
  preserves_of_step (Q := Spared p) (fun hStep hBefore => hStep.spared.after hBefore)
    (prime_steps r hActive) .refl

/-- Handing out a picture spares the main view. -/
theorem finishIcon_spared (a : ActiveThumbnail) (film : F) :
    Spared p (p.finishIcon r a film).2 := by
  unfold finishIcon
  dsimp only
  split
  · exact ⟨rfl, rfl, rfl, rfl, rfl⟩
  · rename_i image _
    have hEmit : Spared p (emit { p.note (.read .icon) with active := none }
        (.iconFinished a.thumbnail.id image)) :=
      .after (spared_emit rfl) ⟨rfl, rfl, rfl, rfl, rfl⟩
    have hPrime := (prime_spared (r := r) rfl).after hEmit
    generalize prime r _ = result at hPrime ⊢
    obtain ⟨answer, q⟩ := result
    cases answer <;> exact hPrime

/-- A sample of a thumbnail spares the main view. -/
theorem sampleIcon_spared (i : Installed P) (a : ActiveThumbnail) (film : F) :
    Spared p (p.sampleIcon r i a film).2 := by
  unfold sampleIcon
  dsimp only
  split
  · exact ⟨rfl, rfl, rfl, rfl, rfl⟩
  · split
    · exact .after (finishIcon_spared _ _) ⟨rfl, rfl, rfl, rfl, rfl⟩
    · exact ⟨rfl, rfl, rfl, rfl, rfl⟩

/-- All that is done for thumbnails in a tick spares the main view. -/
theorem stepIcon_spared (p : Pipeline P F) : Spared p (p.stepIcon r).2 := by
  have hPrime : Spared p (p.primeIfIdle r).2 := by
    unfold primeIfIdle
    split
    · rename_i hActive
      exact prime_spared (Option.isNone_iff_eq_none.mp hActive)
    · exact .refl
  unfold stepIcon
  generalize p.primeIfIdle r = result at hPrime
  obtain ⟨_ | _, o⟩ := result
  · exact hPrime
  · dsimp only
    split
    · rename_i i a film _ _ _
      exact (sampleIcon_spared i a film).after hPrime
    · exact hPrime

/-- What spares the main view adds nothing to its chronicle. -/
theorem Chronicled.spare (h : Chronicled past p) (hSame : Spared p q) : Chronicled past q where
  told := hSame.told.trans h.told
  samples := by rw [hSame.view, h.samples]
  flag := by rw [hSame.view, h.flag]
  recent n hMem := by rw [hSame.view, ← h.recent n hMem]
  spaced := h.spaced

/-- The moments of a tick are those of preparing and, unless that failed, those of
rendering. -/
theorem tickMoments_eq (r : Renderer P F) (p : Pipeline P F) : p.tickMoments r =
    p.consumeRestart.2.preparation r p.restartPending ++
      match p.consumeRestart.2.prepareMain r p.restartPending with
      | (.error _, _) => []
      | (.ok _, p) => p.rendering r :=
  rfl

/-- A tick that fails in preparing does not render. -/
theorem tickMoments_of_error {e : Failure} {o : Pipeline P F}
    (hPrepare : p.consumeRestart.2.prepareMain r p.restartPending = (.error e, o)) :
    p.tickMoments r = p.consumeRestart.2.preparation r p.restartPending := by
  rw [tickMoments_eq, hPrepare, List.append_nil]

/-- A tick that is prepared renders. -/
theorem tickMoments_of_ok {reallocated : Bool} {o : Pipeline P F}
    (hPrepare : p.consumeRestart.2.prepareMain r p.restartPending = (.ok reallocated, o)) :
    p.tickMoments r =
      p.consumeRestart.2.preparation r p.restartPending ++ o.rendering r := by
  rw [tickMoments_eq, hPrepare]

/-- Consuming a pending restart and preparing is chronicled. -/
theorem Chronicled.prepared (h : Chronicled past p) :
    Chronicled (past ++ p.consumeRestart.2.preparation r p.restartPending)
      (p.consumeRestart.2.prepareMain r p.restartPending).2 := by
  have hStart : Chronicled past p.consumeRestart.2 :=
    ⟨h.told, h.samples, h.flag, h.recent, h.spaced⟩
  exact hStart.prepareMain p.restartPending

/-- A tick is chronicled, and so is one that fails on its way. -/
theorem Chronicled.tick (h : Chronicled past p) :
    Chronicled (past ++ p.tickMoments r) (p.tick r).2 := by
  have hPrepared := h.prepared (r := r)
  have hRun := p.tickRun r
  generalize p.tick r = result at hRun ⊢
  cases hRun with
  | unprepared hPrepare =>
      rw [hPrepare] at hPrepared
      rwa [tickMoments_of_error hPrepare]
  | unrendered hPrepare hRender =>
      rw [hPrepare] at hPrepared
      have hRendered := hPrepared.renderMain (r := r)
      rw [hRender] at hRendered
      rwa [tickMoments_of_ok hPrepare, ← List.append_assoc]
  | unstepped hPrepare hRender hIcon | done hPrepare hRender hIcon =>
      rw [hPrepare] at hPrepared
      have hRendered := hPrepared.renderMain (r := r)
      rw [hRender] at hRendered
      have hStepped := hRendered.spare (stepIcon_spared (r := r) _)
      rw [hIcon] at hStepped
      rwa [tickMoments_of_ok hPrepare, ← List.append_assoc]

/-- A run of ticks is chronicled tick by tick. -/
theorem Chronicled.runUntilConverged (h : Chronicled past p) (ticks : Nat) :
    Chronicled (past ++ runMoments r ticks p) (p.runUntilConverged r ticks).2 := by
  induction ticks generalizing past p with
  | zero => rwa [runMoments, List.append_nil]
  | succ n ih =>
      have hTick := h.tick (r := r)
      rw [runMoments, Pipeline.runUntilConverged, ← List.append_assoc]
      generalize p.tick r = ticked at hTick ⊢
      obtain ⟨e | report, q⟩ := ticked
      · rwa [List.append_nil]
      · dsimp only
        split
        · rwa [List.append_nil]
        · exact ih hTick

/-! ### Runs -/

/-- Every job is chronicled: those that do not tick have no moments. -/
theorem Chronicled.perform (h : Chronicled past p) (c : Job P F) :
    Chronicled (past ++ c.moments p) (c.perform p).2 := by
  have hSame {q : Pipeline P F} (hView : q.view = p.view) (hEvents : q.events = p.events) :
      Chronicled (past ++ []) q := by
    rw [List.append_nil]
    exact ⟨by rw [hEvents, h.told], by rw [hView, h.samples], by rw [hView, h.flag],
      fun n hMem => by rw [hView, ← h.recent n hMem], h.spaced⟩
  obtain ⟨r, command⟩ := c
  have hInstall (result : Except CompileError Scene) :
      (p.installResult r result).2.view = p.view ∧
        (p.installResult r result).2.events = p.events := by
    cases result with
    | error e => exact ⟨rfl, rfl⟩
    | ok scene =>
        simp only [installResult, install]
        split
        · exact ⟨rfl, rfl⟩
        · split <;> exact ⟨rfl, rfl⟩
  cases command with
  | restart | resize | setBudget | enqueue => exact hSame rfl rfl
  | setGraph g => exact hSame (hInstall g.compile).1 (hInstall g.compile).2
  | setTime g time => exact hSame (hInstall _).1 (hInstall _).2
  | install scene => exact hSame (hInstall (.ok scene)).1 (hInstall (.ok scene)).2
  | tick => exact h.tick
  | runUntilConverged ticks => exact h.runUntilConverged ticks
  | readMain =>
      refine hSame ?_ ?_ <;>
      · simp only [Job.perform, Pipeline.perform, readMain]
        split <;> rfl

/-- At the start there is nothing to chronicle. -/
theorem chronicled_start (settings : Settings) (unseeded : ChaCha) :
    Chronicled [] (start settings unseeded : Pipeline P F) :=
  ⟨rfl, rfl, rfl, nofun, List.isChain_nil⟩

/-- The chronicle of any jobs tells the events, the samples and the convergence that they
lead to. The induction is on the jobs. -/
theorem chronicled_through (settings : Settings) (unseeded : ChaCha) (jobs : List (Job P F)) :
    Chronicled ((start settings unseeded : Pipeline P F).chronicle jobs)
      ((start settings unseeded).through jobs) := by
  induction jobs using List.reverseRecOn with
  | nil => exact chronicled_start settings unseeded
  | append_singleton done c ih =>
      rw [chronicle_append, through_append, chronicle, chronicle, List.append_nil]
      exact ih.perform c

end Pipeline

end PathTracer
