import PathTracer.Proofs.Pipeline.Reel

/-! Runs of a pipeline while memory comes and goes. Samples, films and counters
stay in step, the main view has the requested extent after each tick, and its
samples show the scene of the last tick. -/
namespace PathTracer.Pipeline

/-! ### Failures -/

section Failures

variable (limit : Nat) (room : Room)

/-- A tracing renderer never fails to reallocate: where there is no memory for a film, the
pipeline goes on without one. -/
theorem reallocate_ok (p : Pipeline Tracer Film) :
    ∃ answer, (p.reallocate (.tracingIn limit room)).1 = .ok answer := by
  unfold reallocate
  dsimp only
  split
  · exact ⟨_, rfl⟩
  · split
    · exact ⟨_, rfl⟩
    · rename_i e hFault
      rw [if_pos (Film.isResource_of_allocate hFault)]
      exact ⟨_, rfl⟩

/-- Clearing the main view does not fail, with or without a film. -/
theorem clearMain_ok (p : Pipeline Tracer Film) :
    (p.clearMain (.tracingIn limit room)).1 = .ok () := by
  unfold clearMain
  split <;> rfl

/-- The main view is prepared without a fault in whatever state the pipeline is. -/
theorem prepareMain_ok (p : Pipeline Tracer Film) (restarted : Bool) :
    ∃ answer, (p.prepareMain (.tracingIn limit room) restarted).1 = .ok answer := by
  unfold prepareMain
  split
  · exact reallocate_ok limit room p
  · split
    · have hClear := clearMain_ok limit room p
      generalize p.clearMain _ = result at hClear ⊢
      obtain ⟨answer, q⟩ := result
      cases hClear
      exact ⟨_, rfl⟩
    · exact ⟨_, rfl⟩

/-- Installing a scene does not fail. -/
theorem install_ok (p : Pipeline Tracer Film) (scene : Scene) :
    (p.install (.tracingIn limit room) scene).1 = .ok () := by
  unfold install
  split <;> rfl

/-- Looking for a film of thumbnails does not fail, though it may find none. -/
theorem ensureIconFilm_ok (p : Pipeline Tracer Film) :
    ∃ answer, (p.ensureIconFilm (.tracingIn limit room)).1 = .ok answer := by
  obtain ⟨_, hFound⟩ | ⟨_, hFound⟩ | ⟨_, _, hAllocate⟩ :=
    ensureIconFilm_cases (.tracingIn limit room) p
  · exact ⟨true, by rw [hFound]⟩
  · exact ⟨false, by rw [hFound]⟩
  · obtain ⟨film, _, hFound⟩ | ⟨e, _, _, hFound⟩ | ⟨e, hFault, hResource, _⟩ := hAllocate
    · exact ⟨true, by rw [hFound]⟩
    · exact ⟨false, by rw [hFound]⟩
    · rw [Film.isResource_of_allocate hFault] at hResource
      cases hResource

/-- Clearing the film of thumbnails does not fail. -/
theorem clearIcon_ok (p : Pipeline Tracer Film) :
    (p.clearIcon (.tracingIn limit room)).1 = .ok () := by
  unfold clearIcon
  split <;> rfl

/-- Activating a thumbnail does not fail. -/
theorem activate_ok (p : Pipeline Tracer Film) (t : Thumbnail) (preview : Int) :
    (p.activate (.tracingIn limit room) t preview).1 = .ok () := by
  unfold activate
  obtain ⟨answer, hFilm⟩ := ensureIconFilm_ok limit room p
  generalize p.ensureIconFilm _ = result at hFilm
  obtain ⟨_, q⟩ := result
  cases hFilm
  cases answer with
  | false => rfl
  | true =>
      dsimp only
      have hClear := clearIcon_ok limit room q
      generalize q.clearIcon _ = result at hClear
      obtain ⟨answer, o⟩ := result
      cases hClear
      rfl

/-- Going through the queue does not fail, whichever thumbnails the scene can show. -/
theorem primeFrom_ok (scene : Scene) (thumbnails : List Thumbnail) (p : Pipeline Tracer Film) :
    (primeFrom (.tracingIn limit room) scene thumbnails p).1 = .ok () := by
  induction thumbnails generalizing p with
  | nil => rfl
  | cons t rest ih =>
      rw [primeFrom]
      split
      · exact ih _
      · exact activate_ok limit room _ t _

/-- Looking for the next thumbnail does not fail. -/
theorem prime_ok (p : Pipeline Tracer Film) : (p.prime (.tracingIn limit room)).1 = .ok () := by
  unfold prime
  split
  · rfl
  · exact primeFrom_ok limit room _ _ p

/-- Looking for a thumbnail where none is active does not fail. -/
theorem primeIfIdle_ok (p : Pipeline Tracer Film) :
    (p.primeIfIdle (.tracingIn limit room)).1 = .ok () := by
  unfold primeIfIdle
  split
  · exact prime_ok limit room p
  · rfl

/-- Handing out a picture does not fail, since the film that is read is there. -/
theorem finishIcon_ok (p : Pipeline Tracer Film) (a : ActiveThumbnail) (film : Film) :
    ∃ answer, (p.finishIcon (.tracingIn limit room) a film).1 = .ok answer := by
  unfold finishIcon
  dsimp only
  split
  · rename_i e hRead
    cases hRead
  · rename_i image hRead
    have hPrime := prime_ok limit room (emit { p.note (.read .icon) with active := none }
      (.iconFinished a.thumbnail.id image))
    generalize prime _ _ = result at hPrime
    obtain ⟨answer, q⟩ := result
    cases hPrime
    exact ⟨_, rfl⟩

variable {limit room} {start : Target → Reel Tracer}

/-- A thumbnail gets its sample without a fault in every state that is in step: the sample
has the index that its film asks for. -/
theorem sampleIcon_ok {p : Pipeline Tracer Film} (hStep : InStep (.tracingIn limit room) start p)
    (i : Installed Tracer) (a : ActiveThumbnail) {film : Film} (hFilm : p.films.icon = some film) :
    ∃ answer, (p.sampleIcon (.tracingIn limit room) i a film).1 = .ok answer := by
  unfold sampleIcon
  cases hFrame : Frame.icon i.scene a.preview p.settings p.icon.extent a.samples p.rng with
  | mk frame rng =>
      obtain ⟨_, hExtent⟩ := hStep.icon.film film hFilm
      obtain ⟨sampled, hRender⟩ :=
        exists_render ((extent_of_frame_icon hFrame).1.trans hExtent.symm) i.program
      have hSample : (Renderer.tracingIn limit room).sample i.program frame film = .ok sampled :=
        hRender
      dsimp only
      rw [hSample]
      dsimp only
      split
      · exact finishIcon_ok limit room _ _ _
      · exact ⟨_, rfl⟩

/-- The thumbnails of a tick never fail. -/
theorem stepIcon_ok {p : Pipeline Tracer Film} (hStep : InStep (.tracingIn limit room) start p) :
    ∃ answer, (p.stepIcon (.tracingIn limit room)).1 = .ok answer := by
  unfold stepIcon
  have hPrime := primeIfIdle_ok limit room p
  have hNext := (primeIfIdle_opening (.tracingIn limit room) (p := p) .refl).steps.inStep hStep
  generalize p.primeIfIdle _ = result at hPrime hNext
  obtain ⟨answer, o⟩ := result
  cases hPrime
  dsimp only
  split
  · rename_i i a film hInstalled hActive hFilm
    exact sampleIcon_ok hNext i a hFilm
  · exact ⟨_, rfl⟩

/-- A scene without a camera is the only thing that can stop the main view. -/
theorem renderMain_error {p : Pipeline Tracer Film} {e : Failure}
    (hStep : InStep (.tracingIn limit room) start p)
    (h : (p.renderMain (.tracingIn limit room)).1 = .error e) : ∃ fault, e = .compile fault := by
  unfold renderMain at h
  split at h
  · rename_i i film hInstalled hFilm
    split at h
    · unfold sampleMain at h
      dsimp only at h
      cases hFrame : Frame.main i.scene p.settings p.view.extent p.view.samples p.rng with
      | error fault =>
          rw [hFrame] at h
          cases h
          unfold Frame.main at hFrame
          split at hFrame
          · cases hFrame
            exact ⟨_, rfl⟩
          · cases hFrame
      | ok result =>
          obtain ⟨frame, rng⟩ := result
          obtain ⟨_, hExtent, _⟩ := hStep.main.film film hFilm
          obtain ⟨sampled, hRender⟩ :=
            exists_render ((extent_of_frame_main hFrame).1.trans hExtent.symm) i.program
          have hSample : (Renderer.tracingIn limit room).sample i.program frame film =
            .ok sampled := hRender
          rw [hFrame] at h
          dsimp only at h
          rw [hSample] at h
          cases h
    · cases h
  · cases h

end Failures

/-! ### Ticks -/

/-- The samples on the film of the main view show the scene in use. -/
def Current (r : Renderer Tracer Film) (start : Target → Reel Tracer) (p : Pipeline Tracer Film) :
    Prop :=
  ∀ film, p.films.main = some film →
    ∀ shot ∈ (p.reel r start .main).shots, some shot.installed = p.installed

section Ticks

variable {limit : Nat} {room : Room} {start : Target → Reel Tracer} {p q : Pipeline Tracer Film}

/-- A view without samples shows nothing that could be out of date. -/
theorem current_of_blank {r : Renderer Tracer Film} (h : (p.reel r start .main).shots = []) :
    Current r start p := by
  intro film _ shot hShot
  rw [h] at hShot
  cases hShot

/-- What leaves film, extent and scene of the main view alone keeps it current. -/
theorem SameMain.current {r : Renderer Tracer Film} (h : SameMain r start p q)
    (hCurrent : Current r start p) : Current r start q := by
  intro film hFilm
  rw [h.reel, h.installed]
  exact hCurrent film (h.film ▸ hFilm)

/-- Every step of the main view keeps it current, one that clears it and one that adds a
sample. -/
theorem MainStep.current (h : MainStep (.tracingIn limit room) p q)
    (hCurrent : Current (.tracingIn limit room) start p) :
    Current (.tracingIn limit room) start q := by
  cases h with
  | consumeRestart | frameFails => exact hCurrent
  | vacate | refuseMain | allocateMainFails => exact nofun
  | allocateMain =>
      exact current_of_blank (congrArg Reel.shots
        (p.reel_note (.tracingIn limit room) start .main (.allocate .main p.resolution)))
  | forgetSamples hFilm =>
      intro film h
      cases hFilm.symm.trans h
  | clearMain =>
      exact current_of_blank (congrArg Reel.shots
        (p.reel_note (.tracingIn limit room) start .main (.clear .main)))
  | clearMainFails hFilm hClear => cases hClear
  | @sampleMain i film sampled frame rng hInstalled hFilm hBudget hFrame hSample
  | @sampleMainFails i film frame rng e hInstalled hFilm hBudget hFrame hSample =>
      have hReel := p.reel_note (.tracingIn limit room) start .main (.sample .main i frame)
      intro _ _ shot hShot
      rcases List.mem_append.mp ((congrArg Reel.shots hReel) ▸ hShot) with hOld | hNew
      · exact hCurrent film hFilm shot hOld
      · rw [List.mem_singleton.mp hNew]
        exact hInstalled.symm
  | announce =>
      unfold Pipeline.announce
      split <;> exact hCurrent

/-- Every step of a tick keeps the main view current. -/
theorem Step.current (h : Step (.tracingIn limit room) p q)
    (hCurrent : Current (.tracingIn limit room) start p) :
    Current (.tracingIn limit room) start q := by
  cases h with
  | main h => exact h.current hCurrent
  | prime h => exact (h.sameMain start).current hCurrent
  | shot h => exact (h.sameMain start).current hCurrent
  | finish h => exact (h.sameMain start).current hCurrent

/-- What a tick leaves behind. -/
structure Ticked (r : Renderer Tracer Film) (start : Target → Reel Tracer)
    (p q : Pipeline Tracer Film) : Prop where
  inStep : InStep r start q
  current : Current r start q
  extent : q.view.extent = p.resolution
  resolution : q.resolution = p.resolution
  installed : q.installed = p.installed

/-- No change of a tick touches the signals that are left, and the main view
gets no extent but the requested one. -/
theorem Step.view {P F : Type} {r : Renderer P F} {p q : Pipeline P F} (h : Step r p q) :
    q.resolution = p.resolution ∧ q.installed = p.installed ∧
      (q.view.extent = p.view.extent ∨ q.view.extent = p.resolution) := by
  cases h with
  | main h =>
      refine ⟨?_, h.installed, ?_⟩
      · cases h with
        | announce =>
            unfold Pipeline.announce
            split <;> rfl
        | _ => rfl
      · cases h with
        | announce =>
            unfold Pipeline.announce
            split <;> exact .inl rfl
        | vacate | allocateMain | refuseMain | allocateMainFails => exact .inr rfl
        | _ => exact .inl rfl
  | prime h =>
      have hSame := h.sameMain fun _ => .blank
      exact ⟨hSame.resolution, hSame.installed, .inl (congrArg MainView.extent hSame.view)⟩
  | shot h =>
      have hSame := h.sameMain fun _ => .blank
      exact ⟨hSame.resolution, hSame.installed, .inl (congrArg MainView.extent hSame.view)⟩
  | finish h =>
      have hSame := h.sameMain fun _ => .blank
      exact ⟨hSame.resolution, hSame.installed, .inl (congrArg MainView.extent hSame.view)⟩

/-- Once the main view is prepared, nothing in a tick undoes that. -/
theorem Ticked.step {o : Pipeline Tracer Film} (h : Step (.tracingIn limit room) p q)
    (hTicked : Ticked (.tracingIn limit room) start o p) :
    Ticked (.tracingIn limit room) start o q := by
  obtain ⟨hResolution, hInstalled, hExtent⟩ := h.view
  refine ⟨h.inStep hTicked.inStep, h.current hTicked.current, ?_,
    hResolution.trans hTicked.resolution, hInstalled.trans hTicked.installed⟩
  exact hExtent.elim (·.trans hTicked.extent) (·.trans hTicked.resolution)

/-- Further steps of the same tick keep what is known after it, since they do not request
another extent. -/
theorem Ticked.steps {o : Pipeline Tracer Film} (h : Steps (.tracingIn limit room) p q)
    (hTicked : Ticked (.tracingIn limit room) start o p) :
    Ticked (.tracingIn limit room) start o q :=
  preserves_of_step (fun hNext hBefore => hBefore.step hNext) h hTicked

/-- After reallocating, the extent is the requested one, be there a film or not. -/
theorem reallocate_extent {P F : Type} (r : Renderer P F) (p : Pipeline P F) :
    (p.reallocate r).2.view.extent = p.resolution := by
  unfold reallocate
  dsimp only
  split
  · rfl
  · split
    · rfl
    · split <;> rfl

/-- Clearing keeps the extent. -/
theorem clearMain_extent {P F : Type} (r : Renderer P F) (p : Pipeline P F) :
    (p.clearMain r).2.view.extent = p.view.extent := by
  unfold clearMain
  split
  · rfl
  · dsimp only
    split <;> rfl

/-- When it has been prepared, the main view has the extent that was requested. -/
theorem prepareMain_extent {P F : Type} (r : Renderer P F) (p : Pipeline P F) (restarted : Bool) :
    (p.prepareMain r restarted).2.view.extent = p.resolution := by
  unfold prepareMain
  split
  · exact p.reallocate_extent r
  · rename_i hSame
    have hExtent : p.view.extent = p.resolution := by
      simp only [Bool.or_eq_true, decide_eq_true_eq, not_or, Decidable.not_not] at hSame
      exact hSame.1.symm
    split
    · have hClear := p.clearMain_extent r
      generalize p.clearMain r = result at hClear
      obtain ⟨answer, q⟩ := result
      cases answer <;> exact hClear.trans hExtent
    · exact hExtent

/-- A new film has no samples of an earlier scene. -/
theorem reallocate_current (p : Pipeline Tracer Film) :
    Current (.tracingIn limit room) start (p.reallocate (.tracingIn limit room)).2 := by
  unfold reallocate
  dsimp only
  split
  · exact nofun
  · split
    · exact current_of_blank (congrArg Reel.shots
        (p.reel_note (.tracingIn limit room) start .main (.allocate .main p.resolution)))
    · split <;> exact nofun

/-- A cleared film has no samples of an earlier scene. -/
theorem clearMain_current (p : Pipeline Tracer Film) :
    Current (.tracingIn limit room) start (p.clearMain (.tracingIn limit room)).2 := by
  unfold clearMain
  split
  · rename_i hFilm
    intro film h
    cases hFilm.symm.trans h
  · exact current_of_blank (congrArg Reel.shots
      (p.reel_note (.tracingIn limit room) start .main (.clear .main)))

/-- After a restart the main view has no samples yet. -/
theorem prepareMain_current (p : Pipeline Tracer Film) :
    Current (.tracingIn limit room) start (p.prepareMain (.tracingIn limit room) true).2 := by
  unfold prepareMain
  split
  · exact reallocate_current p
  · have hClear : Current (.tracingIn limit room) start (p.clearMain (.tracingIn limit room)).2 :=
      clearMain_current p
    generalize p.clearMain _ = result at hClear
    obtain ⟨answer, q⟩ := result
    cases answer <;> exact hClear

/-- What follows the preparation of the main view in a tick. -/
theorem tick_steps_of_prepareMain {P F : Type} (r : Renderer P F) (p : Pipeline P F) :
    Steps r (p.consumeRestart.2.prepareMain r p.restartPending).2 (p.tick r).2 := by
  have hRun := p.tickRun r
  generalize p.tick r = result at hRun ⊢
  cases hRun with
  | unprepared hPrepare => rw [hPrepare]
  | @unrendered _ _ o m hPrepare hRender =>
      rw [hPrepare]
      have hRendered := o.renderMain_steps r
      rw [hRender] at hRendered
      exact hRendered.steps
  | @unstepped _ _ _ o m q hPrepare hRender hIcon | @done _ _ _ o m q hPrepare hRender hIcon =>
      rw [hPrepare]
      have hStepped := stepIcon_path r (o.renderMain_steps r)
      rw [hRender, hIcon] at hStepped
      exact hStepped.steps

/-- After a tick the main view has the requested extent and shows the scene in use. Before
it the view must be current or a restart pending, which is what requests leave behind. -/
theorem tick_ticked (hStep : InStep (.tracingIn limit room) start p)
    (hScene : p.restartPending = true ∨ Current (.tracingIn limit room) start p) :
    Ticked (.tracingIn limit room) start p (p.tick (.tracingIn limit room)).2 := by
  refine Ticked.steps (p.tick_steps_of_prepareMain _) ?_
  have hPrepare := p.prepared_steps (.tracingIn limit room)
  have hCurrent : Current (.tracingIn limit room) start
      (p.consumeRestart.2.prepareMain (.tracingIn limit room) p.restartPending).2 := by
    rcases hScene with hRestart | hCurrent
    · rw [hRestart]
      exact prepareMain_current _
    · exact preserves_of_step (fun hNext hBefore => hNext.current hBefore) hPrepare.steps hCurrent
  refine ⟨hPrepare.steps.inStep hStep, hCurrent, prepareMain_extent _ _ _, ?_, hPrepare.installed⟩
  exact preserves_of_step (Q := fun q => q.resolution = p.resolution)
    (fun hNext hBefore => hNext.view.1.trans hBefore) hPrepare.steps rfl

/-- Ticks until the main view has converged are at least one tick and then none
or such ticks again. -/
theorem runUntilConverged_succ {P F : Type} (r : Renderer P F) (n : Nat) (p : Pipeline P F) :
    (p.runUntilConverged r (n + 1)).2 = (p.tick r).2 ∨
      (p.runUntilConverged r (n + 1)).2 = ((p.tick r).2.runUntilConverged r n).2 := by
  rw [runUntilConverged]
  generalize p.tick r = ticked
  obtain ⟨_ | report, q⟩ := ticked
  · exact .inl rfl
  · dsimp only
    split
    · exact .inl rfl
    · exact .inr rfl

/-- What is known after one tick holds on after the next. -/
theorem Ticked.trans {o : Pipeline Tracer Film} {r : Renderer Tracer Film} (h : Ticked r start o p)
    (h' : Ticked r start p q) : Ticked r start o q :=
  ⟨h'.inStep, h'.current, h'.extent.trans h.resolution, h'.resolution.trans h.resolution,
    h'.installed.trans h.installed⟩

/-- What holds after one tick holds after any number of them. -/
theorem runUntilConverged_ticked (n : Nat) (hStep : InStep (.tracingIn limit room) start p)
    (hScene : p.restartPending = true ∨ Current (.tracingIn limit room) start p) :
    Ticked (.tracingIn limit room) start p
      (p.runUntilConverged (.tracingIn limit room) (n + 1)).2 := by
  induction n generalizing p with
  | zero =>
      have hTick := tick_ticked hStep hScene
      rcases runUntilConverged_succ (.tracingIn limit room) 0 p with h | h <;> rw [h]
      · exact hTick
      · exact hTick
  | succ n ih =>
      have hTick := tick_ticked hStep hScene
      rcases runUntilConverged_succ (.tracingIn limit room) (n + 1) p with h | h <;> rw [h]
      · exact hTick
      · exact hTick.trans (ih hTick.inStep (.inr hTick.current))

/-- A tick that is in step fails for nothing but the fault of a scene that does not compile.
-/
theorem tick_error {e : Failure} (hStep : InStep (.tracingIn limit room) start p)
    (h : (p.tick (.tracingIn limit room)).1 = .error e) : ∃ fault, e = .compile fault := by
  have hPrepared := (p.prepared_steps (.tracingIn limit room)).steps.inStep hStep
  have hRun := p.tickRun (.tracingIn limit room)
  generalize p.tick _ = result at hRun h
  cases hRun with
  | unprepared hPrepare =>
      obtain ⟨reallocated, hDone⟩ := prepareMain_ok limit room p.consumeRestart.2 p.restartPending
      rw [hPrepare] at hDone
      cases hDone
  | unrendered hPrepare hRender =>
      rw [hPrepare] at hPrepared
      cases h
      exact renderMain_error hPrepared (congrArg Prod.fst hRender)
  | @unstepped _ _ _ o m q hPrepare hRender hIcon =>
      rw [hPrepare] at hPrepared
      have hRendered := o.renderMain_steps (.tracingIn limit room)
      obtain ⟨step, hDone⟩ := stepIcon_ok (hRendered.steps.inStep hPrepared)
      rw [hRender, hIcon] at hDone
      cases hDone
  | done => cases h

/-- A run of ticks fails only for the fault of a scene. -/
theorem runUntilConverged_error {e : Failure} (n : Nat)
    (hStep : InStep (.tracingIn limit room) start p)
    (h : (p.runUntilConverged (.tracingIn limit room) n).1 = .error e) :
    ∃ fault, e = .compile fault := by
  induction n generalizing p with
  | zero => cases h
  | succ n ih =>
      have hNext := (p.tick_steps (.tracingIn limit room)).inStep hStep
      have hFault := fun fault => tick_error (e := fault) hStep
      rw [runUntilConverged] at h
      generalize p.tick _ = ticked at h hNext hFault
      obtain ⟨answer, q⟩ := ticked
      cases answer with
      | error fault =>
          cases h
          exact hFault _ rfl
      | ok report =>
          dsimp only at h
          split at h
          · cases h
          · exact ih hNext h

end Ticks

/-! ### Commands -/

section Commands

variable {limit : Nat} {room : Room} {start : Target → Reel Tracer} {p q : Pipeline Tracer Film}

/-- An answer that reports a failure comes from that failure, where results themselves are
not answered so. -/
theorem Answer.eq_error_of_ofResult {α : Type} {f : α → Answer} {result : Except Failure α}
    {e : Failure} (hAnswer : ∀ x, f x ≠ .failed e) (h : ofResult f result = .failed e) :
    result = .error e := by
  cases result with
  | ok x => exact absurd h (hAnswer x)
  | error fault =>
      cases h
      rfl

/-- Installing the outcome of a compilation fails with the fault of the compilation or not
at all. -/
theorem installResult_error {result : Except CompileError Scene} {e : Failure}
    (h : (p.installResult (.tracingIn limit room) result).1 = .error e) :
    ∃ fault, e = .compile fault := by
  cases result with
  | error fault =>
      cases h
      exact ⟨fault, rfl⟩
  | ok scene => cases (install_ok limit room p scene).symm.trans h

/-- Only a fault of a scene makes a command fail. -/
theorem perform_error {c : Command} {e : Failure} (hStep : InStep (.tracingIn limit room) start p)
    (h : (p.perform (.tracingIn limit room) c).1 = .failed e) : ∃ fault, e = .compile fault := by
  cases c with
  | restart | resize | setBudget | enqueue => cases h
  | setGraph g =>
      exact installResult_error (Answer.eq_error_of_ofResult (f := fun _ => .installed) nofun h)
  | setTime g time =>
      exact installResult_error (Answer.eq_error_of_ofResult (f := fun _ => .installed) nofun h)
  | install scene =>
      have hInstall := Answer.eq_error_of_ofResult (f := fun _ => .installed) nofun h
      cases (install_ok limit room p scene).symm.trans hInstall
  | tick => exact tick_error hStep (Answer.eq_error_of_ofResult (f := .ticked) nofun h)
  | runUntilConverged n =>
      exact runUntilConverged_error n hStep (Answer.eq_error_of_ofResult (f := .sampled) nofun h)
  | readMain =>
      have hRead := Answer.eq_error_of_ofResult (f := .picture) nofun h
      split at hRead <;> cases hRead

/-- Films and counters are as they were, and a new scene comes with a restart. -/
structure SameFilms {P F : Type} (r : Renderer P F) (start : Target → Reel P)
    (p q : Pipeline P F) : Prop where
  films : q.films = p.films
  view : q.view = p.view
  icon : q.icon = p.icon
  active : q.active = p.active
  reel : ∀ target, q.reel r start target = p.reel r start target
  samples : SamplesInStep r start p.requests → SamplesInStep r start q.requests
  scene : q.restartPending = true ∨
    (q.installed = p.installed ∧ q.restartPending = p.restartPending)

/-- Installing a scene touches neither films nor extents. It is the next tick that clears
them. -/
theorem install_sameFilms {P F : Type} (r : Renderer P F) (start : Target → Reel P)
    (p : Pipeline P F) (scene : Scene) : SameFilms r start p (p.install r scene).2 := by
  unfold install
  split
  · exact ⟨rfl, rfl, rfl, rfl, fun _ => rfl, id, .inl rfl⟩
  · have hReel := fun target => p.reel_note r start target .build
    have hSamples : SamplesInStep r start p.requests →
        SamplesInStep r start (p.note .build).requests := fun h => h.append_other rfl
    dsimp only
    split
    · exact ⟨rfl, rfl, rfl, rfl, hReel, hSamples, .inr ⟨rfl, rfl⟩⟩
    · exact ⟨rfl, rfl, rfl, rfl, hReel, hSamples, .inl rfl⟩

/-- The outcome of a compilation, installed or refused, touches no film. -/
theorem installResult_sameFilms {P F : Type} (r : Renderer P F) (start : Target → Reel P)
    (p : Pipeline P F) (result : Except CompileError Scene) :
    SameFilms r start p (p.installResult r result).2 := by
  cases result with
  | error e => exact ⟨rfl, rfl, rfl, rfl, fun _ => rfl, id, .inr ⟨rfl, rfl⟩⟩
  | ok scene => exact install_sameFilms r start p scene

/-- Whether a command runs a tick. -/
def Command.ticks : Command → Bool
  | tick => true
  | runUntilConverged n => 0 < n
  | _ => false

/-- A command that does not tick leaves films, extents and samples as they are. -/
theorem perform_sameFilms {P F : Type} (r : Renderer P F) (start : Target → Reel P)
    (p : Pipeline P F) {c : Command} (h : c.ticks = false) :
    SameFilms r start p (p.perform r c).2 := by
  cases c with
  | restart => exact ⟨rfl, rfl, rfl, rfl, fun _ => rfl, id, .inl rfl⟩
  | resize | setBudget | enqueue => exact ⟨rfl, rfl, rfl, rfl, fun _ => rfl, id, .inr ⟨rfl, rfl⟩⟩
  | setGraph g => exact installResult_sameFilms r start p _
  | setTime g time => exact installResult_sameFilms r start p _
  | install scene => exact install_sameFilms r start p scene
  | tick => cases h
  | runUntilConverged n =>
      obtain rfl : n = 0 := by simpa [Command.ticks] using h
      exact ⟨rfl, rfl, rfl, rfl, fun _ => rfl, id, .inr ⟨rfl, rfl⟩⟩
  | readMain =>
      change SameFilms r start p (p.readMain r).2
      unfold readMain
      split
      · exact ⟨rfl, rfl, rfl, rfl, fun _ => rfl, id, .inr ⟨rfl, rfl⟩⟩
      · exact ⟨rfl, rfl, rfl, rfl, fun target => p.reel_note r start target (.read .main),
          fun h => h.append_other rfl, .inr ⟨rfl, rfl⟩⟩

/-- A command that ticks leaves the main view with the extent and the scene that its last
tick found. -/
theorem perform_ticked {c : Command} (h : c.ticks = true)
    (hStep : InStep (.tracingIn limit room) start p)
    (hScene : p.restartPending = true ∨ Current (.tracingIn limit room) start p) :
    Ticked (.tracingIn limit room) start p (p.perform (.tracingIn limit room) c).2 := by
  cases c with
  | tick => exact tick_ticked hStep hScene
  | runUntilConverged n =>
      cases n with
      | zero => cases h
      | succ n => exact runUntilConverged_ticked n hStep hScene
  | _ => cases h

/-- What touches no film keeps films and samples in step. -/
theorem SameFilms.inStep {r : Renderer Tracer Film} (h : SameFilms r start p q)
    (hStep : InStep r start p) : InStep r start q := by
  refine ⟨hStep.main.congr ?_ ?_ ?_ (h.reel .main), hStep.icon.congr ?_ ?_ h.active (h.reel .icon),
    h.samples hStep.samples⟩
  · rw [h.films]
  · rw [h.view]
  · rw [h.view]
  · rw [h.films]
  · rw [h.icon]

/-- The requests of a command are followed before the next one. -/
theorem InStep.drain {r : Renderer Tracer Film} (h : InStep r start p)
    (next : Renderer Tracer Film) : InStep next (p.reel r start) p.drain.2 := by
  refine ⟨⟨h.main.film, h.main.vacant⟩, ⟨h.icon.film, h.icon.active⟩, ?_⟩
  intro before target installed frame later hSplit
  exact absurd hSplit (by simp [Pipeline.drain])

end Commands

/-! ### Sessions -/

/-- The scene in use and the requested extent as a tick finds them. -/
structure Beat where
  installed : Option (Installed Tracer)
  resolution : Extent

/-- A pipeline between two commands, with what its requests came to. -/
structure Session where
  pipeline : Pipeline Tracer Film
  reels : Target → Reel Tracer
  /-- What the last tick found. -/
  beat : Beat

/-- A command, and the memory that there is while it runs. -/
structure Turn where
  room : Room
  command : Command

namespace Session

/-- A session without a scene. There was no tick yet. -/
def start (settings : Settings) (unseeded : ChaCha) : Session where
  pipeline := .start settings unseeded
  reels := fun _ => .blank
  beat := ⟨none, ⟨0, 0⟩⟩

/-- What a pipeline answers to a command, and the pipeline after it with the
requests of the command. -/
def respond (limit : Nat) (s : Session) (t : Turn) : Answer × Pipeline Tracer Film :=
  s.pipeline.perform (.tracingIn limit t.room) t.command

/-- The session after a command. -/
def next (limit : Nat) (s : Session) (t : Turn) : Session :=
  let after := (s.respond limit t).2
  { pipeline := after.drain.2
    reels := after.reel (.tracingIn limit t.room) s.reels
    beat := if t.command.ticks then ⟨s.pipeline.installed, s.pipeline.resolution⟩ else s.beat }

/-- The session after some commands. -/
def run (limit : Nat) (settings : Settings) (unseeded : ChaCha) (turns : List Turn) : Session :=
  turns.foldl (next limit) (start settings unseeded)

/-- What holds between any two commands. -/
structure Kept (s : Session) : Prop where
  drained : s.pipeline.requests = []
  inStep : ∀ r, InStep r s.reels s.pipeline
  extent : s.pipeline.view.extent = s.beat.resolution
  shots : ∀ film, s.pipeline.films.main = some film →
    ∀ shot ∈ (s.reels .main).shots, some shot.installed = s.beat.installed
  scene : s.pipeline.restartPending = true ∨ s.pipeline.installed = s.beat.installed

/-- Nothing is on the reels at the start. -/
theorem kept_start (settings : Settings) (unseeded : ChaCha) : (start settings unseeded).Kept := by
  refine ⟨rfl, fun r => ⟨⟨nofun, fun _ => .inl rfl⟩, ⟨nofun, nofun⟩, ?_⟩, rfl, nofun, .inr rfl⟩
  intro before target installed frame later hSplit
  exact absurd hSplit (by simp [start, Pipeline.start])

variable {limit : Nat} {s : Session}

/-- The reels of a session are those of its pipeline. -/
theorem Kept.reel (h : s.Kept) (r : Renderer Tracer Film) (target : Target) :
    s.pipeline.reel r s.reels target = s.reels target := by
  rw [Pipeline.reel, h.drained]
  rfl

/-- Between two commands a restart waits or the samples show the scene in use. -/
theorem Kept.current (h : s.Kept) (r : Renderer Tracer Film) :
    s.pipeline.restartPending = true ∨ Current r s.reels s.pipeline := by
  refine h.scene.imp id fun hScene film hFilm => ?_
  rw [h.reel, hScene]
  exact h.shots film hFilm

/-- One turn keeps the reels those of the pipeline, whatever memory there is in it. -/
theorem Kept.next (h : s.Kept) (t : Turn) : (s.next limit t).Kept := by
  have hBefore := h.inStep (.tracingIn limit t.room)
  cases hTicks : t.command.ticks with
  | true =>
      have hTicked := perform_ticked hTicks hBefore (h.current _)
      have hBeat : (s.next limit t).beat = ⟨s.pipeline.installed, s.pipeline.resolution⟩ :=
        if_pos hTicks
      refine ⟨rfl, fun r => hTicked.inStep.drain r, ?_, ?_, .inr ?_⟩
      · rw [hBeat]
        exact hTicked.extent
      · rw [hBeat]
        exact hTicked.installed ▸ hTicked.current
      · rw [hBeat]
        exact hTicked.installed
  | false =>
      have hSame := perform_sameFilms (.tracingIn limit t.room) s.reels s.pipeline hTicks
      have hBeat : (s.next limit t).beat = s.beat := if_neg (Bool.not_eq_true _ ▸ hTicks)
      refine ⟨rfl, fun r => (hSame.inStep hBefore).drain r, ?_, ?_, ?_⟩
      · rw [hBeat]
        exact (congrArg MainView.extent hSame.view).trans h.extent
      · intro film hFilm
        have hReel : (s.next limit t).reels .main = s.reels .main :=
          (hSame.reel .main).trans (h.reel _ .main)
        have hMain := congrArg PerTarget.main hSame.films
        rw [hBeat, hReel]
        exact h.shots film (hMain.symm.trans hFilm)
      · rw [hBeat]
        rcases hSame.scene with hRestart | ⟨hInstalled, hPending⟩
        · exact .inl hRestart
        · exact h.scene.imp hPending.trans hInstalled.trans

/-- The reels are those of the pipeline at the end of every run. The induction is on the
turns. -/
theorem kept_run (limit : Nat) (settings : Settings) (unseeded : ChaCha) (turns : List Turn) :
    (run limit settings unseeded turns).Kept := by
  have hFold : ∀ {s : Session}, s.Kept → (turns.foldl (next limit) s).Kept := by
    induction turns with
    | nil => exact id
    | cons t rest ih => exact fun h => ih (h.next t)
  exact hFold (kept_start settings unseeded)

end Session

/-- Films, extents and numbers of samples never drift apart, and the main view shows what
the last tick found. At any time of any run and whatever memory there is, the samples that a
command asks for are made for the extent of the film and have the index of the next sample
on it, and no command fails for the state that the pipeline is in. The film of the main view
has the extent that the last tick found requested and is the average of samples of the scene
that was in use then. If there is no film, that extent is empty or it was last asked for in
vain. Memory may differ from turn to turn. When a film that was refused is asked for again
is not said. -/
theorem samples_keep_in_step (limit : Nat) (settings : Settings) (unseeded : ChaCha)
    (turns : List Turn) :
    let s := Session.run limit settings unseeded turns
    (∀ t : Turn,
      SamplesInStep (.tracingIn limit t.room) s.reels (s.respond limit t).2.requests ∧
        ∀ reason, (s.respond limit t).1 ≠ .failed (.invalidState reason)) ∧
    (∀ film, s.pipeline.films.main = some film →
      film.extent = s.beat.resolution ∧ (s.reels .main).Holds .main film ∧
        ∀ shot ∈ (s.reels .main).shots, some shot.installed = s.beat.installed) ∧
    (s.pipeline.films.main = none → s.beat.resolution.isEmpty = true ∨
      ((s.reels .main).asked = some s.beat.resolution ∧ (s.reels .main).granted = none)) := by
  intro s
  have hKept : s.Kept := Session.kept_run limit settings unseeded turns
  refine ⟨fun t => ⟨?_, fun reason hFailed => ?_⟩, fun film hFilm => ?_, fun hNone => ?_⟩
  · have hBefore := hKept.inStep (.tracingIn limit t.room)
    cases hTicks : t.command.ticks with
    | true => exact (perform_ticked hTicks hBefore (hKept.current _)).inStep.samples
    | false => exact (perform_sameFilms _ s.reels s.pipeline hTicks).samples hBefore.samples
  · obtain ⟨fault, hFault⟩ := perform_error (hKept.inStep (.tracingIn limit t.room)) hFailed
    cases hFault
  · obtain ⟨hHolds, hExtent, _⟩ := (hKept.inStep (.tracing limit)).main.film film hFilm
    rw [hKept.reel] at hHolds
    exact ⟨hExtent.trans hKept.extent, hHolds, hKept.shots film hFilm⟩
  · have hVacant := (hKept.inStep (.tracing limit)).main.vacant hNone
    rw [hKept.reel, hKept.extent] at hVacant
    exact hVacant

end PathTracer.Pipeline
