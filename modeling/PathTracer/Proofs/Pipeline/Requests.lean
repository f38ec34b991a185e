import PathTracer.Proofs.Pipeline.Reuse

/-! The samples that a pipeline asks for. Each is one of the scene in use, with a frame
that is made of this scene and of the settings. -/
namespace PathTracer

/-- A frame that is made of a scene for a target. -/
def Frame.MadeOf (scene : Scene) (settings : Settings) (frame : Frame) : Target → Prop
  | .main => ∃ (extent : Extent) (index : Nat) (rng next : ChaCha),
      Frame.main scene settings extent index rng = .ok (frame, next)
  | .icon => ∃ (preview : Int) (extent : Extent) (index : Nat) (rng next : ChaCha),
      Frame.icon scene preview settings extent index rng = (frame, next)

/-- A sample is one of the scene in use. -/
def Request.Shows {P : Type} (settings : Settings) (installed : Option (Installed P)) :
    Request P → Prop
  | .sample target i frame => installed = some i ∧ frame.MadeOf i.scene settings target
  | _ => True

namespace Pipeline

variable {P F : Type} {r : Renderer P F} {p q : Pipeline P F}

/-- The requests of `q` are those of `p` and more of the scene in use. -/
def Notes (p q : Pipeline P F) : Prop :=
  ∃ more, q.requests = p.requests ++ more ∧
    ∀ request ∈ more, request.Shows p.settings p.installed

theorem Notes.of_eq (h : q.requests = p.requests) : Notes p q :=
  ⟨[], h.trans (List.append_nil _).symm, fun _ hMem => absurd hMem List.not_mem_nil⟩

theorem Notes.of_note {request : Request P} (h : q.requests = p.requests ++ [request])
    (hRequest : request.Shows p.settings p.installed) : Notes p q :=
  ⟨[request], h, fun _ hMem => List.mem_singleton.mp hMem ▸ hRequest⟩

theorem Notes.trans {o : Pipeline P F} (h : Notes o p) (hNext : Notes p q)
    (hSettings : p.settings = o.settings) (hInstalled : p.installed = o.installed) : Notes o q := by
  obtain ⟨more, hMore, hOld⟩ := h
  obtain ⟨last, hLast, hNew⟩ := hNext
  rw [hSettings, hInstalled] at hNew
  refine ⟨more ++ last, ?_, List.forall_mem_append.mpr ⟨hOld, hNew⟩⟩
  rw [hLast, hMore, List.append_assoc]

theorem MainStep.notes (h : MainStep r p q) : Notes p q := by
  cases h with
  | consumeRestart | vacate | forgetSamples | frameFails => exact .of_eq rfl
  | allocateMain | refuseMain | allocateMainFails | clearMain | clearMainFails =>
      exact .of_note rfl trivial
  | sampleMain hInstalled _ _ hFrame | sampleMainFails hInstalled _ _ hFrame =>
      exact .of_note rfl ⟨hInstalled, _, _, _, _, hFrame⟩
  | announce =>
      refine .of_eq ?_
      unfold Pipeline.announce
      split <;> rfl

theorem Step.notes (h : Step r p q) : Notes p q := by
  cases h with
  | main h => exact h.notes
  | prime h =>
      cases h with
      | drop => exact .of_eq rfl
      | _ => exact .of_note rfl trivial
  | shot h =>
      cases h with
      | sampleIcon hInstalled _ _ hFrame | sampleIconFails hInstalled _ _ hFrame =>
          exact .of_note rfl ⟨hInstalled, _, _, _, _, _, hFrame⟩
  | finish h => cases h <;> exact .of_note rfl trivial

theorem Steps.notes (h : Steps r p q) : Notes p q := by
  induction h with
  | refl => exact .of_eq rfl
  | @tail o q hSteps hLast ih =>
      have hSettings : o.settings = p.settings :=
        preserves_of_step (Q := fun q => q.settings = p.settings)
          (fun hStep hSame => hStep.settings.trans hSame) hSteps rfl
      exact ih.trans hLast.notes hSettings (Steps.sameUse hSteps).installed

theorem install_notes (r : Renderer P F) (p : Pipeline P F) (scene : Scene) :
    Notes p (p.install r scene).2 := by
  unfold install
  split
  · exact .of_eq rfl
  · dsimp only
    split <;> exact .of_note rfl trivial

/-- Whatever a command is, its samples are of the scene that is in use when it comes. -/
theorem perform_notes (r : Renderer P F) (p : Pipeline P F) (c : Command) :
    Notes p (p.perform r c).2 := by
  cases hResult : c.result? p with
  | some result =>
      rw [perform_of_result hResult]
      cases result with
      | error e => exact .of_eq rfl
      | ok scene => exact install_notes r p scene
  | none =>
      cases c with
      | restart | resize | setBudget | enqueue => exact .of_eq rfl
      | setGraph | setTime | install => cases hResult
      | tick => exact (tick_steps r p).notes
      | runUntilConverged n => exact (runUntilConverged_steps r n p).notes
      | readMain =>
          change Notes p (p.readMain r).2
          unfold readMain
          split
          · exact .of_eq rfl
          · exact .of_note rfl trivial

/-- Every sample of a run is of the scene that was in use at some point of it. Requests are
noted with the program they were made with, which is kept even when another scene is
installed. -/
theorem shows_of_mem_requests (r : Renderer P F) (settings : Settings) (unseeded : ChaCha)
    {commands : List Command}
    {request : Request P} (h : request ∈ (after r (start settings unseeded) commands).requests) :
    ∃ done, done <+: commands ∧
      request.Shows settings (after r (start settings unseeded) done).installed := by
  induction commands using List.reverseRecOn with
  | nil => exact absurd h List.not_mem_nil
  | append_singleton done c ih =>
      obtain ⟨more, hMore, hShows⟩ := perform_notes r (after r (start settings unseeded) done) c
      rw [settings_after] at hShows
      rw [after_append] at h
      change request ∈ (Pipeline.perform _ _ c).2.requests at h
      rw [hMore] at h
      obtain hOld | hNew := List.mem_append.mp h
      · obtain ⟨before, hBefore, hRequest⟩ := ih hOld
        exact ⟨before, hBefore.trans (List.prefix_append done [c]), hRequest⟩
      · exact ⟨done, List.prefix_append done [c], hShows request hNew⟩

end Pipeline

end PathTracer
