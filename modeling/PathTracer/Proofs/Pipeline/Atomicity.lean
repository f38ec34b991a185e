import PathTracer.Proofs.Pipeline.Budget
import PathTracer.Proofs.Pipeline.Record

/-! Scenes that fail. One that cannot be compiled, refreshed or built leaves the
pipeline as it was but for the request to build it, so nothing that is done later
shows that it was tried. One that is put in use shares its program with all scenes of
its hash. -/
namespace PathTracer.Pipeline

variable {P F : Type} (r : Renderer P F)

/-! ### Scenes that fail -/

theorem unlogged_note (p : Pipeline P F) (request : Request P) :
    (p.note request).unlogged = p.unlogged :=
  rfl

/-- A scene whose program cannot be built leaves a request behind and nothing else. -/
theorem install_unlogged {p : Pipeline P F} {scene : Scene} {e : Failure}
    (h : (p.install r scene).1 = .error e) : (p.install r scene).2.unlogged = p.unlogged := by
  unfold install at h ⊢
  split at h
  · cases h
  · dsimp only at h ⊢
    split at h
    · exact unlogged_note p .build
    · cases h

theorem installResult_unlogged {p : Pipeline P F} {result : Except CompileError Scene}
    {e : Failure} (h : (p.installResult r result).1 = .error e) :
    (p.installResult r result).2.unlogged = p.unlogged := by
  cases result with
  | error fault => rfl
  | ok scene => exact install_unlogged r h

/-- The answer to a command that tries to put a scene in use. -/
theorem answer_of_result {p : Pipeline P F} {c : Command} {result : Except CompileError Scene}
    (h : c.result? p = some result) :
    (p.perform r c).1 = .ofResult (fun _ => .installed) (p.installResult r result).1 := by
  cases c with
  | setGraph | setTime | install =>
      cases h
      rfl
  | _ => cases h

/-- Only such a command answers that a scene is in use. -/
theorem result_of_installed {p : Pipeline P F} {c : Command}
    (h : (p.perform r c).1 = .installed) :
    ∃ scene, c.result? p = some (.ok scene) ∧ (p.install r scene).1 = .ok () := by
  cases hResult : c.result? p with
  | some result =>
      rw [answer_of_result r hResult] at h
      cases result with
      | error e => cases h
      | ok scene =>
          refine ⟨scene, rfl, ?_⟩
          cases hInstall : (p.install r scene).1 with
          | ok done => rfl
          | error e =>
              simp only [installResult, hInstall] at h
              cases h
  | none =>
      have hOther {α : Type} {f : α → Answer} {result : Except Failure α}
          (hForm : ∀ x, f x ≠ .installed) : Answer.ofResult f result ≠ .installed := by
        cases result with
        | error e => exact fun hSame => by cases hSame
        | ok x => exact hForm x
      cases c with
      | setGraph | setTime | install => cases hResult
      | restart | resize | setBudget | enqueue => cases h
      | tick => exact absurd h (hOther fun _ hSame => by cases hSame)
      | runUntilConverged ticks => exact absurd h (hOther fun _ hSame => by cases hSame)
      | readMain => exact absurd h (hOther fun _ hSame => by cases hSame)

theorem perform_unlogged {p : Pipeline P F} {c : Command} {e : Failure}
    (hTries : (c.result? p).isSome) (h : (p.perform r c).1 = .failed e) :
    (p.perform r c).2.unlogged = p.unlogged := by
  obtain ⟨result, hResult⟩ := Option.isSome_iff_exists.mp hTries
  rw [answer_of_result r hResult] at h
  rw [perform_of_result hResult]
  cases hInstall : (p.installResult r result).1 with
  | error fault => exact installResult_unlogged r hInstall
  | ok done =>
      rw [hInstall] at h
      cases h

/-! ### Scenes that are kept -/

/-- A scene is in use at some point of some jobs. -/
def InUse (p : Pipeline P F) (jobs : List (Job P F)) (s : Scene) : Prop :=
  ∃ done i, done <+: jobs ∧ (p.through done).installed = some i ∧ i.scene = s

/-- There is one program for every hash of some scenes, and the one of the scene in
use is in use. -/
structure Shelved (used : Scene → Prop) (p : Pipeline P F) : Prop where
  nodup : (p.cache.map Prod.fst).Nodup
  hashes : ∀ hash, hash ∈ p.cache.map Prod.fst ↔ ∃ s, used s ∧ s.program.hash = hash
  current : ∀ i, p.installed = some i → p.cache.lookup i.scene.program.hash = some i.program

theorem SameUse.shelved {used more : Scene → Prop} {p q : Pipeline P F} (h : SameUse p q)
    (hShelved : Shelved used p) (hMore : ∀ s, more s ↔ used s) : Shelved more q := by
  refine ⟨?_, ?_, ?_⟩
  · rw [h.cache]
    exact hShelved.nodup
  · intro hash
    simp only [h.cache, hShelved.hashes, hMore]
  · rw [h.cache, h.installed]
    exact hShelved.current

theorem SameUse.of_unlogged {p q : Pipeline P F} (h : q.unlogged = p.unlogged) : SameUse p q := by
  have hInstalled := congrArg Pipeline.installed h
  have hCache := congrArg Pipeline.cache h
  exact ⟨hInstalled, hCache⟩

theorem isSome_lookup_iff (cache : List (UInt64 × P)) (hash : UInt64) :
    (cache.lookup hash).isSome ↔ hash ∈ cache.map Prod.fst := by
  rw [List.lookup_isSome_iff, List.mem_map]
  refine exists_congr fun entry => and_congr_right fun _ => ?_
  rw [beq_iff_eq, eq_comm]

/-- A scene that is put in use has its program among those that are kept. -/
theorem install_shelved {used more : Scene → Prop} {p : Pipeline P F} (hShelved : Shelved used p)
    {scene : Scene} (hDone : (p.install r scene).1 = .ok ())
    (hMore : ∀ s, more s ↔ used s ∨ s = scene) : Shelved more (p.install r scene).2 := by
  cases hCached : p.cache.lookup scene.program.hash with
  | some program =>
      have hKnown : scene.program.hash ∈ p.cache.map Prod.fst :=
        (isSome_lookup_iff _ _).mp (by rw [hCached]; rfl)
      have hInstall : (p.install r scene).2 = p.use scene program := by simp only [install, hCached]
      rw [hInstall]
      refine ⟨hShelved.nodup, fun hash => ?_, fun i hInstalled => ?_⟩
      · change hash ∈ p.cache.map Prod.fst ↔ _
        simp only [hMore, or_and_right, exists_or, exists_eq_left]
        rw [← hShelved.hashes]
        exact ⟨.inl, fun h => h.elim id fun hSame => hSame ▸ hKnown⟩
      · cases hInstalled
        exact hCached
  | none =>
      cases hBuild : r.build scene with
      | error e =>
          simp only [install, hCached, hBuild] at hDone
          cases hDone
      | ok program =>
          have hNew : scene.program.hash ∉ p.cache.map Prod.fst := by
            rw [← isSome_lookup_iff, hCached]
            exact Bool.false_ne_true
          have hInstall : (p.install r scene).2 = use { p.note .build with
              cache := (scene.program.hash, program) :: p.cache } scene program := by
            simp only [install, hCached, hBuild, note]
          rw [hInstall]
          refine ⟨?_, fun hash => ?_, fun i hInstalled => ?_⟩
          · exact List.nodup_cons.mpr ⟨hNew, hShelved.nodup⟩
          · change hash ∈ scene.program.hash :: p.cache.map Prod.fst ↔ _
            simp only [hMore, or_and_right, exists_or, exists_eq_left]
            rw [List.mem_cons, ← hShelved.hashes, or_comm, eq_comm]
          · cases hInstalled
            exact List.lookup_cons_self

/-- A scene was in use at some time exactly if it was before the last job or is after it. -/
theorem inUse_concat {p : Pipeline P F} {jobs : List (Job P F)} {job : Job P F} {s : Scene} :
    p.InUse (jobs ++ [job]) s ↔ p.InUse jobs s ∨
      (job.perform (p.through jobs)).2.installed.map Installed.scene = some s := by
  constructor
  · rintro ⟨done, i, hDone, hInstalled, rfl⟩
    obtain rfl | hDone := List.prefix_concat_iff.mp hDone
    · rw [through_append] at hInstalled
      exact .inr (congrArg (Option.map Installed.scene) hInstalled)
    · exact .inl ⟨done, i, hDone, hInstalled, rfl⟩
  · rintro (⟨done, i, hDone, hInstalled, rfl⟩ | hLast)
    · exact ⟨done, i, hDone.trans (List.prefix_append _ _), hInstalled, rfl⟩
    · obtain ⟨i, hInstalled, hScene⟩ := Option.map_eq_some_iff.mp hLast
      refine ⟨_, i, List.prefix_rfl, ?_, hScene⟩
      rw [through_append]
      exact hInstalled

theorem inUse_of_installed {p : Pipeline P F} {jobs : List (Job P F)} {s : Scene}
    (h : (p.through jobs).installed.map Installed.scene = some s) : p.InUse jobs s := by
  obtain ⟨i, hInstalled, hScene⟩ := Option.map_eq_some_iff.mp h
  exact ⟨jobs, i, List.prefix_rfl, hInstalled, hScene⟩

/-- A job that installs nothing leaves the set of scenes as it was. -/
theorem inUse_concat_of_sameUse {p : Pipeline P F} {jobs : List (Job P F)} {job : Job P F}
    (h : SameUse (p.through jobs) (job.perform (p.through jobs)).2) (s : Scene) :
    p.InUse (jobs ++ [job]) s ↔ p.InUse jobs s := by
  rw [inUse_concat, h.installed]
  exact ⟨fun hOr => hOr.elim id inUse_of_installed, .inl⟩

/-- Along a run there is one program for every hash of a scene that was in use. -/
theorem shelved_through (settings : Settings) (unseeded : ChaCha) (jobs : List (Job P F)) :
    Shelved ((start settings unseeded).InUse jobs)
      ((start settings unseeded : Pipeline P F).through jobs) := by
  induction jobs using List.reverseRecOn with
  | nil =>
      refine ⟨List.nodup_nil, fun hash => ?_, fun i h => by cases h⟩
      simp [InUse, through, start]
  | append_singleton done job ih =>
      rw [through_append]
      change Shelved _ (job.perform _).2
      obtain hSame | ⟨scene, -, hInstall⟩ :=
        perform_cases job.renderer ((start settings unseeded).through done) job.command
      · exact hSame.shelved ih (inUse_concat_of_sameUse hSame)
      · have hPerform : (job.perform ((start settings unseeded).through done)).2 = _ := hInstall
        cases hDone : (((start settings unseeded).through done).install job.renderer scene).1 with
        | error e =>
            have hSame := install_unlogged job.renderer hDone
            rw [← hPerform] at hSame
            have hUse := SameUse.of_unlogged hSame
            exact hUse.shelved ih (inUse_concat_of_sameUse hUse)
        | ok u =>
            have hScene :=
              (install_use job.renderer ((start settings unseeded).through done) scene).1
            rw [hDone] at hScene
            rw [hPerform]
            refine install_shelved job.renderer ih hDone fun s => ?_
            rw [inUse_concat, hPerform, hScene]
            exact or_congr_right (Option.some_inj.trans eq_comm)

/-- A graph, a time or a scene that fails leaves everything as it was but the record of
requests, and nothing that is answered later shows that it was tried. After one that
succeeds there is exactly one program for every hash of a scene that was in use, and the
scene in use is rendered with the program under its hash. This is for every renderer and for
all jobs before and after. The record of requests is left out since it is no part of any
answer. -/
theorem failed_scene_leaves_no_trace (settings : Settings) (unseeded : ChaCha)
    (jobs : List (Job P F)) (job : Job P F) :
    let p := (start settings unseeded).through jobs
    let q := (job.perform p).2
    (∀ e, (job.command.result? p).isSome → (job.perform p).1 = .failed e →
        q.unlogged = p.unlogged ∧
        ∀ later, q.replies later = p.replies later ∧
          (q.through later).unlogged = (p.through later).unlogged) ∧
      ((job.perform p).1 = .installed →
        (q.cache.map Prod.fst).Nodup ∧
        (∀ hash, hash ∈ q.cache.map Prod.fst ↔
          ∃ s, (start settings unseeded).InUse (jobs ++ [job]) s ∧ s.program.hash = hash) ∧
        ∃ i, q.installed = some i ∧ job.command.result? p = some (.ok i.scene) ∧
          q.cache.lookup i.scene.program.hash = some i.program) := by
  intro p q
  refine ⟨fun e hTries hFailed => ?_, fun hInstalled => ?_⟩
  · have hSame := perform_unlogged job.renderer hTries hFailed
    exact ⟨hSame, same_of_unlogged hSame⟩
  · have hShelved := shelved_through settings unseeded (jobs ++ [job])
    rw [through_append] at hShelved
    obtain ⟨scene, hResult, hDone⟩ := result_of_installed job.renderer hInstalled
    have hScene := (install_use job.renderer p scene).1
    rw [hDone] at hScene
    obtain ⟨i, hUse, rfl⟩ := Option.map_eq_some_iff.mp hScene
    have hPerform : q = (p.install job.renderer i.scene).2 := perform_of_result hResult
    rw [← hPerform] at hUse
    exact ⟨hShelved.nodup, hShelved.hashes, i, hUse, hResult, hShelved.current i hUse⟩

/-- A renderer that cannot build a program. -/
def faulty : Renderer Tracer Film :=
  { Renderer.tracing 4 with build := fun _ => .error (.device "lost") }

/-- A graph that shows nothing and a program that cannot be built fail, and between
them a camera is installed. -/
theorem failed_scene_leaves_no_trace_of_camera :
    let opening : Job Tracer Film := ⟨.tracing 4, .setGraph (filmed .perspective)⟩
    let p : Pipeline Tracer Film := start .default
    let q := p.through [opening]
    let broken : Job Tracer Film := ⟨faulty, .setGraph (filmed .perspective)⟩
    let empty : Job Tracer Film := ⟨.tracing 4, .setGraph ⟨[]⟩⟩
    (broken.perform p).1 = .failed (.device "lost") ∧
      (broken.perform p).2.unlogged = p.unlogged ∧
      (∃ e, (empty.perform q).1 = .failed e) ∧ (empty.perform q).2.unlogged = q.unlogged ∧
      (opening.perform p).1 = .installed ∧
      ∃ i, q.installed = some i ∧ q.cache.lookup i.scene.program.hash = some i.program := by
  intro opening p q broken empty
  obtain ⟨s, hCompile, -, -⟩ := compile_filmed .perspective
  have hBroken : (broken.perform p).1 = .failed (.device "lost") := by
    change Answer.ofResult (fun _ => .installed)
      (p.installResult faulty (filmed .perspective).compile).1 = _
    rw [hCompile]
    rfl
  have hOpening : (opening.perform p).1 = .installed := by
    change Answer.ofResult (fun _ => .installed)
      (p.installResult (.tracing 4) (filmed .perspective).compile).1 = _
    rw [hCompile]
    rfl
  obtain ⟨i, hUse, -, hProgram⟩ := ((failed_scene_leaves_no_trace .default (.ofSeed 0) [] opening).2
    hOpening).2.2
  exact ⟨hBroken, ((failed_scene_leaves_no_trace .default (.ofSeed 0) [] broken).1 _ rfl hBroken).1,
    ⟨_, rfl⟩, ((failed_scene_leaves_no_trace .default (.ofSeed 0) [opening] empty).1 _ rfl rfl).1,
    hOpening, i, hUse, hProgram⟩

end PathTracer.Pipeline
