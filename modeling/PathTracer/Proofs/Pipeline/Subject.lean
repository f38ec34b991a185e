import Mathlib
import PathTracer.Proofs.Expression.Identifiers
import PathTracer.Proofs.Pipeline.FirstThumbnail
import PathTracer.Scene.Builder

/-! What the pictures of thumbnails show. The scene in use can change from one
sample to the next, while the preview is found once, when the thumbnail becomes
active. -/
namespace PathTracer

/-- All samples show a subject of one scene, and one program rendered them. -/
def Shot.OneSubject {P : Type} (subject : Subject) (shots : List (Shot P)) : Prop :=
  ∃ i : Installed P, ∀ shot ∈ shots,
    shot.installed = i ∧ subject.preview? i.scene = some shot.frame.preview

namespace Pipeline

variable {P F : Type} {r : Renderer P F} {p q : Pipeline P F}

/-- The samples of the active thumbnail were rendered with the scene in use, and
what it is to show has the same preview there. -/
def Steady (p : Pipeline P F) : Prop :=
  ∀ a i, p.active = some a → p.installed = some i →
    (∀ shot ∈ p.album.shots, shot.installed = i) ∧
      a.thumbnail.subject.preview? i.scene = some a.preview

/-- Whether samples show one subject is decided by the last of them, where all have one
preview: the scenes of the others must be its scene, and it must show the subject itself. -/
theorem oneSubject_append_singleton {subject : Subject} {shots : List (Shot P)} {last : Shot P}
    (h : ∀ shot ∈ shots, shot.frame.preview = last.frame.preview) :
    Shot.OneSubject subject (shots ++ [last]) ↔
      (∀ shot ∈ shots, shot.installed = last.installed) ∧
        subject.preview? last.installed.scene = some last.frame.preview := by
  constructor
  · rintro ⟨i, hShots⟩
    obtain ⟨hInstalled, hPreview⟩ := hShots last (List.mem_append_right _ List.mem_cons_self)
    rw [hInstalled]
    exact ⟨fun shot hShot => (hShots shot (List.mem_append_left _ hShot)).1, hPreview⟩
  · rintro ⟨hInstalled, hPreview⟩
    refine ⟨last.installed, fun shot hShot => ?_⟩
    rcases List.mem_append.mp hShot with hOld | hNew
    · exact ⟨hInstalled shot hOld, h shot hOld ▸ hPreview⟩
    · rw [List.mem_singleton.mp hNew]
      exact ⟨rfl, hPreview⟩

/-- Only an idle pipeline gets another active thumbnail before the sample. -/
theorem Opening.eq_of_active {a b : ActiveThumbnail} (h : Opening r p q) (hNow : q.active = some a)
    (hBefore : p.active = some b) : b = a := by
  obtain ⟨_, hIcons, _⟩ | ⟨hIdle, _⟩ := h.cases
  · exact Option.some.inj (hBefore.symm.trans (hIcons.active.symm.trans hNow))
  · cases hIdle.symm.trans hBefore

/-- The last sample is one more of the same subject where the others were
rendered with the scene that is still in use. -/
theorem Opening.oneSubject_iff_steady {a : ActiveThumbnail} {last : Shot P} (h : Opening r p q)
    (hActive : q.active = some a) (hInstalled : q.installed = some last.installed)
    (hPreview : last.frame.preview = a.preview)
    (hShots : ∀ shot ∈ q.album.shots, shot.frame.preview = a.preview) :
    Shot.OneSubject a.thumbnail.subject (q.album.shots ++ [last]) ↔ p.Steady := by
  rw [← hPreview] at hShots
  rw [oneSubject_append_singleton hShots, hPreview]
  obtain ⟨_, hIcons, hSame⟩ | ⟨hIdle, hPrimed⟩ := h.cases
  · rw [hIcons.album]
    have hBefore : p.active = some a := hIcons.active.symm.trans hActive
    have hUse : p.installed = some last.installed := hSame.symm.trans hInstalled
    constructor
    · intro h b i hSome hScene
      cases hBefore.symm.trans hSome
      cases hUse.symm.trans hScene
      exact h
    · exact fun h => h a last.installed hBefore hUse
  · rw [hPrimed.shots a hActive]
    refine ⟨fun _ b i hSome => ?_, fun _ => ⟨?_, hPrimed.preview a _ hActive hInstalled⟩⟩
    · cases hIdle.symm.trans hSome
    · exact fun _ hShot => absurd hShot List.not_mem_nil

/-- While a scene is in use, the samples of a thumbnail are rendered with it and
show what the thumbnail is to show in it. -/
structure Intact (i : Installed P) (t : Thumbnail) (p : Pipeline P F) : Prop where
  installed : p.installed = some i
  shots : ∀ a, p.active = some a → a.thumbnail = t →
    (∀ shot ∈ p.album.shots, shot.installed = i) ∧ t.subject.preview? i.scene = some a.preview

theorem Intact.congr {i : Installed P} {t : Thumbnail} (h : Intact i t p)
    (hInstalled : q.installed = p.installed) (hActive : q.active = p.active)
    (hShots : q.album.shots = p.album.shots) : Intact i t q := by
  refine ⟨hInstalled.trans h.installed, fun a hSome => ?_⟩
  rw [hShots]
  exact h.shots a (hActive ▸ hSome)

theorem Primed.intact {i : Installed P} {t : Thumbnail} (h : Primed p q)
    (hInstalled : p.installed = some i) : Intact i t q := by
  have hSame := h.installed.trans hInstalled
  refine ⟨hSame, fun a hActive hThumbnail => ⟨?_, ?_⟩⟩
  · rw [h.shots a hActive]
    exact fun _ hShot => absurd hShot List.not_mem_nil
  · rw [← hThumbnail]
    exact h.preview a i hActive hSame

/-- A sample under the scene in use keeps the samples of a thumbnail those of one scene. -/
theorem ShotStep.intact {i : Installed P} {t : Thumbnail} (h : ShotStep r p q)
    (hIntact : Intact i t p) : Intact i t q := by
  obtain ⟨a, frame, hActive, hSame, hShots, b, hNext, hThumbnail, hPreview⟩ :
      ∃ a frame, p.active = some a ∧ q.installed = p.installed ∧
        q.album.shots = p.album.shots ++ [⟨i, frame⟩] ∧
        ∃ b, q.active = some b ∧ b.thumbnail = a.thumbnail ∧ b.preview = a.preview := by
    cases h with
    | @sampleIcon j a film sampled frame rng hInstalled hActive _ _ _ =>
        cases hInstalled.symm.trans hIntact.installed
        exact ⟨a, frame, hActive, rfl,
          (congrArg Album.shots (p.album_note (.sample .icon i frame)) :), _, rfl, rfl, rfl⟩
    | @sampleIconFails j a film frame rng e hInstalled hActive _ _ _ =>
        cases hInstalled.symm.trans hIntact.installed
        exact ⟨a, frame, hActive, rfl,
          (congrArg Album.shots (p.album_note (.sample .icon i frame)) :), a, hActive, rfl, rfl⟩
  refine ⟨hSame.trans hIntact.installed, fun c hSome hThis => ?_⟩
  cases hNext.symm.trans hSome
  obtain ⟨hOld, hFound⟩ := hIntact.shots a hActive (hThumbnail ▸ hThis)
  refine ⟨fun shot hShot => ?_, hPreview ▸ hFound⟩
  rw [hShots] at hShot
  rcases List.mem_append.mp hShot with hShot | hShot
  · exact hOld shot hShot
  · rw [List.mem_singleton.mp hShot]

theorem FinishStep.intact {i : Installed P} {t : Thumbnail} (h : FinishStep r p q)
    (hIntact : Intact i t p) : Intact i t q := by
  cases h with
  | finishIcon => exact ⟨hIntact.installed, nofun⟩
  | readIconFails =>
      exact hIntact.congr rfl rfl (congrArg Album.shots (p.album_note (.read .icon)) :)

theorem Step.intact {i : Installed P} {t : Thumbnail} (h : Step r p q) (hIntact : Intact i t p) :
    Intact i t q := by
  cases h with
  | main h =>
      exact hIntact.congr h.installed h.sameIcons.active (congrArg Album.shots h.sameIcons.album)
  | prime h => exact h.primed.intact hIntact.installed
  | shot h => exact h.intact hIntact
  | finish h => exact h.intact hIntact

/-- As long as commands leave a scene in use. The thumbnail must not be active when the run
begins. -/
theorem after_intact {i : Installed P} {t : Thumbnail} {commands : List Command}
    (hActive : ∀ a, p.active = some a → a.thumbnail ≠ t)
    (hInstalled : ∀ done, done <+: commands → (after r p done).installed = some i) :
    Intact i t (after r p commands) := by
  have hStart : Intact i t p :=
    ⟨hInstalled [] List.nil_prefix, fun a hSome hThis => absurd hThis (hActive a hSome)⟩
  clear hActive
  induction commands generalizing p with
  | nil => exact hStart
  | cons c rest ih =>
      have hFirst : (p.perform r c).2.installed = some i :=
        hInstalled [c] (List.prefix_append [c] rest)
      refine ih (p := (p.perform r c).2) (fun done hDone => ?_) ?_
      · exact hInstalled (c :: done) ((List.prefix_cons_inj c).mpr hDone)
      · cases hSubject : c.subject? with
        | some subject =>
            rw [perform_of_subject r p hSubject]
            exact hStart.congr rfl rfl rfl
        | none =>
            obtain ⟨_, hSteps | hIcons⟩ := perform_of_none r p hSubject
            · exact preserves_of_step (fun hStep hIntact => hStep.intact hIntact) hSteps hStart
            · exact hStart.congr (hFirst.trans hStart.installed.symm) hIcons.active
                (congrArg Album.shots hIcons.album)

theorem after_append (r : Renderer P F) (p : Pipeline P F) (before rest : List Command) :
    after r p (before ++ rest) = after r (after r p before) rest :=
  List.foldl_append

theorem Opening.installed (h : Opening r p q) : q.installed = p.installed := by
  obtain ⟨_, _, hSame⟩ | ⟨_, hPrimed⟩ := h.cases
  · exact hSame
  · exact hPrimed.installed

/-! ### Runs without a main view -/

/-- The main view has no film and is to have none. -/
structure Headless (p : Pipeline P F) : Prop where
  film : p.films.main = none
  extent : p.resolution = p.view.extent
  refused : p.view.refused = false

theorem Headless.prepareMain (h : p.Headless) (restarted : Bool) :
    ∃ view, p.prepareMain r restarted = (.ok false, { p with view := view }) := by
  have hKeep : (decide (p.resolution ≠ p.view.extent) || (restarted && p.view.refused)) = false := by
    simp [h.extent, h.refused]
  unfold Pipeline.prepareMain
  rw [hKeep, if_neg Bool.false_ne_true]
  cases restarted with
  | false => exact ⟨p.view, rfl⟩
  | true =>
      rw [clearMain, h.film]
      exact ⟨_, rfl⟩

/-- A tick that is about thumbnails only. -/
theorem Headless.tick (h : p.Headless) :
    ∃ m, MainSteps r p m ∧ (p.tick r).2 = (m.stepIcon r).2 := by
  have hStart : p.consumeRestart.2.Headless := ⟨h.film, h.extent, h.refused⟩
  obtain ⟨view, hPrepare⟩ := hStart.prepareMain (r := r) p.consumeRestart.1
  have hRender : renderMain r { p.consumeRestart.2 with view := view } =
      (.ok none, { p.consumeRestart.2 with view := view }) := by
    unfold renderMain
    split
    · rename_i hFilm
      cases h.film.symm.trans hFilm
    · rfl
  have hMain := prepareMain_steps r p.consumeRestart.2 p.consumeRestart.1
  rw [hPrepare] at hMain
  exact ⟨{ p.consumeRestart.2 with view := view }, .head .consumeRestart hMain,
    tick_eq_stepIcon hPrepare hRender⟩

theorem finishIcon_pictures (limit : Nat) (p : Pipeline Tracer Film) (a : ActiveThumbnail)
    (film : Film) : (p.finishIcon (.tracing limit) a film).2.pictures =
      p.pictures ++ [(a.thumbnail.id, film.image)] := by
  have hPrime := prime_steps (.tracing limit) (p := emit { p.note (.read .icon) with active := none }
    (.iconFinished a.thumbnail.id film.image)) rfl
  have hPictures := (hPrime.primed rfl).pictures
  unfold finishIcon
  dsimp only [Renderer.tracing] at hPictures ⊢
  generalize prime _ _ = result at hPictures ⊢
  obtain ⟨_ | _, q⟩ := result <;>
    exact hPictures.trans (filterMap_emit Event.picture? (p.note (.read .icon)) _)

/-- The last sample of a thumbnail hands its picture out. What the picture shows is not said
here. -/
theorem Exposed.stepIcon_pictures {limit : Nat} {p : Pipeline Tracer Film} (h : Exposed p)
    {i : Installed Tracer} {a : ActiveThumbnail} {film : Film}
    (hInstalled : p.installed = some i) (hActive : p.active = some a)
    (hFilm : p.films.icon = some film) (hSamples : max p.settings.iconSamples 1 ≤ a.samples + 1) :
    ∃ image, (p.stepIcon (.tracing limit)).2.pictures = p.pictures ++ [(a.thumbnail.id, image)] := by
  unfold Pipeline.stepIcon primeIfIdle
  simp only [hActive, Option.isNone_some, Bool.false_eq_true, if_false, hInstalled, hFilm]
  unfold sampleIcon
  cases hFrame : Frame.icon i.scene a.preview p.settings p.icon.extent a.samples p.rng with
  | mk frame rng =>
      obtain ⟨sampled, hRender⟩ := h.render hFilm hFrame i.program
      have hSample : (Renderer.tracing limit).sample i.program frame film = .ok sampled := hRender
      dsimp only
      rw [hSample]
      dsimp only
      split
      · exact ⟨_, finishIcon_pictures limit ..⟩
      · rename_i hMore
        exact absurd hSamples hMore

theorem installResult_of_ok (p : Pipeline Tracer Film) (limit : Nat) (scene : Scene) :
    ∃ program, (p.installResult (.tracing limit) (.ok scene)).2.installed =
      some ⟨scene, program⟩ := by
  change ∃ program, (p.install (.tracing limit) scene).2.installed = some ⟨scene, program⟩
  unfold install
  split <;> exact ⟨_, rfl⟩

theorem Headless.installResult (h : p.Headless) (result : Except CompileError Scene) :
    (p.installResult r result).2.Headless := by
  cases result with
  | error e => exact h
  | ok scene =>
      change (p.install r scene).2.Headless
      unfold install
      split
      · exact ⟨h.film, h.extent, h.refused⟩
      · dsimp only
        split <;> exact ⟨h.film, h.extent, h.refused⟩

/-- Where the preview of the active thumbnail is not the one that its subject has
in the scene in use, it is rendered nonetheless. -/
theorem Exposed.tick_stale {p : Pipeline Tracer Film} (hExposed : Exposed p) (limit : Nat)
    (hHeadless : p.Headless) {i : Installed Tracer} {a : ActiveThumbnail} {film : Film}
    (hInstalled : p.installed = some i) (hActive : p.active = some a)
    (hFilm : p.films.icon = some film) (hSamples : max p.settings.iconSamples 1 ≤ a.samples + 1)
    (hStale : a.thumbnail.subject.preview? i.scene ≠ some a.preview) :
    let q := (p.tick (.tracing limit)).2
    ∃ (picture : Film) (shots : List (Shot Tracer)) (last : Shot Tracer),
      q.pictures = p.pictures ++ [(a.thumbnail.id, picture.image)] ∧
        q.album.pictures = p.album.pictures ++ [shots ++ [last]] ∧
        last.installed = i ∧ last.frame.preview = a.preview ∧
        ¬ Shot.OneSubject a.thumbnail.subject (shots ++ [last]) := by
  intro q
  obtain ⟨m, hMain, hTick⟩ := hHeadless.tick (r := .tracing limit)
  have hIcons := hMain.sameIcons
  have hPicture : ∃ image, q.pictures = p.pictures ++ [(a.thumbnail.id, image)] := by
    change ∃ image, (p.tick _).2.pictures = _
    rw [hTick, ← hIcons.pictures]
    exact (hIcons.exposed hExposed).stepIcon_pictures (hMain.installed.trans hInstalled)
      (hIcons.active.trans hActive) (hIcons.film.trans hFilm) (hIcons.settings ▸ hSamples)
  obtain ⟨image, hPicture⟩ := hPicture
  obtain ⟨hNone, _⟩ | ⟨o, b, picture, last, hOpening, hNow, hUse, hPreview, hPictures, hAlbum, _⟩ :=
    (p.tick_path (.tracing limit)).exposure hExposed
  · exact absurd (hPicture.symm.trans hNone) (by simp)
  · cases hOpening.eq_of_active hNow hActive
    have hLast : last.installed = i :=
      Option.some.inj (hUse.symm.trans (hOpening.installed.trans hInstalled))
    refine ⟨picture, o.album.shots, last, hPictures, hAlbum, hLast, hPreview, ?_⟩
    rintro ⟨j, hShots⟩
    obtain ⟨hSame, hFound⟩ := hShots last (List.mem_append_right _ List.mem_cons_self)
    rw [← hSame, hLast, hPreview] at hFound
    exact hStale hFound

/-- So it is with a scene that is installed before the last sample. -/
theorem Exposed.tick_installed {p : Pipeline Tracer Film} (hExposed : Exposed p) (limit : Nat)
    (hHeadless : p.Headless) {scene : Scene} {a : ActiveThumbnail} {film : Film}
    (hActive : p.active = some a) (hFilm : p.films.icon = some film)
    (hSamples : max p.settings.iconSamples 1 ≤ a.samples + 1)
    (hStale : a.thumbnail.subject.preview? scene ≠ some a.preview) :
    let q := ((p.installResult (.tracing limit) (.ok scene)).2.tick (.tracing limit)).2
    ∃ (picture : Film) (shots : List (Shot Tracer)) (last : Shot Tracer),
      q.pictures = p.pictures ++ [(a.thumbnail.id, picture.image)] ∧
        q.album.pictures = p.album.pictures ++ [shots ++ [last]] ∧
        last.installed.scene = scene ∧ last.frame.preview = a.preview ∧
        ¬ Shot.OneSubject a.thumbnail.subject (shots ++ [last]) := by
  have hIcons := p.installResult_sameIcons (.tracing limit) (.ok scene)
  obtain ⟨program, hInstalled⟩ := p.installResult_of_ok limit scene
  obtain ⟨picture, shots, last, hPictures, hAlbum, hLast, hPreview, hMixed⟩ :=
    (hIcons.exposed hExposed).tick_stale limit (hHeadless.installResult (.ok scene))
      hInstalled (hIcons.active.trans hActive) (hIcons.film.trans hFilm)
      (hIcons.settings ▸ hSamples) hStale
  rw [hIcons.pictures] at hPictures
  rw [hIcons.album] at hAlbum
  exact ⟨picture, shots, last, hPictures, hAlbum, congrArg Installed.scene hLast, hPreview, hMixed⟩

/-- Settings for thumbnails of four pixels and two samples. -/
def twoSamples : Settings :=
  { Settings.default with iconSize := 2, iconSamples := 2 }

/-- The first sample of the first thumbnail. -/
theorem after_first_sample {g : SceneGraph} {s : Scene} {name : String} {index : Nat}
    (hCompile : g.compile = .ok s) (hIndex : s.materialIndex? name = some index) :
    let p := after (.tracing 4) (start twoSamples)
      [.resize ⟨0, 0⟩, .setGraph g, .enqueue (.material name), .tick]
    p.Headless ∧ p.active = some ⟨⟨1, .material name⟩, index, 1⟩ ∧
      (∃ film, p.films.icon = some film) ∧ p.pictures = [] ∧ p.album.pictures = [] := by
  have hPreview : (Subject.material name).preview? s = some (index : Int) := by
    rw [Subject.preview?, hIndex]
    rfl
  obtain ⟨frame, film, rng, -, hTick⟩ := exists_tick_enqueue 2 ⟨s, .ofScene s⟩
    [(s.program.hash, .ofScene s)] (s.render.samples.getD (fewSamples 2).maxSamples) [.build]
    hPreview
  rw [← after_setGraph_of_ok hCompile] at hTick
  intro p
  rw [show p = _ from hTick]
  exact ⟨⟨rfl, rfl, rfl⟩, rfl, ⟨film, rfl⟩, rfl, rfl⟩

/-- A graph whose scene has the material elsewhere is set before the second one. -/
theorem after_exchange {g g' : SceneGraph} {s s' : Scene} {name : String} {index : Nat}
    (hCompile : g.compile = .ok s) (hIndex : s.materialIndex? name = some index)
    (hCompile' : g'.compile = .ok s') (hStale : s'.materialIndex? name ≠ some index) :
    let p := after (.tracing 4) (start twoSamples)
      [.resize ⟨0, 0⟩, .setGraph g, .enqueue (.material name), .tick, .setGraph g']
    let q := (p.tick (.tracing 4)).2
    ∃ (picture : Film) (shots : List (Shot Tracer)) (last : Shot Tracer),
      q.pictures = [(1, picture.image)] ∧ q.album.pictures = [shots ++ [last]] ∧
        last.installed.scene = s' ∧ last.frame.preview = index ∧
        ¬ Shot.OneSubject (.material name) (shots ++ [last]) := by
  obtain ⟨hHeadless, hActive, ⟨film, hFilm⟩, hPictures, hAlbum⟩ :=
    after_first_sample hCompile hIndex
  have hExposed : Exposed (after (.tracing 4) (start twoSamples)
      [.resize ⟨0, 0⟩, .setGraph g, .enqueue (.material name), .tick]) :=
    after_exposed (exposed_of_none rfl rfl) _
  have hSamples : max (after (.tracing 4) (start twoSamples)
      [.resize ⟨0, 0⟩, .setGraph g, .enqueue (.material name), .tick]).settings.iconSamples 1 ≤
      1 + 1 := by
    rw [settings_after]
    decide
  have hPreview : (Subject.material name).preview? s' ≠ some (index : Int) := by
    rw [Subject.preview?]
    cases hFound : s'.materialIndex? name with
    | none => exact nofun
    | some other =>
        rintro hSame
        exact hStale (hFound.trans (congrArg some (Int.ofNat.inj (Option.some.inj hSame))))
  have hNext := hExposed.tick_installed 4 hHeadless hActive hFilm hSamples hPreview
  rw [hPictures, hAlbum, ← hCompile'] at hNext
  exact hNext

set_option maxRecDepth 2000 in
/-- Two materials before a camera, in either order. -/
theorem compile_plain_grained :
    let plain : Call := .material "Plain" []
    let grained : Call := .material "Grained" [("albedo", "hash")]
    let view : Call := .node .render .empty [.node (.camera .perspective) .empty []]
    (∃ s, (Call.scene [plain, grained, view]).compile = .ok s ∧
      s.materialIndex? "Grained" = some 1) ∧
    ∃ s, (Call.scene [grained, plain, view]).compile = .ok s ∧
      s.materialIndex? "Grained" = some 0 ∧ s.materialIndex? "Plain" = some 1 := by
  intro plain grained view
  have hHash : Expression.parse "hash" = .ok (.var "hash") :=
    Expression.parse_identifier (by decide)
  have hPlain : ∀ index, Material.Program.build "Plain" index .surface [] =
      .ok ⟨"Plain", index, .surface, []⟩ := fun _ => rfl
  have hGrained : ∀ index line,
      Material.Program.build "Grained" index .surface [⟨"albedo", "hash", line⟩] =
        .ok ⟨"Grained", index, .surface, [⟨.field .albedo, .var "hash", line⟩]⟩ := by
    intro index line
    simp only [Material.Program.build, Material.checkBody, Material.checkStatement, hHash]
    rfl
  constructor
  · have hRender : (Call.scene [plain, grained, view]).findRender =
        .ok (.new .render .empty 4 [.new (.camera .perspective) .empty 5 []]) := rfl
    have hDefinitions : (Call.scene [plain, grained, view]).definitions =
        .ok [⟨"Plain", 1, []⟩, ⟨"Grained", 2, [⟨"albedo", "hash", 3⟩]⟩] := rfl
    have hEnvironment : (Call.scene [plain, grained, view]).findEnvironment = .ok none := rfl
    rw [SceneGraph.compile, SceneGraph.compileAt, hRender, hDefinitions, hEnvironment]
    simp only [Context.buildMaterials, hPlain, hGrained]
    exact ⟨_, rfl, rfl⟩
  · have hRender : (Call.scene [grained, plain, view]).findRender =
        .ok (.new .render .empty 4 [.new (.camera .perspective) .empty 5 []]) := rfl
    have hDefinitions : (Call.scene [grained, plain, view]).definitions =
        .ok [⟨"Grained", 1, [⟨"albedo", "hash", 2⟩]⟩, ⟨"Plain", 3, []⟩] := rfl
    have hEnvironment : (Call.scene [grained, plain, view]).findEnvironment = .ok none := rfl
    rw [SceneGraph.compile, SceneGraph.compileAt, hRender, hDefinitions, hEnvironment]
    simp only [Context.buildMaterials, hPlain, hGrained]
    exact ⟨_, rfl, rfl, rfl⟩

/-- A tick hands out at most one picture, of a thumbnail that was asked for, and the picture
is that of the samples since the film was cleared. They show one subject if and only if all
but the last were rendered with the scene in use now, where the subject still has the
preview that was found for it at first. That is so while the scene in use stays the same
from before the thumbnail is active. Samples show one subject if one scene was in use for
all of them and the subject has in it the preview of their frames. Two scenes that look the
same are still two. -/
theorem picture_oneSubject_iff_steady (limit : Nat) (settings : Settings) (unseeded : ChaCha)
    (commands : List Command) :
    let r := Renderer.tracing limit
    let p := after r (start settings unseeded) commands
    let q := (p.tick r).2
    (q.pictures = p.pictures ∧ q.album.pictures = p.album.pictures) ∨
      ∃ t film shots last, t ∈ asked 1 commands ∧
        q.pictures = p.pictures ++ [(t.id, film.image)] ∧
        q.album.pictures = p.album.pictures ++ [shots ++ [last]] ∧
        (Film.blank ⟨settings.iconSize, settings.iconSize⟩).expose (shots ++ [last]) = .ok film ∧
        (Shot.OneSubject t.subject (shots ++ [last]) ↔ p.Steady) ∧
        ∀ before rest, commands = before ++ rest →
          (∀ a, (after r (start settings unseeded) before).active = some a → a.thumbnail ≠ t) →
          (∀ done, done <+: rest →
            (after r (start settings unseeded) (before ++ done)).installed = p.installed) →
          Shot.OneSubject t.subject (shots ++ [last]) := by
  intro r p q
  have hExposed : Exposed p := after_exposed (exposed_of_none rfl rfl) commands
  have hSize : p.iconExtent = ⟨settings.iconSize, settings.iconSize⟩ := by
    rw [iconExtent, settings_after]
    rfl
  obtain hNone | ⟨o, a, film, last, hOpening, hActive, hInstalled, hPreview, hPictures, hAlbum,
    hExpose⟩ := (p.tick_path r).exposure hExposed
  · exact .inl hNone
  · have hAsked : a.thumbnail ∈ asked 1 commands := by
      have hKept :=
        after_kept (Renderer.tracing_lossless limit) (kept_start settings unseeded) commands
      obtain ⟨done, hDone, _⟩ := preserves_of_step
        (fun hStep hKept => hStep.kept (Renderer.tracing_lossless limit) hKept)
        hOpening.steps hKept
      change asked 1 commands = done ++ o.waiting at hDone
      rw [hDone, Pipeline.waiting, hActive]
      exact List.mem_append_right _ List.mem_cons_self
    have hOpened : Exposed o :=
      preserves_of_step (fun hStep hBefore => hStep.exposed hBefore) hOpening.steps hExposed
    have hSteady :=
      hOpening.oneSubject_iff_steady hActive hInstalled hPreview (hOpened.preview a hActive)
    refine .inr ⟨a.thumbnail, film, o.album.shots, last, hAsked, hPictures, hAlbum,
      hSize ▸ hExpose, hSteady, ?_⟩
    intro before rest hSplit hOther hUnchanged
    rw [hSteady]
    intro b i hSome hScene
    have hIntact : Intact i a.thumbnail p := by
      change Intact i a.thumbnail (after r (start settings unseeded) commands)
      rw [hSplit, after_append]
      refine after_intact hOther fun done hDone => ?_
      rw [← after_append]
      exact (hUnchanged done hDone).trans hScene
    cases hOpening.eq_of_active hActive hSome
    exact hIntact.shots a hSome rfl

/-- Two materials change places between the two samples of a thumbnail of one of
them, and the second sample is of the other. -/
theorem picture_of_exchanged_materials :
    let plain : Call := .material "Plain" []
    let grained : Call := .material "Grained" [("albedo", "hash")]
    let view : Call := .node .render .empty [.node (.camera .perspective) .empty []]
    let r := Renderer.tracing 4
    let p := after r (start twoSamples) [.resize ⟨0, 0⟩,
      .setGraph (Call.scene [plain, grained, view]), .enqueue (.material "Grained"), .tick,
      .setGraph (Call.scene [grained, plain, view])]
    let q := (p.tick r).2
    ∃ (film : Film) (shots : List (Shot Tracer)) (last : Shot Tracer),
      q.pictures = [(1, film.image)] ∧ q.album.pictures = [shots ++ [last]] ∧
        ¬ Shot.OneSubject (.material "Grained") (shots ++ [last]) ∧
        (Subject.material "Plain").preview? last.installed.scene = some last.frame.preview := by
  intro plain grained view r
  obtain ⟨⟨s, hFirst, hIndex⟩, s', hSecond, hStale, hOther⟩ := compile_plain_grained
  obtain ⟨picture, shots, last, hPicture, hShots, hLast, hPreview, hMixed⟩ :=
    after_exchange hFirst hIndex hSecond (by simp [hStale])
  refine ⟨picture, shots, last, hPicture, hShots, hMixed, ?_⟩
  rw [hLast, hPreview, Subject.preview?, hOther]
  rfl

end Pipeline

end PathTracer
