import Mathlib.Data.List.Forall2
import PathTracer.Proofs.Pipeline.Exposure
import PathTracer.Proofs.Pipeline.Session

/-! The samples of thumbnails with their places in the random stream. Every sample of
either target draws as many words, so that the numbers of a sample are told by how
many samples came before it. -/
namespace PathTracer

/-- A sample of a thumbnail, and how many samples of the main view came before it. -/
structure Take (P : Type) extends Shot P where
  views : Nat

/-- What the requests so far come to, with the samples counted. -/
structure Ledger (P : Type) where
  /-- Number of samples of the main view. -/
  views : Nat
  /-- The samples on the film of thumbnails. -/
  takes : List (Take P)
  /-- The samples of each picture that was read from it. -/
  sheets : List (List (Take P))

namespace Ledger

variable {P : Type}

/-- Follow one request. -/
def record (l : Ledger P) : Request P → Ledger P
  | .sample .main _ _ => { l with views := l.views + 1 }
  | .sample .icon installed frame =>
    { l with takes := l.takes ++ [⟨⟨installed, frame⟩, l.views⟩] }
  | .allocate .icon _ => { l with takes := [] }
  | .clear .icon => { l with takes := [] }
  | .read .icon => { l with sheets := l.sheets ++ [l.takes] }
  | _ => l

/-- The ledger without its counts. -/
def album (l : Ledger P) : Album P :=
  ⟨l.takes.map Take.toShot, l.sheets.map (List.map Take.toShot)⟩

/-- Without its counts a ledger follows requests as an album does. -/
theorem album_record (l : Ledger P) (request : Request P) :
    (l.record request).album = l.album.record request := by
  cases request with
  | build => rfl
  | allocate target extent | clear target => cases target <;> rfl
  | sample target installed frame =>
      cases target with
      | main => rfl
      | icon => simp [record, album, Album.record]
  | read target =>
      cases target with
      | main => rfl
      | icon => simp [record, album, Album.record]

end Ledger

/-! ### Numbers of a sample -/

/-- The stream some words later. -/
def ChaCha.skip (rng : ChaCha) (words : Nat) : ChaCha :=
  { rng with position := rng.position + words }

/-- Words are skipped one after the other, so that only their number counts. -/
theorem ChaCha.skip_skip (rng : ChaCha) (n m : Nat) : (rng.skip n).skip m = rng.skip (n + m) := by
  rw [skip, skip, skip, Nat.add_assoc]

/-- Words that a frame draws: its seed and its random vector. -/
def Frame.drawnWords : Nat := 5

/-- A frame of the main view draws its words from the stream, as many as any frame does. -/
theorem Frame.skip_of_main {scene : Scene} {settings : Settings} {extent : Extent} {index : Nat}
    {rng next : ChaCha} {frame : Frame}
    (h : Frame.main scene settings extent index rng = .ok (frame, next)) :
    next = rng.skip drawnWords := by
  unfold Frame.main at h
  split at h
  · cases h
  · exact (congrArg Prod.snd (Except.ok.inj h)).symm

namespace Settings

/-- Number of samples of a thumbnail. -/
def iconCount (s : Settings) : Nat :=
  max s.iconSamples 1

/-- The frame of a sample of a thumbnail after some samples of either target. -/
def iconFrame (s : Settings) (stream : ChaCha) (scene : Scene) (preview : Int)
    (index drawn : Nat) : Frame :=
  (Frame.icon scene preview s ⟨s.iconSize, s.iconSize⟩ index
    (stream.skip (Frame.drawnWords * drawn))).1

/-- The samples of one thumbnail in order, after those of as many earlier ones. -/
def Numbered {P : Type} (s : Settings) (stream : ChaCha) (earlier : Nat)
    (takes : List (Take P)) : Prop :=
  ∀ k take, takes[k]? = some take →
    take.frame = s.iconFrame stream take.installed.scene take.frame.preview k
      (take.views + earlier * s.iconCount + k)

/-- A sample that is the next one of the thumbnail keeps its samples numbered. -/
theorem Numbered.append_singleton {P : Type} {s : Settings} {stream : ChaCha} {earlier : Nat}
    {takes : List (Take P)}
    (h : s.Numbered stream earlier takes) {take : Take P}
    (hLast : take.frame = s.iconFrame stream take.installed.scene take.frame.preview takes.length
      (take.views + earlier * s.iconCount + takes.length)) :
    s.Numbered stream earlier (takes ++ [take]) := by
  intro k other hOther
  by_cases hOld : k < takes.length
  · rw [List.getElem?_append_left hOld] at hOther
    exact h k other hOther
  · rw [List.getElem?_append_right (Nat.not_lt.mp hOld), List.getElem?_singleton] at hOther
    split at hOther
    · rename_i hIndex
      cases hOther
      rw [show k = takes.length by omega]
      exact hLast
    · cases hOther

end Settings

namespace Pipeline

variable {P F : Type} {r : Renderer P F} {p q : Pipeline P F} {settings : Settings}
  {stream : ChaCha}

/-- What the requests so far come to, with the samples counted. -/
def ledger (p : Pipeline P F) : Ledger P :=
  p.requests.foldl Ledger.record ⟨0, [], []⟩

/-- The ledger follows every request that is noted. -/
theorem ledger_note (p : Pipeline P F) (request : Request P) :
    (p.note request).ledger = p.ledger.record request := by
  unfold ledger note
  rw [List.foldl_append]
  rfl

/-- The album is the ledger without its counts. -/
theorem album_ledger (p : Pipeline P F) : p.ledger.album = p.album :=
  (List.foldl_hom Ledger.album fun l request => (l.album_record request).symm).symm

/-- Number of samples of either target. -/
def drawn (p : Pipeline P F) : Nat :=
  p.ledger.views + p.ledger.sheets.length * p.settings.iconCount +
    (p.active.map ActiveThumbnail.samples).getD 0

/-- All samples so far have their places in the stream. -/
structure Filed (settings : Settings) (stream : ChaCha) (p : Pipeline P F) : Prop where
  origin : p.settings = settings
  rng : p.rng = stream.skip (Frame.drawnWords * p.drawn)
  active : ∀ a, p.active = some a → p.ledger.takes.length = a.samples ∧
    settings.Numbered stream p.ledger.sheets.length p.ledger.takes
  sheets : ∀ m sheet, p.ledger.sheets[m]? = some sheet →
    sheet.length = settings.iconCount ∧ settings.Numbered stream m sheet

/-- The active thumbnail lacks a sample. -/
def Bounded (p : Pipeline P F) : Prop :=
  ∀ a, p.active = some a → a.samples < p.settings.iconCount

/-- Nothing has changed about thumbnails, and some samples of the main view have been
drawn. -/
structure Viewed (p q : Pipeline P F) : Prop where
  settings : q.settings = p.settings
  active : q.active = p.active
  takes : q.ledger.takes = p.ledger.takes
  sheets : q.ledger.sheets = p.ledger.sheets
  views : ∃ n, q.ledger.views = p.ledger.views + n ∧ q.rng = p.rng.skip (Frame.drawnWords * n)

/-- Where neither the stream nor the ledger has moved, no sample was drawn. -/
theorem viewed_of_ledger (hSettings : q.settings = p.settings) (hActive : q.active = p.active)
    (hRng : q.rng = p.rng) (hLedger : q.ledger = p.ledger) : Viewed p q := by
  refine ⟨hSettings, hActive, ?_, ?_, 0, ?_, hRng⟩
  · rw [hLedger]
  · rw [hLedger]
  · rw [hLedger, Nat.add_zero]

/-- A sample of the main view draws the words of one frame and counts one. -/
theorem viewed_of_sample {i : Installed P} {frame : Frame} (hSettings : q.settings = p.settings)
    (hActive : q.active = p.active) (hRng : q.rng = p.rng.skip Frame.drawnWords)
    (hRequests : q.requests = p.requests ++ [Request.sample .main i frame]) : Viewed p q := by
  have hLedger : q.ledger = { p.ledger with views := p.ledger.views + 1 } := by
    rw [ledger, hRequests, List.foldl_append]
    rfl
  refine ⟨hSettings, hActive, ?_, ?_, 1, ?_, ?_⟩
  · rw [hLedger]
  · rw [hLedger]
  · rw [hLedger]
  · rw [hRng, Nat.mul_one]

/-- Every step of the main view leaves thumbnails alone and accounts for what it draws. -/
theorem MainStep.viewed (h : MainStep r p q) : Viewed p q := by
  cases h with
  | consumeRestart | vacate | forgetSamples | frameFails =>
      exact viewed_of_ledger rfl rfl rfl rfl
  | allocateMain | refuseMain | allocateMainFails =>
      exact viewed_of_ledger rfl rfl rfl (p.ledger_note (.allocate .main p.resolution))
  | clearMain | clearMainFails =>
      exact viewed_of_ledger rfl rfl rfl (p.ledger_note (.clear .main))
  | sampleMain _ _ _ hFrame _ => exact viewed_of_sample rfl rfl (Frame.skip_of_main hFrame) rfl
  | sampleMainFails _ _ _ hFrame _ => exact viewed_of_sample rfl rfl (Frame.skip_of_main hFrame) rfl
  | announce =>
      unfold Pipeline.announce
      split <;> exact viewed_of_ledger rfl rfl rfl rfl

/-- Samples of the main view push later samples of thumbnails on in the stream, and the
ledger says how far. -/
theorem Viewed.filed (h : Viewed p q) (hFiled : p.Filed settings stream) :
    q.Filed settings stream := by
  obtain ⟨n, hViews, hRng⟩ := h.views
  refine ⟨h.settings.trans hFiled.origin, ?_, ?_, ?_⟩
  · have hDrawn : q.drawn = p.drawn + n := by
      rw [Pipeline.drawn, Pipeline.drawn, h.settings, h.active, h.sheets, hViews]
      omega
    rw [hRng, hFiled.rng, ChaCha.skip_skip, hDrawn, Nat.mul_add]
  · rw [h.active, h.takes, h.sheets]
    exact hFiled.active
  · rw [h.sheets]
    exact hFiled.sheets

/-- Samples of the main view complete no thumbnail. -/
theorem Viewed.bounded (h : Viewed p q) (hBounded : p.Bounded) : q.Bounded := by
  unfold Bounded
  rw [h.active, h.settings]
  exact hBounded

/-- A pipeline that stays without an active thumbnail. -/
theorem Filed.idle (h : p.Filed settings stream) (hIdle : p.active = none)
    (hSettings : q.settings = p.settings) (hActive : q.active = none) (hRng : q.rng = p.rng)
    (hViews : q.ledger.views = p.ledger.views) (hSheets : q.ledger.sheets = p.ledger.sheets) :
    q.Filed settings stream := by
  refine ⟨hSettings.trans h.origin, ?_, fun a hSome => ?_, ?_⟩
  · have hDrawn : q.drawn = p.drawn := by
      rw [Pipeline.drawn, Pipeline.drawn, hSettings, hActive, hIdle, hViews, hSheets]
    rw [hRng, h.rng, hDrawn]
  · cases hActive.symm.trans hSome
  · rw [hSheets]
    exact h.sheets

/-- Looking for a thumbnail draws nothing. -/
theorem PrimeStep.filed (h : PrimeStep r p q) (hFiled : p.Filed settings stream) :
    q.Filed settings stream := by
  have hAllocate := p.ledger_note (.allocate .icon p.iconExtent)
  have hClear := p.ledger_note (.clear .icon)
  cases h with
  | drop hReady => exact hFiled.idle hReady.active rfl hReady.active rfl rfl rfl
  | allocateIcon hActive | refuseIcon hActive =>
      exact hFiled.idle hActive rfl hActive rfl (congrArg Ledger.views hAllocate :)
        (congrArg Ledger.sheets hAllocate :)
  | allocateIconFails hReady =>
      exact hFiled.idle hReady.active rfl hReady.active rfl (congrArg Ledger.views hAllocate :)
        (congrArg Ledger.sheets hAllocate :)
  | clearIconFails hReady =>
      exact hFiled.idle hReady.active rfl hReady.active rfl (congrArg Ledger.views hClear :)
        (congrArg Ledger.sheets hClear :)
  | @activate t rest i preview film cleared hReady hPreview hFilm hCleared =>
      have hIdle : (note { p with active := none } (.clear .icon)).Filed settings stream :=
        hFiled.idle hReady.active rfl rfl rfl (congrArg Ledger.views hClear :)
          (congrArg Ledger.sheets hClear :)
      refine ⟨hIdle.origin, hIdle.rng, fun a hActive => ?_, hIdle.sheets⟩
      have hTakes : (p.note (.clear .icon)).ledger.takes = [] := congrArg Ledger.takes hClear
      cases hActive
      refine ⟨congrArg List.length hTakes, fun k take hTake => ?_⟩
      have hNone : (p.note (.clear .icon)).ledger.takes[k]? = some take := hTake
      rw [hTakes] at hNone
      cases hNone

/-- Another thumbnail starts without samples. -/
theorem PrimeStep.bounded (h : PrimeStep r p q) : q.Bounded := by
  cases h with
  | drop hReady | allocateIconFails hReady | clearIconFails hReady =>
      intro a hActive
      cases hReady.active.symm.trans hActive
  | allocateIcon hActive | refuseIcon hActive =>
      intro a hSome
      cases hActive.symm.trans hSome
  | activate =>
      intro a hActive
      cases hActive
      exact Nat.lt_of_lt_of_le Nat.zero_lt_one (Nat.le_max_right _ _)

/-- What was drawn so far is what the finished thumbnails took, what the active one has, and
the samples of the main view. -/
theorem Filed.drawn_eq (h : p.Filed settings stream) {a : ActiveThumbnail}
    (hActive : p.active = some a) :
    p.drawn = p.ledger.views + p.ledger.sheets.length * settings.iconCount + a.samples := by
  rw [drawn, hActive, h.origin]
  rfl

/-- The active thumbnail gets a sample with the next place in the stream. -/
theorem Filed.shoot {a : ActiveThumbnail} (h : p.Filed settings stream) (take : Take P)
    (hActive : p.active = some a) (hSettings : q.settings = p.settings)
    (hNext : q.active = some { a with samples := a.samples + 1 })
    (hRng : q.rng = p.rng.skip Frame.drawnWords)
    (hLedger : q.ledger = ⟨p.ledger.views, p.ledger.takes ++ [take], p.ledger.sheets⟩)
    (hViews : take.views = p.ledger.views)
    (hTake : take.frame =
      settings.iconFrame stream take.installed.scene take.frame.preview a.samples p.drawn) :
    q.Filed settings stream := by
  obtain ⟨hTakes, hNumbered⟩ := h.active a hActive
  have hDrawn := h.drawn_eq hActive
  refine ⟨hSettings.trans h.origin, ?_, fun b hSome => ?_, ?_⟩
  · have hMore : q.drawn = p.drawn + 1 := by
      rw [hDrawn, drawn, hNext, hLedger, hSettings, h.origin]
      rfl
    rw [hRng, h.rng, ChaCha.skip_skip, hMore, Nat.mul_succ]
  · cases hNext.symm.trans hSome
    rw [hLedger]
    refine ⟨?_, hNumbered.append_singleton ?_⟩
    · rw [List.length_append, hTakes, List.length_singleton]
    · rw [hViews, hTakes, ← hDrawn]
      exact hTake
  · rw [hLedger]
    exact h.sheets

/-- The picture of a thumbnail with all its samples is handed out. The samples are filed as
those of one sheet, and the next thumbnail starts where they end. -/
theorem Filed.finish {a : ActiveThumbnail} (h : p.Filed settings stream)
    (hActive : p.active = some a)
    (hSamples : a.samples = settings.iconCount) (hSettings : q.settings = p.settings)
    (hNext : q.active = none) (hRng : q.rng = p.rng)
    (hLedger :
      q.ledger = ⟨p.ledger.views, p.ledger.takes, p.ledger.sheets ++ [p.ledger.takes]⟩) :
    q.Filed settings stream := by
  obtain ⟨hTakes, hNumbered⟩ := h.active a hActive
  refine ⟨hSettings.trans h.origin, ?_, fun b hSome => ?_, fun m sheet hSheet => ?_⟩
  · have hSame : q.drawn = p.drawn := by
      rw [h.drawn_eq hActive, drawn, hNext, hLedger, hSettings, h.origin, List.length_append,
        List.length_singleton, hSamples, Nat.succ_mul, Option.map_none, Option.getD_none,
        ← Nat.add_assoc]
      rfl
    rw [hRng, h.rng, hSame]
  · cases hNext.symm.trans hSome
  · rw [hLedger] at hSheet
    by_cases hOld : m < p.ledger.sheets.length
    · exact h.sheets m sheet ((List.getElem?_append_left hOld).symm.trans hSheet)
    · rw [List.getElem?_append_right (Nat.not_lt.mp hOld), List.getElem?_singleton] at hSheet
      split at hSheet
      · rename_i hIndex
        cases hSheet
        rw [show m = p.ledger.sheets.length by omega]
        exact ⟨hTakes.trans hSamples, hNumbered⟩
      · cases hSheet

end Pipeline

/-! ### Samples on films -/

namespace Pipeline

variable {limit : Nat} {p q : Pipeline Tracer Film} {settings : Settings} {stream : ChaCha}

/-- A sample of a thumbnail has the frame of its place in the stream: the active thumbnail
was not exchanged since its film was cleared. -/
theorem ShotStep.filed (h : ShotStep (.tracing limit) p q) (hExposed : Exposed p)
    (hFiled : p.Filed settings stream) : q.Filed settings stream := by
  cases h with
  | @sampleIcon i a film sampled frame rng hInstalled hActive hFilm hFrame hSample =>
      have hRng : rng = p.rng.skip Frame.drawnWords := (congrArg Prod.snd hFrame).symm
      have hPreview : frame.preview = a.preview := (congrArg (fun f => f.1.preview) hFrame).symm
      have hExtent : p.icon.extent = ⟨settings.iconSize, settings.iconSize⟩ := by
        rw [(hExposed.film film hFilm).1, iconExtent, hFiled.origin]
      have hTake : frame = settings.iconFrame stream i.scene frame.preview a.samples p.drawn := by
        rw [hPreview, Settings.iconFrame, ← hFiled.rng, ← hExtent, ← hFiled.origin]
        exact (congrArg Prod.fst hFrame).symm
      exact hFiled.shoot ⟨⟨i, frame⟩, p.ledger.views⟩ hActive rfl rfl hRng
        (p.ledger_note (.sample .icon i frame)) rfl hTake
  | @sampleIconFails i a film frame rng e hInstalled hActive hFilm hFrame hSample =>
      obtain ⟨sampled, hRender⟩ := hExposed.render hFilm hFrame i.program
      cases hRender.symm.trans hSample

/-- A picture that is handed out closes the samples of its thumbnail, which are not more
than each thumbnail gets. -/
theorem FinishStep.filed (h : FinishStep (.tracing limit) p q) (hFiled : p.Filed settings stream)
    (hSamples : ∀ a, p.active = some a → a.samples ≤ settings.iconCount) :
    q.Filed settings stream := by
  cases h with
  | @finishIcon a film image hActive hFilm hEnough hRead =>
      rw [hFiled.origin] at hEnough
      exact hFiled.finish hActive (Nat.le_antisymm (hSamples a hActive) hEnough) rfl rfl rfl
        (p.ledger_note (.read .icon))
  | readIconFails _ _ hRead => cases hRead

/-- When a picture was handed out, no thumbnail has all of its samples. -/
theorem finishIcon_bounded (p : Pipeline Tracer Film) (a : ActiveThumbnail) (film : Film) :
    (p.finishIcon (.tracing limit) a film).2.Bounded := by
  have hPrime := prime_steps (.tracing limit) (p := emit { p.note (.read .icon) with active := none }
    (.iconFinished a.thumbnail.id film.image)) rfl
  have hBounded := preserves_of_step (fun hStep _ => hStep.bounded) hPrime nofun
  unfold finishIcon
  dsimp only [Renderer.tracing] at hBounded ⊢
  generalize prime _ _ = result at hBounded ⊢
  obtain ⟨_ | _, q⟩ := result <;> exact hBounded

/-- A thumbnail that has its last sample is finished in the same tick. -/
theorem sampleIcon_bounded (hBounded : p.Bounded) (i : Installed Tracer) (a : ActiveThumbnail)
    (film : Film) :
    (p.sampleIcon (.tracing limit) i a film).2.Bounded := by
  unfold sampleIcon
  cases hFrame : Frame.icon i.scene a.preview p.settings p.icon.extent a.samples p.rng with
  | mk frame rng =>
      dsimp only
      cases (Renderer.tracing limit).sample i.program frame film with
      | error e => exact hBounded
      | ok sampled =>
          dsimp only
          split
          · exact finishIcon_bounded _ _ _
          · rename_i hMore
            intro b hNext
            cases hNext
            exact Nat.not_le.mp hMore

/-- The active thumbnail lacks a sample after a tick, too, or it is another one. -/
theorem stepIcon_bounded (hBounded : p.Bounded) : (p.stepIcon (.tracing limit)).2.Bounded := by
  have hPrime : (p.primeIfIdle (.tracing limit)).2.Bounded := by
    unfold primeIfIdle
    split
    · rename_i hIdle
      exact preserves_of_step (fun hStep _ => hStep.bounded)
        (prime_steps _ (Option.isNone_iff_eq_none.mp hIdle)) hBounded
    · exact hBounded
  unfold stepIcon
  generalize p.primeIfIdle (.tracing limit) = result at hPrime
  obtain ⟨_ | _, o⟩ := result
  · exact hPrime
  · dsimp only
    split
    · rename_i i a film _ _ _
      exact sampleIcon_bounded hPrime i a film
    · exact hPrime

/-- No tick leaves a thumbnail that has all of its samples. -/
theorem tick_bounded (hBounded : p.Bounded) : (p.tick (.tracing limit)).2.Bounded := by
  obtain ⟨m, hMain, hTick⟩ := tick_cases (.tracing limit) p
  have hBefore : m.Bounded :=
    preserves_of_step (fun hStep hBefore => hStep.viewed.bounded hBefore) hMain hBounded
  obtain hTick | hTick := hTick
  · rw [hTick]
    exact hBefore
  · rw [hTick]
    exact stepIcon_bounded hBefore

/-- What is true of a pipeline between commands. -/
structure Settled (settings : Settings) (stream : ChaCha) (p : Pipeline Tracer Film) : Prop where
  filed : p.Filed settings stream
  bounded : p.Bounded
  exposed : Exposed p

/-- What leaves thumbnails alone keeps what is true between commands. -/
theorem Viewed.settled (h : Viewed p q) (hExposed : Exposed q)
    (hSettled : Settled settings stream p) :
    Settled settings stream q :=
  ⟨h.filed hSettled.filed, h.bounded hSettled.bounded, hExposed⟩

/-- A tick keeps what is true between commands. Within a tick it need not hold, since a
thumbnail can be complete there. -/
theorem tick_settled (h : Settled settings stream p) :
    Settled settings stream (p.tick (.tracing limit)).2 := by
  have hOpened : ∀ {o}, Opening (.tracing limit) p o → Settled settings stream o := by
    intro o hOpening
    have hMain : ∀ {m}, MainSteps (.tracing limit) p m → Settled settings stream m := fun hSteps =>
      preserves_of_step (fun hStep hBefore =>
        hStep.viewed.settled (hStep.sameIcons.exposed hBefore.exposed) hBefore) hSteps h
    cases hOpening with
    | active hSteps _ => exact hMain hSteps
    | prime hSteps _ hPrime =>
        exact preserves_of_step (fun hStep hBefore =>
          ⟨hStep.filed hBefore.filed, hStep.bounded, hStep.exposed hBefore.exposed⟩) hPrime
          (hMain hSteps)
  have hBounded : (p.tick (.tracing limit)).2.Bounded := tick_bounded h.bounded
  have hPath := p.tick_path (.tracing limit)
  generalize (p.tick (.tracing limit)).2 = q at hBounded hPath ⊢
  cases hPath with
  | opened hOpening => exact hOpened hOpening
  | sampled hOpening hShot =>
      have hBefore := hOpened hOpening
      exact ⟨hShot.filed hBefore.exposed hBefore.filed, hBounded,
        (Step.shot hShot).exposed hBefore.exposed⟩
  | @finished o s f hOpening hShot hFinish hNext =>
      have hBefore := hOpened hOpening
      have hFiled := hShot.filed hBefore.exposed hBefore.filed
      have hSampled := (Step.shot hShot).exposed hBefore.exposed
      have hSamples : ∀ a, s.active = some a → a.samples ≤ settings.iconCount := by
        obtain ⟨a, _, _, hActive, _, _, hMore, _⟩ := hShot.exposure hBefore.exposed
        intro b hSome
        cases hMore.symm.trans hSome
        have hLess := hBefore.bounded a hActive
        rw [hBefore.filed.origin] at hLess
        exact hLess
      have hFinished := hFinish.filed hFiled hSamples
      have hLast := (Step.finish hFinish).exposed hSampled
      refine ⟨?_, hBounded, ?_⟩
      · exact preserves_of_step (fun hStep hFiled => hStep.filed hFiled) hNext hFinished
      · exact preserves_of_step (fun hStep hExposed => hStep.exposed hExposed) hNext hLast

/-- Any number of ticks keeps what is true between commands. -/
theorem runUntilConverged_settled (n : Nat) (h : Settled settings stream p) :
    Settled settings stream (p.runUntilConverged (.tracing limit) n).2 := by
  induction n generalizing p with
  | zero => exact h
  | succ n ih =>
      have hTick : Settled settings stream (p.tick (.tracing limit)).2 := tick_settled h
      rw [runUntilConverged]
      generalize p.tick (.tracing limit) = ticked at hTick
      obtain ⟨_ | report, q⟩ := ticked
      · exact hTick
      · dsimp only
        split
        · exact hTick
        · exact ih hTick

/-- Installing a scene draws nothing and leaves thumbnails alone. -/
theorem install_viewed {P F : Type} (r : Renderer P F) (p : Pipeline P F) (scene : Scene) :
    Viewed p (p.install r scene).2 := by
  have hBuild := p.ledger_note .build
  unfold install
  split
  · exact viewed_of_ledger rfl rfl rfl rfl
  · dsimp only
    split <;> exact viewed_of_ledger rfl rfl rfl hBuild

/-- Only ticks draw samples. -/
theorem perform_viewed {P F : Type} (r : Renderer P F) (p : Pipeline P F) {c : Command}
    (h : c.ticks = false) : Viewed p (p.perform r c).2 := by
  have hResult : ∀ result : Except CompileError Scene, Viewed p (p.installResult r result).2 := by
    intro result
    cases result with
    | error e => exact viewed_of_ledger rfl rfl rfl rfl
    | ok scene => exact p.install_viewed r scene
  cases c with
  | restart | resize | setBudget | enqueue => exact viewed_of_ledger rfl rfl rfl rfl
  | setGraph g => exact hResult g.compile
  | setTime g time => exact hResult _
  | install scene => exact p.install_viewed r scene
  | tick => cases h
  | runUntilConverged n =>
      obtain rfl : n = 0 := by simpa [Command.ticks] using h
      exact viewed_of_ledger rfl rfl rfl rfl
  | readMain =>
      show Viewed p (p.readMain r).2
      unfold readMain
      split
      · exact viewed_of_ledger rfl rfl rfl rfl
      · exact viewed_of_ledger rfl rfl rfl (p.ledger_note (.read .main))

/-- Every command keeps what is true between commands. -/
theorem perform_settled (c : Command) (h : Settled settings stream p) :
    Settled settings stream (p.perform (.tracing limit) c).2 := by
  cases hTicks : c.ticks with
  | false =>
      exact (perform_viewed _ p hTicks).settled (after_exposed h.exposed [c]) h
  | true =>
      cases c with
      | tick => exact tick_settled h
      | runUntilConverged n => exact runUntilConverged_settled n h
      | _ => cases hTicks

/-- At the start nothing was drawn and no thumbnail is active. -/
theorem settled_start (settings : Settings) (unseeded : ChaCha) :
    Settled settings (settings.stream unseeded) (start settings unseeded) := by
  have hDrawn : (start settings unseeded : Pipeline Tracer Film).drawn = 0 := by
    show 0 + 0 * settings.iconCount + 0 = 0
    rw [Nat.zero_mul]
  refine ⟨⟨rfl, ?_, nofun, nofun⟩, nofun, exposed_of_none rfl rfl⟩
  rw [hDrawn]
  rfl

/-- So it is after every run. -/
theorem after_settled (h : Settled settings stream p) (commands : List Command) :
    Settled settings stream (after (.tracing limit) p commands) := by
  induction commands generalizing p with
  | nil => exact h
  | cons c rest ih => exact ih (perform_settled c h)

/-! ### Pictures -/

/-- Every picture that was handed out is that of its samples. -/
def Developed (p : Pipeline Tracer Film) : Prop :=
  List.Forall₂ (fun picture shots => ∃ film : Film,
    (Film.blank p.iconExtent).expose shots = .ok film ∧ picture.2 = film.image)
    p.pictures p.album.pictures

/-- At the start no picture was handed out. -/
theorem developed_start (settings : Settings) (unseeded : ChaCha) :
    (start settings unseeded).Developed :=
  List.Forall₂.nil

/-- Whether pictures are those of their samples depends on the settings, the events and the
requests only. -/
theorem Developed.congr (h : p.Developed) (hSettings : q.settings = p.settings)
    (hPictures : q.pictures = p.pictures) (hAlbum : q.album.pictures = p.album.pictures) :
    q.Developed := by
  unfold Developed
  rw [iconExtent, hSettings, hPictures, hAlbum]
  exact h

/-- Every step keeps pictures those of their samples. Only finishing hands one out, and then
the film is the one that holds them. -/
theorem Step.developed (h : Step (.tracing limit) p q) (hExposed : Exposed p)
    (hDeveloped : p.Developed) : q.Developed := by
  have hSettings := h.settings
  cases h with
  | main h =>
      exact hDeveloped.congr hSettings h.sameIcons.pictures
        (congrArg Album.pictures h.sameIcons.album)
  | prime h => exact hDeveloped.congr hSettings h.primed.pictures h.primed.album
  | shot h =>
      obtain ⟨_, _, _, _, _, _, _, _, hAlbum, hPictures, _⟩ := h.exposure hExposed
      exact hDeveloped.congr hSettings hPictures (congrArg Album.pictures hAlbum :)
  | finish h =>
      obtain ⟨a, film, hActive, hFilm, hPictures, hAlbum, _⟩ := h.exposure hExposed
      unfold Developed
      rw [iconExtent, hSettings, hPictures, hAlbum]
      exact List.rel_append hDeveloped
        (.cons ⟨film, (hExposed.film film hFilm).2, rfl⟩ .nil)

/-- After any commands each picture that was handed out is that of its samples. -/
theorem after_developed (limit : Nat) (settings : Settings) (unseeded : ChaCha)
    (commands : List Command) :
    (after (.tracing limit) (start settings unseeded) commands).Developed := by
  have hBoth : Exposed (after (.tracing limit) (start settings unseeded) commands) ∧
      (after (.tracing limit) (start settings unseeded) commands).Developed :=
    after_preserves (Q := fun p => Exposed p ∧ p.Developed)
      (fun hStep h => ⟨hStep.exposed h.1, hStep.developed h.1 h.2⟩)
      (fun hIcons h => ⟨hIcons.exposed h.1, h.2.congr hIcons.settings hIcons.pictures
        (congrArg Album.pictures hIcons.album)⟩)
      (fun h => ⟨h.1.congr rfl rfl rfl rfl rfl, h.2⟩)
      ⟨exposed_of_none rfl rfl, developed_start settings unseeded⟩ commands
  exact hBoth.2

/-- Pictures with the samples that they are made of, the oldest first. -/
def gallery (p : Pipeline Tracer Film) : List ((Nat × Image) × List (Take Tracer)) :=
  p.pictures.zip p.ledger.sheets

/-- A picture is that of as many samples as a thumbnail has, all of them with their
places in the stream. -/
theorem gallery_spec {limit m : Nat} {commands : List Command} {picture : Nat × Image}
    {takes : List (Take Tracer)}
    (h : (after (.tracing limit) (start settings unseeded) commands).gallery[m]? =
      some (picture, takes)) :
    takes.length = settings.iconCount ∧ settings.Numbered (settings.stream unseeded) m takes ∧
      ∃ film : Film, (Film.blank ⟨settings.iconSize, settings.iconSize⟩).expose
        (takes.map Take.toShot) = .ok film ∧ picture.2 = film.image := by
  have hSettled : Settled settings (settings.stream unseeded)
      (after (.tracing limit) (start settings unseeded) commands) :=
    after_settled (settled_start settings unseeded) commands
  have hDeveloped := after_developed limit settings unseeded commands
  generalize after (.tracing limit) (start settings unseeded) commands = p at h hSettled hDeveloped
  obtain ⟨hPicture, hSheet⟩ := List.getElem?_zip_eq_some.mp h
  obtain ⟨hCount, hNumbered⟩ := hSettled.filed.sheets m takes hSheet
  refine ⟨hCount, hNumbered, ?_⟩
  have hShots : p.album.pictures[m]? = some (takes.map Take.toShot) := by
    rw [← album_ledger, Ledger.album, List.getElem?_map, hSheet]
    rfl
  obtain ⟨hBound, hFound⟩ := List.getElem?_eq_some_iff.mp hPicture
  obtain ⟨hBound', hFound'⟩ := List.getElem?_eq_some_iff.mp hShots
  have hPair := hDeveloped.get hBound hBound'
  rw [List.get_eq_getElem, List.get_eq_getElem, hFound, hFound', iconExtent,
    hSettled.filed.origin] at hPair
  exact hPair

end Pipeline

end PathTracer
