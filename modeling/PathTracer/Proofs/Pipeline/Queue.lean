import PathTracer.Proofs.Pipeline.Step

/-! Thumbnails on their way from the queue through the active place to an event.
None is lost, doubled or overtaken where a renderer fails for want of memory
only. -/
namespace PathTracer

/-- A renderer whose allocations fail for want of memory only and whose films
can always be cleared. -/
structure Renderer.Lossless {P F : Type} (r : Renderer P F) : Prop where
  allocate : ∀ {target extent e}, r.allocate target extent = .error e → e.isResource = true
  clear : ∀ {film e}, r.clear film ≠ .error e

/-- The tracing renderer loses nothing: its films are refused for their size only, and
clearing cannot fail. -/
theorem Renderer.tracing_lossless (limit : Nat) : (Renderer.tracing limit).Lossless where
  allocate {target extent e} h := by
    change Film.allocate limit target extent = .error e at h
    unfold Film.allocate at h
    split at h
    · cases h
    · cases h
      rfl
  clear := nofun

/-- The thumbnail that an event is the last to tell of. -/
def Event.settled? : Event → Option Nat
  | iconFinished id _ => some id
  | iconDropped id _ => some id
  | converged _ => none

/-- The thumbnail whose picture an event hands out. -/
def Event.finished? : Event → Option Nat
  | iconFinished id _ => some id
  | _ => none

def Event.dropped? : Event → Option Nat
  | iconDropped id _ => some id
  | _ => none

def Event.isIcon (e : Event) : Bool :=
  e.settled?.isSome

/-- Whether a request is about the film of thumbnails. -/
def Request.isIcon {P : Type} : Request P → Bool
  | .build => false
  | .allocate target _ => target = .icon
  | .clear target => target = .icon
  | .sample target _ _ => target = .icon
  | .read target => target = .icon

/-- What a command asks a thumbnail of. -/
def Pipeline.Command.subject? : Pipeline.Command → Option Subject
  | enqueue subject => some subject
  | _ => none

/-- The id that an answer hands out. -/
def Pipeline.Answer.queued? : Pipeline.Answer → Option Nat
  | queued id => some id
  | _ => none

/-- Answers that hand out no id hand out none as failures either. -/
theorem Pipeline.Answer.queued?_ofResult {α : Type} {f : α → Pipeline.Answer}
    (h : ∀ x, (f x).queued? = none) (result : Except Failure α) :
    (Pipeline.Answer.ofResult f result).queued? = none := by
  cases result with
  | error e => rfl
  | ok x => exact h x

namespace Pipeline

variable {P F : Type} {r : Renderer P F} {p q : Pipeline P F}

/-- Events about thumbnails, the oldest first. -/
def iconEvents (p : Pipeline P F) : List Event :=
  p.events.filter Event.isIcon

/-- Requests about the film of thumbnails, the oldest first. -/
def iconRequests (p : Pipeline P F) : List (Request P) :=
  p.requests.filter Request.isIcon

/-- Thumbnails that are done with, in the order of their events. -/
def settled (p : Pipeline P F) : List Nat :=
  p.events.filterMap Event.settled?

/-- Functions of events about thumbnails see no other event. -/
theorem filterMap_iconEvents {α : Type} {f : Event → Option α}
    (h : ∀ samples, f (.converged samples) = none) (p : Pipeline P F) :
    p.iconEvents.filterMap f = p.events.filterMap f := by
  unfold iconEvents
  rw [List.filterMap_filter]
  refine congrArg (fun g => List.filterMap g p.events) (funext fun e => ?_)
  cases e with
  | converged samples => exact (h samples).symm
  | iconFinished id image => rfl
  | iconDropped id reason => rfl

/-- An event is the last of those that have been told. -/
theorem filterMap_emit {α : Type} (f : Event → Option α) (p : Pipeline P F) (e : Event) :
    (p.emit e).events.filterMap f = p.events.filterMap f ++ (f e).toList := by
  change (p.events ++ [e]).filterMap f = _
  rw [List.filterMap_append, List.filterMap_cons]
  cases f e <;> rfl

/-- Thumbnails that are not done with, the active one first. -/
def waiting (p : Pipeline P F) : List Thumbnail :=
  (p.active.map ActiveThumbnail.thumbnail).toList ++ p.queue

/-- Nothing about thumbnails has changed. -/
structure SameIcons (p q : Pipeline P F) : Prop where
  settings : q.settings = p.settings
  queue : q.queue = p.queue
  active : q.active = p.active
  nextId : q.nextId = p.nextId
  film : q.films.icon = p.films.icon
  extent : q.icon.extent = p.icon.extent
  events : q.iconEvents = p.iconEvents
  requests : q.iconRequests = p.iconRequests

/-- Doing nothing leaves thumbnails alone. -/
theorem SameIcons.refl (p : Pipeline P F) : SameIcons p p :=
  ⟨rfl, rfl, rfl, rfl, rfl, rfl, rfl, rfl⟩

/-- What leaves thumbnails alone, twice, leaves them alone. -/
theorem SameIcons.trans {o : Pipeline P F} (h : SameIcons o p) (h' : SameIcons p q) :
    SameIcons o q :=
  ⟨h'.settings.trans h.settings, h'.queue.trans h.queue, h'.active.trans h.active,
    h'.nextId.trans h.nextId, h'.film.trans h.film, h'.extent.trans h.extent,
    h'.events.trans h.events, h'.requests.trans h.requests⟩

/-- A request about something else. -/
theorem sameIcons_note (p : Pipeline P F) {request : Request P} (h : request.isIcon = false) :
    SameIcons p (p.note request) := by
  refine ⟨rfl, rfl, rfl, rfl, rfl, rfl, rfl, ?_⟩
  simp [iconRequests, note, h]

/-- Announcing convergence leaves thumbnails alone. -/
theorem sameIcons_announce (p : Pipeline P F) : SameIcons p p.announce := by
  unfold announce
  split
  · refine ⟨rfl, rfl, rfl, rfl, rfl, rfl, ?_, rfl⟩
    simp [iconEvents, emit, Event.isIcon, Event.settled?]
  · exact .refl p

/-- Neither the signals nor the main view touch thumbnails. -/
theorem MainStep.sameIcons (h : MainStep r p q) : SameIcons p q := by
  cases h with
  | announce => exact sameIcons_announce p
  | _ =>
      refine ⟨rfl, rfl, rfl, rfl, rfl, rfl, rfl, ?_⟩
      simp [iconRequests, Request.isIcon, note, Pipeline.vacate, Pipeline.forgetSamples,
        Pipeline.consumeRestart]

/-- Rendering the main view leaves thumbnails alone. -/
theorem MainSteps.sameIcons (h : MainSteps r p q) : SameIcons p q :=
  preserves_of_step (fun hStep hIcons => hIcons.trans hStep.sameIcons) h (.refl p)

/-- Installing a scene neither takes a thumbnail from the queue nor touches the active one.
-/
theorem install_sameIcons (r : Renderer P F) (p : Pipeline P F) (scene : Scene) :
    SameIcons p (p.install r scene).2 := by
  unfold install
  split
  · exact ⟨rfl, rfl, rfl, rfl, rfl, rfl, rfl, rfl⟩
  · have hBuild : SameIcons p (p.note .build) := sameIcons_note p rfl
    dsimp only
    split
    · exact hBuild
    · exact hBuild.trans ⟨rfl, rfl, rfl, rfl, rfl, rfl, rfl, rfl⟩

/-- Neither a scene nor its fault touches thumbnails. -/
theorem installResult_sameIcons (r : Renderer P F) (p : Pipeline P F)
    (result : Except CompileError Scene) : SameIcons p (p.installResult r result).2 := by
  cases result with
  | error e => exact .refl p
  | ok scene => exact p.install_sameIcons r scene

/-- Reading the picture of the main view leaves thumbnails alone. -/
theorem readMain_sameIcons (r : Renderer P F) (p : Pipeline P F) :
    SameIcons p (p.readMain r).2 := by
  unfold readMain
  split
  · exact .refl p
  · exact sameIcons_note p rfl

/-- Asking for a thumbnail hands out the next id. -/
theorem perform_of_subject (r : Renderer P F) (p : Pipeline P F) {c : Command}
    {subject : Subject} (h : c.subject? = some subject) :
    p.perform r c = (.queued p.nextId, (p.enqueue subject).2) := by
  cases c <;> cases h
  rfl

/-- Any other command hands out no id. It is made of single changes or does
nothing about thumbnails. -/
theorem perform_of_none (r : Renderer P F) (p : Pipeline P F) {c : Command}
    (h : c.subject? = none) :
    (p.perform r c).1.queued? = none ∧
      (Steps r p (p.perform r c).2 ∨ SameIcons p (p.perform r c).2) := by
  cases c with
  | enqueue subject => cases h
  | restart | resize extent | setBudget samples =>
      exact ⟨rfl, .inr ⟨rfl, rfl, rfl, rfl, rfl, rfl, rfl, rfl⟩⟩
  | setGraph g =>
      exact ⟨Answer.queued?_ofResult (fun _ => rfl) _, .inr (p.installResult_sameIcons r _)⟩
  | setTime g time =>
      exact ⟨Answer.queued?_ofResult (fun _ => rfl) _, .inr (p.installResult_sameIcons r _)⟩
  | install scene =>
      exact ⟨Answer.queued?_ofResult (fun _ => rfl) _, .inr (p.install_sameIcons r scene)⟩
  | tick => exact ⟨Answer.queued?_ofResult (fun _ => rfl) _, .inl (p.tick_steps r)⟩
  | runUntilConverged ticks =>
      exact ⟨Answer.queued?_ofResult (fun _ => rfl) _, .inl (p.runUntilConverged_steps r ticks)⟩
  | readMain => exact ⟨Answer.queued?_ofResult (fun _ => rfl) _, .inr (p.readMain_sameIcons r)⟩

/-- What single changes preserve, and what does not depend on anything but
thumbnails, a command preserves that asks for none. -/
theorem perform_preserves {Q : Pipeline P F → Prop} (hStep : ∀ {p q}, Step r p q → Q p → Q q)
    (hIcons : ∀ {p q}, SameIcons p q → Q p → Q q) {c : Command} (h : c.subject? = none)
    (hStart : Q p) : Q (p.perform r c).2 := by
  obtain ⟨_, hSteps | hSame⟩ := perform_of_none r p h
  · exact preserves_of_step (R := Step r) hStep hSteps hStart
  · exact hIcons hSame hStart

/-- So does a run, if asking for thumbnails preserves it as well. Commands that neither tick
nor ask for anything leave thumbnails alone, which the second premise is about. -/
theorem after_preserves {Q : Pipeline P F → Prop} (hStep : ∀ {p q}, Step r p q → Q p → Q q)
    (hIcons : ∀ {p q}, SameIcons p q → Q p → Q q)
    (hEnqueue : ∀ {p subject}, Q p → Q (p.enqueue subject).2) (hStart : Q p)
    (commands : List Command) : Q (after r p commands) := by
  induction commands generalizing p with
  | nil => exact hStart
  | cons c rest ih =>
      refine ih (p := (p.perform r c).2) ?_
      cases hSubject : c.subject? with
      | some subject =>
          rw [perform_of_subject r p hSubject]
          exact hEnqueue hStart
      | none => exact perform_preserves hStep hIcons hSubject hStart

/-! ### The thumbnails that were asked for -/

/-- The answers to some commands. -/
def answers (r : Renderer P F) (p : Pipeline P F) : List Command → List Answer
  | [] => []
  | c :: rest => (p.perform r c).1 :: answers r (p.perform r c).2 rest

/-- The thumbnails that some commands ask for, numbered from an id. -/
def asked (next : Nat) : List Command → List Thumbnail
  | [] => []
  | c :: rest =>
    match c.subject? with
    | some subject => ⟨next, subject⟩ :: asked (next + 1) rest
    | none => asked next rest

/-- A command that asks for a thumbnail takes the next id. -/
theorem asked_cons_of_subject (next : Nat) {c : Command} {rest : List Command} {subject : Subject}
    (h : c.subject? = some subject) :
    asked next (c :: rest) = ⟨next, subject⟩ :: asked (next + 1) rest := by
  rw [asked, h]

/-- Other commands take no id. -/
theorem asked_cons_of_none (next : Nat) {c : Command} {rest : List Command}
    (h : c.subject? = none) : asked next (c :: rest) = asked next rest := by
  rw [asked, h]

/-- The ids are consecutive, from the next one on. -/
theorem asked_ids (next : Nat) (commands : List Command) :
    (asked next commands).map Thumbnail.id = List.range' next (asked next commands).length := by
  induction commands generalizing next with
  | nil => rfl
  | cons c rest ih =>
      cases hSubject : c.subject? with
      | some subject =>
          rw [asked_cons_of_subject next hSubject]
          simp only [List.map_cons, List.length_cons, List.range'_succ, ih]
      | none => rw [asked_cons_of_none next hSubject, ih]

/-- Ticks hand out no id. -/
theorem Step.nextId (h : Step r p q) : q.nextId = p.nextId := by
  cases h with
  | main h => exact h.sameIcons.nextId
  | prime h => cases h <;> rfl
  | shot h => cases h <;> rfl
  | finish h => cases h <;> rfl

/-- Commands that ask for no thumbnail hand out no id. -/
theorem nextId_of_none (r : Renderer P F) (p : Pipeline P F) {c : Command}
    (h : c.subject? = none) : (p.perform r c).2.nextId = p.nextId :=
  perform_preserves (Q := fun q => q.nextId = p.nextId)
    (fun hStep hNext => hStep.nextId.trans hNext) (fun hIcons hNext => hIcons.nextId.trans hNext)
    h rfl

/-- The ids that are answered are those of the thumbnails that are asked for. -/
theorem answers_queued (r : Renderer P F) (p : Pipeline P F) (commands : List Command) :
    (answers r p commands).filterMap Answer.queued? =
      (asked p.nextId commands).map Thumbnail.id := by
  induction commands generalizing p with
  | nil => rfl
  | cons c rest ih =>
      rw [answers, List.filterMap_cons]
      cases hSubject : c.subject? with
      | some subject =>
          rw [perform_of_subject r p hSubject, asked_cons_of_subject _ hSubject, ih]
          rfl
      | none =>
          rw [(perform_of_none r p hSubject).1, asked_cons_of_none _ hSubject, ih,
            nextId_of_none r p hSubject]

/-! ### No thumbnail is lost -/

/-- Of the thumbnails that were asked for, the first ones are done with and the
others are waiting. -/
def Kept (thumbnails : List Thumbnail) (p : Pipeline P F) : Prop :=
  ∃ done, thumbnails = done ++ p.waiting ∧ done.map Thumbnail.id = p.settled

/-- What leaves thumbnails alone leaves those that wait. -/
theorem SameIcons.waiting (h : SameIcons p q) : q.waiting = p.waiting := by
  unfold Pipeline.waiting
  rw [h.active, h.queue]

/-- What leaves thumbnails alone leaves those that are done with. -/
theorem SameIcons.settled (h : SameIcons p q) : q.settled = p.settled := by
  rw [Pipeline.settled, Pipeline.settled, ← filterMap_iconEvents (fun _ => rfl), h.events,
    filterMap_iconEvents fun _ => rfl]

/-- Whether all thumbnails are kept depends only on those that wait and those that are done
with. -/
theorem Kept.congr {thumbnails : List Thumbnail} (h : Kept thumbnails p)
    (hWaiting : q.waiting = p.waiting) (hSettled : q.settled = p.settled) : Kept thumbnails q := by
  obtain ⟨done, hDone, hIds⟩ := h
  exact ⟨done, hWaiting ▸ hDone, hSettled ▸ hIds⟩

/-- The first of the waiting thumbnails is done with. -/
theorem Kept.settle {thumbnails : List Thumbnail} {t : Thumbnail} (h : Kept thumbnails p)
    (hWaiting : p.waiting = t :: q.waiting) (hSettled : q.settled = p.settled ++ [t.id]) :
    Kept thumbnails q := by
  obtain ⟨done, hDone, hIds⟩ := h
  refine ⟨done ++ [t], ?_, ?_⟩
  · rw [hDone, hWaiting, List.append_assoc, List.singleton_append]
  · rw [hSettled, List.map_append, hIds, List.map_singleton]

/-- A thumbnail that is asked for waits at the end. -/
theorem Kept.enqueue {thumbnails : List Thumbnail} (h : Kept thumbnails p) (subject : Subject) :
    Kept (thumbnails ++ [⟨p.nextId, subject⟩]) (p.enqueue subject).2 := by
  obtain ⟨done, hDone, hIds⟩ := h
  refine ⟨done, ?_, hIds⟩
  rw [hDone]
  simp only [Pipeline.waiting, Pipeline.enqueue, List.append_assoc]

/-- The waiting thumbnails of an idle pipeline with a queue. -/
theorem Ready.waiting {t : Thumbnail} {rest : List Thumbnail} {i : Installed P}
    (h : p.Ready t rest i) : p.waiting = t :: rest := by
  simp only [Pipeline.waiting, h.active, h.queue, Option.map_none, Option.toList_none,
    List.nil_append]

/-- A thumbnail that is taken from the queue becomes active or is dropped with an event, and
none is lost. -/
theorem PrimeStep.kept (hLossless : r.Lossless) {thumbnails : List Thumbnail}
    (h : PrimeStep r p q) (hKept : Kept thumbnails p) : Kept thumbnails q := by
  cases h with
  | @drop t rest i hReady _ =>
      refine hKept.settle (t := t) (hReady.waiting.trans ?_)
        (filterMap_emit Event.settled? p _)
      simp only [Pipeline.waiting, emit, hReady.active, Option.map_none, Option.toList_none,
        List.nil_append]
  | allocateIcon | refuseIcon => exact hKept.congr rfl rfl
  | allocateIconFails _ _ _ hFault hResource =>
      exact absurd (hLossless.allocate hFault) (hResource ▸ Bool.false_ne_true)
  | activate hReady _ _ _ => exact hKept.congr hReady.waiting.symm rfl
  | clearIconFails _ _ hClear => exact absurd hClear hLossless.clear

/-- A sample loses no thumbnail. -/
theorem ShotStep.kept {thumbnails : List Thumbnail} (h : ShotStep r p q)
    (hKept : Kept thumbnails p) : Kept thumbnails q := by
  cases h with
  | sampleIcon hInstalled hActive hFilm hFrame hSample =>
      refine hKept.congr ?_ rfl
      simp only [Pipeline.waiting, note, hActive, Option.map_some]
  | sampleIconFails => exact hKept.congr rfl rfl

/-- A thumbnail whose picture is handed out is done with, and is the one that was waiting
first. -/
theorem FinishStep.kept {thumbnails : List Thumbnail} (h : FinishStep r p q)
    (hKept : Kept thumbnails p) : Kept thumbnails q := by
  cases h with
  | readIconFails => exact hKept.congr rfl rfl
  | @finishIcon a film image hActive hFilm hSamples hRead =>
      refine hKept.settle (t := a.thumbnail) ?_
        (filterMap_emit Event.settled? (p.note (.read .icon)) _)
      simp only [Pipeline.waiting, hActive]
      rfl

/-- A single change keeps all thumbnails in their order. -/
theorem Step.kept (hLossless : r.Lossless) {thumbnails : List Thumbnail} (h : Step r p q)
    (hKept : Kept thumbnails p) : Kept thumbnails q := by
  cases h with
  | main h => exact hKept.congr h.sameIcons.waiting h.sameIcons.settled
  | prime h => exact h.kept hLossless hKept
  | shot h => exact h.kept hKept
  | finish h => exact h.kept hKept

/-- So does a whole run, also where ticks of it fail. -/
theorem after_kept (hLossless : r.Lossless) {thumbnails : List Thumbnail}
    (hKept : Kept thumbnails p) (commands : List Command) :
    Kept (thumbnails ++ asked p.nextId commands) (after r p commands) := by
  induction commands generalizing p thumbnails with
  | nil => exact (List.append_nil thumbnails).symm ▸ hKept
  | cons c rest ih =>
      change Kept _ (after r (p.perform r c).2 rest)
      cases hSubject : c.subject? with
      | some subject =>
          rw [perform_of_subject r p hSubject, asked_cons_of_subject _ hSubject,
            ← List.singleton_append, ← List.append_assoc]
          exact ih (hKept.enqueue subject)
      | none =>
          rw [asked_cons_of_none _ hSubject, ← nextId_of_none r p hSubject]
          exact ih (perform_preserves (fun hStep hKept => hStep.kept hLossless hKept)
            (fun hIcons hKept => hKept.congr hIcons.waiting hIcons.settled) hSubject hKept)

/-! ### Runs on films in memory -/

/-- A thumbnail is done with by a picture or by being dropped. -/
theorem count_settled (events : List Event) (id : Nat) :
    (events.filterMap Event.settled?).count id =
      (events.filterMap Event.finished?).count id + (events.filterMap Event.dropped?).count id := by
  induction events with
  | nil => rfl
  | cons e rest ih =>
      cases e with
      | converged samples => exact ih
      | iconFinished first image =>
          simp only [List.filterMap_cons, Event.settled?, Event.finished?, Event.dropped?,
            List.count_cons, ih]
          omega
      | iconDropped first reason =>
          simp only [List.filterMap_cons, Event.settled?, Event.finished?, Event.dropped?,
            List.count_cons, ih]
          omega

/-- At the start no thumbnail was asked for. -/
theorem kept_start (settings : Settings) (unseeded : ChaCha) :
    Kept [] (start settings unseeded : Pipeline P F) :=
  ⟨[], rfl, rfl⟩

/-- The ids that wait are that of the active thumbnail, if there is one, and those of the
queue. -/
theorem map_id_waiting (p : Pipeline P F) : p.waiting.map Thumbnail.id =
    (p.active.map fun a => a.thumbnail.id).toList ++ p.queue.map Thumbnail.id := by
  unfold Pipeline.waiting
  cases p.active <;> rfl

/-- Whatever the other threads ask for between the ticks, and whichever ticks fail: the ids
that were handed out are those of the events, of the active thumbnail and of the queue, in
this order. Each is in one of these places only, and all of them increase. Nothing is said
of when a thumbnail is done: without a scene in use the queue waits for ever. -/
theorem thumbnails_exactly_once_in_order (limit : Nat) (settings : Settings) (unseeded : ChaCha)
    (commands : List Command) :
    let r := Renderer.tracing limit
    let p := after r (start settings unseeded) commands
    let issued := (answers r (start settings unseeded) commands).filterMap Answer.queued?
    let active := (p.active.map fun a => a.thumbnail.id).toList
    let queued := p.queue.map Thumbnail.id
    issued = p.settled ++ (active ++ queued) ∧
      (∀ id ∈ issued, (p.events.filterMap Event.finished?).count id +
        (p.events.filterMap Event.dropped?).count id + active.count id + queued.count id = 1) ∧
      p.settled.Pairwise (· < ·) ∧
      (∀ id ∈ p.settled, ∀ later ∈ active ++ queued, id < later) ∧
      (∀ id ∈ active, ∀ later ∈ queued, id < later) ∧
      queued.Pairwise (· < ·) := by
  intro r p issued active queued
  have hIssued : issued = (asked 1 commands).map Thumbnail.id :=
    answers_queued r (start settings unseeded) commands
  have hPlaces : issued = p.settled ++ (active ++ queued) := by
    obtain ⟨done, hDone, hIds⟩ :=
      after_kept (Renderer.tracing_lossless limit) (kept_start settings unseeded) commands
    rw [hIssued, ← map_id_waiting, ← hIds, ← List.map_append, ← hDone]
    rfl
  have hIncreasing : issued.Pairwise (· < ·) := by
    rw [hIssued, asked_ids]
    exact List.pairwise_lt_range'
  have hOnce : ∀ id ∈ issued, issued.count id = 1 := fun id hId =>
    (List.Nodup.count (hIncreasing.imp Nat.ne_of_lt)).trans (if_pos hId)
  rw [hPlaces, List.pairwise_append, List.pairwise_append] at hIncreasing
  obtain ⟨hSettled, ⟨_, hQueued, hActive⟩, hLater⟩ := hIncreasing
  refine ⟨hPlaces, fun id hId => ?_, hSettled, hLater, hActive, hQueued⟩
  have hCount := hOnce id hId
  rw [hPlaces, List.count_append, List.count_append, Pipeline.settled, count_settled] at hCount
  omega

end Pipeline

end PathTracer
