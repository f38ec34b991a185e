import PathTracer.Pipeline.Basic

/-! One tick of the progressive renderer: the signals are consumed, the main
view gets a sample unless it has them all, and the active thumbnail gets one.
A failure ends the tick, and what was done before it stays. -/
namespace PathTracer.Pipeline

variable {P F : Type}

/-- What a tick did. -/
structure TickReport where
  restarted : Bool
  reallocated : Bool
  /-- Samples of the main view, if one was added. -/
  mainSamples : Option Nat
  /-- The active thumbnail and its samples, if one was added. -/
  icon : Option (Nat × Nat)
  finishedIcon : Option Nat
  deriving Repr, DecidableEq

/-! ### The main view -/

/-- Replace the film of the main view by one of the requested extent. Without
memory for it, the view waits for the next restart. -/
def reallocate (r : Renderer P F) (p : Pipeline P F) : Except Failure Bool × Pipeline P F :=
  let p := { p with films := p.films.erase .main, view := .fresh p.resolution }
  if p.resolution.isEmpty then (.ok false, p)
  else
    let p := p.note (.allocate .main p.resolution)
    match r.allocate .main p.resolution with
    | .ok film => (.ok true, { p with films := p.films.insert .main film })
    | .error e =>
      if e.isResource then (.ok false, { p with view := { p.view with refused := true } })
      else (.error e, p)

/-- Forget the samples of the main view. -/
def forgetSamples (p : Pipeline P F) : Pipeline P F :=
  { p with view := { p.view with samples := 0, converged := false } }

/-- Clear the film of the main view, if there is one. -/
def clearMain (r : Renderer P F) (p : Pipeline P F) : Except Failure Unit × Pipeline P F :=
  match p.films.main with
  | none => (.ok (), p.forgetSamples)
  | some film =>
    let p := p.note (.clear .main)
    match r.clear film with
    | .error e => (.error e, p)
    | .ok film => (.ok (), forgetSamples { p with films := p.films.insert .main film })

/-- Bring the film of the main view to the requested extent, or clear it at a
restart. The answer is whether there is a new film. -/
def prepareMain (r : Renderer P F) (p : Pipeline P F) (restarted : Bool) :
    Except Failure Bool × Pipeline P F :=
  if p.resolution ≠ p.view.extent || (restarted && p.view.refused) then p.reallocate r
  else if restarted then
    match p.clearMain r with
    | (.error e, p) => (.error e, p)
    | (.ok (), p) => (.ok false, p)
  else (.ok false, p)

/-- Add a sample to the main view. -/
def sampleMain (r : Renderer P F) (p : Pipeline P F) (i : Installed P) (film : F) :
    Except Failure Nat × Pipeline P F :=
  let p := { p with view := { p.view with converged := false } }
  match Frame.main i.scene p.settings p.view.extent p.view.samples p.rng with
  | .error e => (.error e, p)
  | .ok (frame, rng) =>
    let p := note { p with rng := rng } (.sample .main i frame)
    match r.sample i.program frame film with
    | .error e => (.error e, p)
    | .ok film =>
      let samples := p.view.samples + 1
      (.ok samples, { p with
        films := p.films.insert .main film
        view := { p.view with samples := samples } })

/-- Tell once that the main view has all its samples. -/
def announce (p : Pipeline P F) : Pipeline P F :=
  if p.budget ≤ p.view.samples && !p.view.converged then
    emit { p with view := { p.view with converged := true } } (.converged p.view.samples)
  else p

/-- Add a sample to the main view unless it has them all. -/
def renderMain (r : Renderer P F) (p : Pipeline P F) :
    Except Failure (Option Nat) × Pipeline P F :=
  match p.installed, p.films.main with
  | some i, some film =>
    if p.view.samples < p.budget then
      match p.sampleMain r i film with
      | (.error e, p) => (.error e, p)
      | (.ok samples, p) => (.ok (some samples), p.announce)
    else (.ok none, p.announce)
  | _, _ => (.ok none, p)

/-! ### Thumbnails -/

/-- The extent of all thumbnails. -/
def iconExtent (p : Pipeline P F) : Extent :=
  ⟨p.settings.iconSize, p.settings.iconSize⟩

/-- See that there is a film for thumbnails. Without memory for it, they wait
for the next restart. -/
def ensureIconFilm (r : Renderer P F) (p : Pipeline P F) : Except Failure Bool × Pipeline P F :=
  if p.films.icon.map r.extent = some p.iconExtent then (.ok true, p)
  else if p.icon.refused then (.ok false, p)
  else
    let p := note { p with films := p.films.erase .icon } (.allocate .icon p.iconExtent)
    match r.allocate .icon p.iconExtent with
    | .ok film =>
      (.ok true, { p with films := p.films.insert .icon film, icon := ⟨p.iconExtent, false⟩ })
    | .error e =>
      if e.isResource then (.ok false, { p with icon := { p.icon with refused := true } })
      else (.error e, p)

/-- Clear the film of thumbnails. -/
def clearIcon (r : Renderer P F) (p : Pipeline P F) : Except Failure Unit × Pipeline P F :=
  match p.films.icon with
  | none => (.ok (), p)
  | some film =>
    let p := p.note (.clear .icon)
    match r.clear film with
    | .error e => (.error e, p)
    | .ok film => (.ok (), { p with films := p.films.insert .icon film })

/-- Make a thumbnail the active one. It goes back to the head of the queue if
there is no film for it. -/
def activate (r : Renderer P F) (p : Pipeline P F) (t : Thumbnail) (preview : Int) :
    Except Failure Unit × Pipeline P F :=
  match p.ensureIconFilm r with
  | (.error e, p) => (.error e, p)
  | (.ok false, p) => (.ok (), { p with queue := t :: p.queue })
  | (.ok true, p) =>
    match p.clearIcon r with
    | (.error e, p) => (.error e, p)
    | (.ok (), p) => (.ok (), { p with active := some ⟨t, preview, 0⟩ })

/-- Activate the first of some thumbnails that shows something of a scene, and
drop those before it. The others make up the queue. -/
def primeFrom (r : Renderer P F) (scene : Scene) :
    List Thumbnail → Pipeline P F → Except Failure Unit × Pipeline P F
  | [], p => (.ok (), { p with queue := [] })
  | t :: rest, p =>
    match t.subject.preview? scene with
    | none => primeFrom r scene rest (p.emit (.iconDropped t.id t.subject.dropReason))
    | some preview => activate r { p with queue := rest } t preview

/-- Activate the next thumbnail of the queue, once there is a scene. -/
def prime (r : Renderer P F) (p : Pipeline P F) : Except Failure Unit × Pipeline P F :=
  match p.installed with
  | none => (.ok (), p)
  | some i => primeFrom r i.scene p.queue p

/-- What a tick did for thumbnails. -/
structure IconStep where
  sampled : Option (Nat × Nat)
  finished : Option Nat
  deriving Repr, DecidableEq

/-- Hand out the finished thumbnail and go on with the next one. -/
def finishIcon (r : Renderer P F) (p : Pipeline P F) (a : ActiveThumbnail) (film : F) :
    Except Failure IconStep × Pipeline P F :=
  let p := p.note (.read .icon)
  match r.read film with
  | .error e => (.error e, p)
  | .ok image =>
    let p := emit { p with active := none } (.iconFinished a.thumbnail.id image)
    match p.prime r with
    | (.error e, p) => (.error e, p)
    | (.ok (), p) => (.ok ⟨some (a.thumbnail.id, a.samples), some a.thumbnail.id⟩, p)

/-- Add a sample to the active thumbnail, and finish it with the last one. -/
def sampleIcon (r : Renderer P F) (p : Pipeline P F) (i : Installed P) (a : ActiveThumbnail)
    (film : F) : Except Failure IconStep × Pipeline P F :=
  let (frame, rng) := Frame.icon i.scene a.preview p.settings p.icon.extent a.samples p.rng
  let p := note { p with rng := rng } (.sample .icon i frame)
  match r.sample i.program frame film with
  | .error e => (.error e, p)
  | .ok film =>
    let a := { a with samples := a.samples + 1 }
    let p := { p with films := p.films.insert .icon film, active := some a }
    if max p.settings.iconSamples 1 ≤ a.samples then p.finishIcon r a film
    else (.ok ⟨some (a.thumbnail.id, a.samples), none⟩, p)

/-- Activate a thumbnail if none is active. -/
def primeIfIdle (r : Renderer P F) (p : Pipeline P F) : Except Failure Unit × Pipeline P F :=
  if p.active.isNone then p.prime r else (.ok (), p)

/-- Add a sample to the active thumbnail, if there is one. -/
def stepIcon (r : Renderer P F) (p : Pipeline P F) : Except Failure IconStep × Pipeline P F :=
  match p.primeIfIdle r with
  | (.error e, p) => (.error e, p)
  | (.ok (), p) =>
    match p.installed, p.active, p.films.icon with
    | some i, some a, some film => p.sampleIcon r i a film
    | _, _, _ => (.ok ⟨none, none⟩, p)

/-! ### The tick -/

/-- Consume the restart signal. A restart also lets thumbnails ask for memory
again. -/
def consumeRestart (p : Pipeline P F) : Bool × Pipeline P F :=
  (p.restartPending, { p with
    restartPending := false
    icon := { p.icon with refused := p.icon.refused && !p.restartPending } })

/-- Run one tick. -/
def tick (r : Renderer P F) (p : Pipeline P F) : Except Failure TickReport × Pipeline P F :=
  let (restarted, p) := p.consumeRestart
  match p.prepareMain r restarted with
  | (.error e, p) => (.error e, p)
  | (.ok reallocated, p) =>
    match p.renderMain r with
    | (.error e, p) => (.error e, p)
    | (.ok mainSamples, p) =>
      match p.stepIcon r with
      | (.error e, p) => (.error e, p)
      | (.ok step, p) =>
        (.ok ⟨restarted, reallocated, mainSamples, step.sampled, step.finished⟩, p)

/-- Tick until the main view has all its samples, at most a number of times.
The answer is how many samples it has then. -/
def runUntilConverged (r : Renderer P F) : Nat → Pipeline P F → Except Failure Nat × Pipeline P F
  | 0, p => (.ok p.view.samples, p)
  | n + 1, p =>
    match p.tick r with
    | (.error e, p) => (.error e, p)
    | (.ok _, p) =>
      if p.view.converged then (.ok p.view.samples, p) else runUntilConverged r n p

end PathTracer.Pipeline
