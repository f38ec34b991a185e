import PathTracer.Pipeline.Renderer

/-! The state of the progressive renderer. One thread drives it with ticks.
Other threads only set the signals and append to the queue of thumbnails, and
they learn from its events what became of that. -/
namespace PathTracer

/-- What a thumbnail shows. -/
inductive Subject where
  /-- A material of the scene on the preview sphere. -/
  | material (name : String)
  /-- The shapes of the scene. -/
  | scene
  deriving Repr, DecidableEq

/-- A thumbnail that was asked for. -/
structure Thumbnail where
  id : Nat
  subject : Subject
  deriving Repr, DecidableEq

/-- The preview material of a subject, negative for the scene. There is none
for a material that the scene does not have. -/
def Subject.preview? (scene : Scene) : Subject → Option Int
  | .scene => some (-1)
  | .material name => (scene.materialIndex? name).map Int.ofNat

/-- Why a thumbnail without a preview is dropped. -/
def Subject.dropReason : Subject → String
  | .scene => ""
  | .material name => (Defect.unresolvedMaterial name).message

/-- A thumbnail with samples of it on the film. -/
structure ActiveThumbnail where
  thumbnail : Thumbnail
  preview : Int
  samples : Nat
  deriving Repr, DecidableEq

/-- What the renderer tells those who wait for it. -/
inductive Event where
  | iconFinished (id : Nat) (image : Image)
  /-- The subject does not exist in the current scene. -/
  | iconDropped (id : Nat) (reason : String)
  /-- The main view has as many samples as it may have. -/
  | converged (samples : Nat)
  deriving Repr, DecidableEq

/-- The scene in use with the program that renders it. -/
structure Installed (P : Type) where
  scene : Scene
  program : P

/-- What the pipeline asks of its renderer. -/
inductive Request (P : Type) where
  | build
  | allocate (target : Target) (extent : Extent)
  | clear (target : Target)
  | sample (target : Target) (installed : Installed P) (frame : Frame)
  | read (target : Target)

/-- The state of the main view. -/
structure MainView where
  /-- The extent that was last tried. -/
  extent : Extent
  samples : Nat
  /-- There was no memory for the film. -/
  refused : Bool
  /-- That all samples are there has been told. -/
  converged : Bool
  deriving Repr, DecidableEq

/-- A view without samples. -/
def MainView.fresh (extent : Extent) : MainView := ⟨extent, 0, false, false⟩

/-- The state of the film of thumbnails. -/
structure IconView where
  extent : Extent
  /-- There was no memory for the film. -/
  refused : Bool
  deriving Repr, DecidableEq

/-- The stream of random numbers of a session: that of the seed, if there is one. -/
def Settings.stream (s : Settings) (unseeded : ChaCha) : ChaCha :=
  s.seed.elim unseeded fun seed => .ofSeed seed.toUInt64

structure Pipeline (P F : Type) where
  settings : Settings
  /-- Signal that the main view is to start again. -/
  restartPending : Bool
  /-- Signal which extent the main view is to have. -/
  resolution : Extent
  /-- Signal how many samples the main view is to have. -/
  budget : Nat
  queue : List Thumbnail
  nextId : Nat
  installed : Option (Installed P)
  /-- Programs by the hash of their source. -/
  cache : List (UInt64 × P)
  films : PerTarget F
  view : MainView
  icon : IconView
  active : Option ActiveThumbnail
  rng : ChaCha
  /-- Events that nobody has taken yet, the oldest first. -/
  events : List Event
  /-- Requests to the renderer, the oldest first. -/
  requests : List (Request P)

namespace Pipeline

variable {P F : Type}

/-- A pipeline without a scene. Settings without a seed leave it the generator that it is
given, which the system would take from its entropy. -/
def start (settings : Settings) (unseeded : ChaCha := .ofSeed 0) : Pipeline P F where
  settings := settings
  restartPending := false
  resolution := settings.resolution
  budget := settings.maxSamples
  queue := []
  nextId := 1
  installed := none
  cache := []
  films := .empty
  view := .fresh ⟨0, 0⟩
  icon := ⟨⟨0, 0⟩, false⟩
  active := none
  rng := settings.stream unseeded
  events := []
  requests := []

def emit (p : Pipeline P F) (e : Event) : Pipeline P F :=
  { p with events := p.events ++ [e] }

def note (p : Pipeline P F) (q : Request P) : Pipeline P F :=
  { p with requests := p.requests ++ [q] }

/-- Take all events and requests out. -/
def drain (p : Pipeline P F) : (List Event × List (Request P)) × Pipeline P F :=
  ((p.events, p.requests), { p with events := [], requests := [] })

/-! ### Signals -/

/-- Ask for a new start of the main view at the next tick. -/
def restart (p : Pipeline P F) : Pipeline P F :=
  { p with restartPending := true }

def resize (p : Pipeline P F) (extent : Extent) : Pipeline P F :=
  { p with resolution := extent }

def setBudget (p : Pipeline P F) (samples : Nat) : Pipeline P F :=
  { p with budget := samples }

/-- Ask for a thumbnail. Thumbnails are finished in the order of their ids. -/
def enqueue (p : Pipeline P F) (subject : Subject) : Nat × Pipeline P F :=
  (p.nextId, { p with queue := p.queue ++ [⟨p.nextId, subject⟩], nextId := p.nextId + 1 })

/-! ### Phases -/

inductive MainPhase where
  | idle
  | rendering (samples : Nat)
  deriving Repr, DecidableEq

inductive IconPhase where
  | idle
  | queued (count : Nat)
  | rendering (id samples : Nat)
  deriving Repr, DecidableEq

def mainPhase (p : Pipeline P F) : MainPhase :=
  if p.installed.isSome && p.films.main.isSome && p.view.samples < p.budget then
    .rendering p.view.samples
  else .idle

def iconPhase (p : Pipeline P F) : IconPhase :=
  match p.active, p.queue with
  | some a, _ => .rendering a.thumbnail.id a.samples
  | none, [] => .idle
  | none, queue => .queued queue.length

/-! ### Scenes -/

/-- Put a scene with its program in use. Its sample count, if it has one,
becomes the budget. -/
def use (p : Pipeline P F) (scene : Scene) (program : P) : Pipeline P F :=
  restart { p with
    installed := some ⟨scene, program⟩
    budget := scene.render.samples.getD p.budget }

/-- Install a scene. A program with the same hash is used again. -/
def install (r : Renderer P F) (p : Pipeline P F) (scene : Scene) :
    Except Failure Unit × Pipeline P F :=
  match p.cache.lookup scene.program.hash with
  | some program => (.ok (), p.use scene program)
  | none =>
    let p := p.note .build
    match r.build scene with
    | .error e => (.error e, p)
    | .ok program =>
      (.ok (), use { p with cache := (scene.program.hash, program) :: p.cache } scene program)

/-- Install what compiling gave. A fault leaves everything as it was. -/
def installResult (r : Renderer P F) (p : Pipeline P F) :
    Except CompileError Scene → Except Failure Unit × Pipeline P F
  | .error e => (.error (.compile e), p)
  | .ok scene => p.install r scene

/-- Compile and install a graph. -/
def setGraph (r : Renderer P F) (p : Pipeline P F) (g : SceneGraph) :
    Except Failure Unit × Pipeline P F :=
  p.installResult r g.compile

/-- Evaluate the options of a graph at another time. -/
def setTime (r : Renderer P F) (p : Pipeline P F) (g : SceneGraph) (time : Float32) :
    Except Failure Unit × Pipeline P F :=
  p.installResult r <| match p.installed with
    | some i => i.scene.refresh g time
    | none => g.compileAt time

/-- The picture of the main view, if it has a film. -/
def readMain (r : Renderer P F) (p : Pipeline P F) :
    Except Failure (Option Image) × Pipeline P F :=
  match p.films.main with
  | none => (.ok none, p)
  | some film => ((r.read film).map some, p.note (.read .main))

end Pipeline

end PathTracer
