import PathTracer.Pipeline.Tick

/-! Everything that can be done with a pipeline, as commands with answers, so
that its runs are lists of commands. -/
namespace PathTracer.Pipeline

variable {P F : Type}

/-- One use of a pipeline, by the thread that drives it or by another. -/
inductive Command where
  | restart
  | resize (extent : Extent)
  | setBudget (samples : Nat)
  | enqueue (subject : Subject)
  | setGraph (graph : SceneGraph)
  | setTime (graph : SceneGraph) (time : Float32)
  | install (scene : Scene)
  | tick
  | runUntilConverged (ticks : Nat)
  | readMain

/-- What comes back from a command. -/
inductive Answer where
  /-- A signal was set. -/
  | signalled
  /-- A thumbnail waits under this id. -/
  | queued (id : Nat)
  /-- A scene is in use. -/
  | installed
  | ticked (report : TickReport)
  /-- The number of samples that the main view has. -/
  | sampled (count : Nat)
  | picture (image : Option Image)
  | failed (failure : Failure)

/-- The answer of an operation that can fail. -/
def Answer.ofResult {α : Type} (f : α → Answer) : Except Failure α → Answer
  | .ok x => f x
  | .error e => .failed e

/-- Perform a command. -/
def perform (r : Renderer P F) (p : Pipeline P F) : Command → Answer × Pipeline P F
  | .restart => (.signalled, p.restart)
  | .resize extent => (.signalled, p.resize extent)
  | .setBudget samples => (.signalled, p.setBudget samples)
  | .enqueue subject => (p.enqueue subject).map .queued id
  | .setGraph g => (p.setGraph r g).map (.ofResult fun _ => .installed) id
  | .setTime g time => (p.setTime r g time).map (.ofResult fun _ => .installed) id
  | .install scene => (p.install r scene).map (.ofResult fun _ => .installed) id
  | .tick => (p.tick r).map (.ofResult .ticked) id
  | .runUntilConverged ticks => (p.runUntilConverged r ticks).map (.ofResult .sampled) id
  | .readMain => (p.readMain r).map (.ofResult .picture) id

/-- The pipeline after some commands. -/
def after (r : Renderer P F) (p : Pipeline P F) (commands : List Command) : Pipeline P F :=
  commands.foldl (fun p c => (p.perform r c).2) p

end PathTracer.Pipeline
