import PathTracer.Render.Sample

/-! The seam between the pipeline and what renders for it. -/
namespace PathTracer

/-- What renders samples, with programs built from scenes and films that hold
the state of a target. -/
structure Renderer (Program Film : Type) where
  build : Scene → Except Failure Program
  /-- A cleared film, or a resource failure if there is no memory for it. -/
  allocate : Target → Extent → Except Failure Film
  extent : Film → Extent
  clear : Film → Except Failure Film
  /-- Add one sample to a film. -/
  sample : Program → Frame → Film → Except Failure Film
  read : Film → Except Failure Image

/-- The renderer that runs the passes on films of at most `limit` pixels. -/
def Renderer.tracing (limit : Nat) : Renderer Tracer Film where
  build := fun scene => .ok (.ofScene scene)
  allocate := Film.allocate limit
  extent := Film.extent
  clear := fun film => .ok film.clear
  sample := fun tracer frame film => film.render tracer frame
  read := fun film => .ok film.image

end PathTracer
