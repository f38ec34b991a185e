import PathTracer.Render.Pass.Scatter

/-! One sample of a film: every pixel follows a path of at most the frame's
number of bounces and adds what it found to its average. -/
namespace PathTracer

namespace Pass

/-- One bounce of a path after its ray has been followed. -/
def shade (s : Site) (p : Pixel) : Pixel :=
  scatter s (direct s (shadow s (resolve s p)))

/-- Later bounces of a path. -/
def bounces (s : Site) : Nat → Pixel → Pixel
  | 0, p => p
  | n + 1, p => bounces s n (shade s (bounce s p))

/-- The whole path of a sample. -/
def path (s : Site) (p : Pixel) : Pixel :=
  bounces s (s.frame.maxDepth - 1) (shade s (primary s p))

/-- Light beyond this counts as a fault. -/
def greatestRadiance : Float32 := 1e30

/-- Whether a color is that of light. -/
def isLight (c : Vec3 Float32) : Bool :=
  c.toList.all fun x => x.isFinite && !(x < 0.0) && !(greatestRadiance < x)

/-- The color of a sample, black where it is not that of light. -/
def sanitize (c : Vec3 Float32) : Vec3 Float32 :=
  if isLight c then c else .zero

/-- The average after one more sample. -/
def average (index : Nat) (old color : Vec3 Float32) : Vec3 Float32 :=
  if index = 0 then color
  else (old * Float32.ofNat index + color) / (Float32.ofNat index + 1.0)

/-- Add the light of the path to the average. -/
def accumulate (s : Site) (p : Pixel) : Pixel :=
  let color := sanitize p.radiance.truncate
  { p with accum := (average s.frame.sampleIndex p.accum.truncate color).extend 1.0 }

/-- One sample of a pixel. -/
def sample (s : Site) (p : Pixel) : Pixel :=
  accumulate s (path s p)

end Pass

namespace Film

/-- Add one sample to a film. The frame has to be made for its extent. -/
def render (f : Film) (tracer : Tracer) (frame : Frame) : Except Failure Film :=
  if frame.extent = f.extent then
    .ok { f with pixels := f.pixels.mapIdx fun i p => Pass.sample ⟨tracer, frame, i⟩ p }
  else .error (.invalidState
    s!"frame is {frame.extent.text} but {f.target.name} kit is {f.extent.text}")

end Film

end PathTracer
