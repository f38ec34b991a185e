import PathTracer.Bsdf.Parameters
import PathTracer.Error
import PathTracer.Render.Target

/-! Films: what each pixel of a target keeps between the passes of a sample and
from one sample to the next. -/
namespace PathTracer

/-- The channels of a pixel in the order of its memory. -/
inductive Channel where
  | depth
  | normal
  | camOrigin
  | camDir
  | lightOrigin
  | lightDir
  | lightDepth
  | params (part : Fin 6)
  | direct
  | radiance
  | throughput
  | absorption
  | accum
  deriving Repr, DecidableEq

namespace Channel

def all : List Channel :=
  [depth, normal, camOrigin, camDir, lightOrigin, lightDir, lightDepth, params 0, params 1,
    params 2, params 3, params 4, params 5, direct, radiance, throughput, absorption, accum]

def name : Channel → String
  | depth => "Depth"
  | normal => "Normal"
  | camOrigin => "CamOrigin"
  | camDir => "CamDir"
  | lightOrigin => "LightOrigin"
  | lightDir => "LightDir"
  | lightDepth => "LightDepth"
  | params part => s!"Params{part.val}"
  | direct => "Direct"
  | radiance => "Radiance"
  | throughput => "Throughput"
  | absorption => "Absorption"
  | accum => "Accum"

end Channel

/-- The state of a pixel. -/
structure Pixel where
  /-- Distance of the hit, hash of the pixel, blend code and material. -/
  depth : Vec4 Float32
  /-- Normal of the hit, and a negative number once the path has ended. -/
  normal : Vec4 Float32
  camOrigin : Vec4 Float32
  camDir : Vec4 Float32
  /-- Start of the shadow ray, and the index of the light or a negative number. -/
  lightOrigin : Vec4 Float32
  /-- Direction of the shadow ray, and the distance of the point on the light. -/
  lightDir : Vec4 Float32
  /-- Distance that the shadow ray reaches, and the material there. -/
  lightDepth : Vec4 Float32
  params : PackedParams Float32
  direct : Vec4 Float32
  radiance : Vec4 Float32
  /-- Share of light that the path still carries, and the density with which
  its last direction was drawn. -/
  throughput : Vec4 Float32
  /-- Absorption of the medium around the path, and the number of bounces. -/
  absorption : Vec4 Float32
  /-- Average of all samples. -/
  accum : Vec4 Float32
  deriving Repr, DecidableEq

namespace Pixel

def blank : Pixel :=
  let zero : Vec4 Float32 := .splat 0.0
  ⟨zero, zero, zero, zero, zero, zero, zero, ⟨zero, zero, zero, zero, zero, zero⟩, zero, zero,
    zero, zero, zero⟩

instance : Inhabited Pixel := ⟨blank⟩

def get (p : Pixel) : Channel → Vec4 Float32
  | .depth => p.depth
  | .normal => p.normal
  | .camOrigin => p.camOrigin
  | .camDir => p.camDir
  | .lightOrigin => p.lightOrigin
  | .lightDir => p.lightDir
  | .lightDepth => p.lightDepth
  | .params 0 => p.params.albedoSpecular
  | .params 1 => p.params.emissionAnisotropic
  | .params 2 => p.params.base
  | .params 3 => p.params.coats
  | .params 4 => p.params.lightTransmission
  | .params 5 => p.params.medium
  | .direct => p.direct
  | .radiance => p.radiance
  | .throughput => p.throughput
  | .absorption => p.absorption
  | .accum => p.accum

/-- Whether the path of the pixel has ended. -/
def isDone (p : Pixel) : Bool :=
  p.normal.w < 0.0

/-- Whether the current ray met no surface. -/
def isMiss (p : Pixel) : Bool :=
  p.depth.w < 0.0

end Pixel

/-- A finished picture, row by row from the top, with red, green, blue and
opacity for each pixel. -/
structure Image where
  extent : Extent
  pixels : Array (Vec4 Float32)
  deriving Repr, DecidableEq

/-- The memory of a target. -/
structure Film where
  target : Target
  extent : Extent
  pixels : Array Pixel
  deriving Repr, DecidableEq

namespace Film

/-- A limit to pass where none is chosen. What is said of films holds for any other one too. -/
def addressable : Nat := 0x8000000

/-- A cleared film, if the memory has room for its pixels. Empty films do not exist. -/
def allocate? (limit : Nat) (target : Target) (extent : Extent) : Option Film :=
  if extent.isEmpty || limit < extent.pixels then none
  else some ⟨target, extent, .replicate extent.pixels .blank⟩

/-- A cleared film, or the failure to get one. -/
def allocate (limit : Nat) (target : Target) (extent : Extent) : Except Failure Film :=
  match allocate? limit target extent with
  | some film => .ok film
  | none => .error (.exhausted target.name extent.width extent.height)

/-- The film with every pixel forgotten. -/
def clear (f : Film) : Film :=
  { f with pixels := .replicate f.pixels.size .blank }

/-- The pixel in a column and a row. -/
def at? (f : Film) (x y : Nat) : Option Pixel :=
  f.pixels[y * f.extent.width + x]?

/-- The average of all samples as an opaque picture. -/
def image (f : Film) : Image :=
  ⟨f.extent, f.pixels.map fun p => p.accum.truncate.extend 1.0⟩

end Film

end PathTracer
