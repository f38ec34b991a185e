import PathTracer.Bsdf.Evaluation
import PathTracer.Bsdf.Warp
import PathTracer.Random.Pcg

/-! Drawing the direction in which a path goes on: one lobe is chosen at
random and a direction is drawn from it. -/
namespace PathTracer.Bsdf

variable {α : Type} [Scalar α]

/-- The lobes among which sampling chooses. -/
inductive Lobe where
  | dielectric
  | diffuse
  | highlight
  | clearcoat
  deriving Repr, DecidableEq

/-- A direction with its response. A density that is not positive marks a
sample to be dropped. -/
structure Sample (α : Type) where
  l : Vec3 α
  f : Vec3 α
  pdf : α
  deriving Repr, DecidableEq

/-- The direction `i` reflected at the plane with normal `n`. -/
def reflect (i n : Vec3 α) : Vec3 α :=
  i - n * (2.0 * n.dot i)

/-- The direction of a ray refracted at a plane, zero at total reflection. -/
def refract (i n : Vec3 α) (eta : α) : Vec3 α :=
  let nDotI := n.dot i
  let k : α := 1.0 - eta * eta * (1.0 - nDotI * nDotI)
  if k < 0.0 then .zero else i * eta - n * (eta * nDotI + Scalar.sqrt k)

/-- Reflection or refraction of a dielectric, by a random choice among both. -/
def sampleDielectric (s : Shading α) (v n : Vec3 α) (r1 r2 choice : α) : Vec3 α × Response α :=
  let h := towards v (s.toWorld (sampleGtr2 s.material.roughness r1 r2))
  let r := reflect (-v) h
  if choice < dielectricFresnel (Scalar.abs (r.dot h)) s.eta then
    let l := r.normalizeOrZero
    (l, dielectricReflection s v n l h)
  else
    let l := (refract (-v) h s.eta).normalizeOrZero
    (l, dielectricRefraction s v n l h)

def sampleDiffuse (s : Shading α) (v n : Vec3 α) (r1 r2 : α) : Vec3 α × Response α :=
  let l := s.toWorld (cosineHemisphere r1 r2)
  (l, diffuseLobe s (sheenColor s.material) v n l (l + v).normalizeOrZero)

def sampleHighlight (s : Shading α) (v n : Vec3 α) (r1 r2 : α) : Vec3 α × Response α :=
  let h := towards v (s.toWorld (sampleGtr2Anisotropic s.ax s.ay r1 r2))
  let l := (reflect (-v) h).normalizeOrZero
  (l, specularLobe s (specularColor s.material) v n l h)

def sampleClearcoat (s : Shading α) (v n : Vec3 α) (r1 r2 : α) : Vec3 α × Response α :=
  let h := towards v (s.toWorld (sampleGtr1 (clearcoatRoughness s.material) r1 r2))
  let l := (reflect (-v) h).normalizeOrZero
  (l, clearcoatLobe s v n l h)

/-- The lobe that three uniform numbers choose. -/
def chooseLobe (m : SurfaceParams α) (first second third : α) : Lobe :=
  if first < transmissionWeight m then .dielectric
  else if second < diffuseRatio m then .diffuse
  else if third < highlightRatio m then .highlight
  else .clearcoat

/-- The factor on the value of a lobe that was chosen. -/
def valueFactor (m : SurfaceParams α) : Lobe → α
  | .dielectric => transmissionWeight m
  | _ => 1.0 - transmissionWeight m

/-- The factor on the density of a lobe among those that do not transmit. -/
def opaqueFactor (m : SurfaceParams α) : Lobe → α
  | .dielectric => 1.0
  | .diffuse => diffuseRatio m
  | .highlight => highlightRatio m * (1.0 - diffuseRatio m)
  | .clearcoat => (1.0 - highlightRatio m) * (1.0 - diffuseRatio m)

/-- A direction drawn from a lobe. Two numbers give the direction, and the
third decides between reflection and refraction of the dielectric lobe. -/
def sampleLobe (s : Shading α) (v n : Vec3 α) (r1 r2 choice : α) : Lobe → Vec3 α × Response α
  | .dielectric => sampleDielectric s v n r1 r2 choice
  | .diffuse => sampleDiffuse s v n r1 r2
  | .highlight => sampleHighlight s v n r1 r2
  | .clearcoat => sampleClearcoat s v n r1 r2

/-- The sample that a lobe yields, weighted as one part of the mixture. -/
def weightedSample (s : Shading α) (v n : Vec3 α) (r1 r2 choice : α) (lobe : Lobe) : Sample α :=
  let (l, e) := sampleLobe s v n r1 r2 choice lobe
  let pdf := match lobe with
    | .dielectric => e.pdf
    | other => e.pdf * opaqueFactor s.material other
  { l := l
    f := e.f * valueFactor s.material lobe
    pdf := pdf * valueFactor s.material lobe }

/-- The sample that five uniform numbers determine. -/
def sampleWith (s : Shading α) (v n : Vec3 α) (r1 r2 first second third : α) : Sample α :=
  weightedSample s v n r1 r2 second (chooseLobe s.material first second third)

/-- Whether the choice of a lobe takes a third number. -/
def needsThird (m : SurfaceParams α) (first second : α) : Bool :=
  !(decide (first < transmissionWeight m) || decide (second < diffuseRatio m))

/-- A sample drawn from a random stream, and the stream after it. -/
def sample (s : Shading Float32) (v n : Vec3 Float32) (rng : Pcg) : Sample Float32 × Pcg :=
  let (r1, rng) := rng.next
  let (r2, rng) := rng.next
  let (first, rng) := rng.next
  let (second, rng) := rng.next
  if needsThird s.material first second then
    let (third, rng) := rng.next
    (sampleWith s v n r1 r2 first second third, rng)
  else (sampleWith s v n r1 r2 first second 0.0, rng)

end PathTracer.Bsdf
