import PathTracer.Bsdf.Parameters

/-! The lobes of the principled model at a point of a surface: diffuse light,
an anisotropic highlight, a clear coat, and reflection and refraction of a
dielectric. -/
namespace PathTracer.Bsdf

variable {α : Type} [Scalar α]

/-- Roughness is held to at least this. -/
def roughnessFloor : α := 0.0001

/-- A surface point with the frame in which its lobes are given. The facing
normal points to the side from which the ray came. -/
structure Shading (α : Type) where
  material : SurfaceParams α
  normal : Vec3 α
  facing : Vec3 α
  tangent : Vec3 α
  bitangent : Vec3 α
  eta : α
  ax : α
  ay : α
  deriving Repr

/-- The shading of a material where a ray meets a surface. -/
def Shading.make (params : SurfaceParams α) (normal ray : Vec3 α) : Shading α :=
  let material := { params with roughness := Scalar.max params.roughness roughnessFloor }
  let (facing, eta) : Vec3 α × α :=
    if normal.dot ray ≤ 0.0 then (normal, 1.0 / material.ior) else (-normal, material.ior)
  let aspect := Scalar.sqrt (1.0 - material.anisotropic * 0.9)
  let up : Vec3 α := if Scalar.abs facing.z < 0.999 then .axisZ else .axisX
  let tangent := (up.cross facing).normalize
  { material := material
    normal := normal
    facing := facing
    tangent := tangent
    bitangent := facing.cross tangent
    eta := eta
    ax := Scalar.max (material.roughness / aspect) 0.001
    ay := Scalar.max (material.roughness * aspect) 0.001 }

/-- A vector of the local frame in world space. -/
def Shading.toWorld (s : Shading α) (v : Vec3 α) : Vec3 α :=
  s.tangent * v.x + s.bitangent * v.y + s.facing * v.z

/-- The value of a lobe for a pair of directions, and the density with which
sampling it finds the second of them. -/
structure Response (α : Type) where
  f : Vec3 α
  pdf : α
  deriving Repr, DecidableEq

def Response.zero : Response α := ⟨.zero, 0.0⟩

def schlickFresnel (u : α) : α :=
  let m : α := Scalar.saturate (1.0 - u)
  let m2 := m * m
  m2 * m2 * m

/-- Share of light that a dielectric reflects. It is all of it beyond the
angle of total reflection. -/
def dielectricFresnel (cosine eta : α) : α :=
  let sineSquared := eta * eta * (1.0 - cosine * cosine)
  if 1.0 < sineSquared then 1.0
  else
    let refracted := Scalar.sqrt (Scalar.max (1.0 - sineSquared) 0.0)
    let rs := (eta * refracted - cosine) / (eta * refracted + cosine)
    let rp := (eta * cosine - refracted) / (eta * cosine + refracted)
    0.5 * (rs * rs + rp * rp)

/-- Density of half vectors of a clear coat. -/
def gtr1 (nDotH a : α) : α :=
  if 1.0 ≤ a then Scalar.invPi
  else
    let a2 := a * a
    let t := 1.0 + (a2 - 1.0) * nDotH * nDotH
    (a2 - 1.0) / (Scalar.pi * Scalar.log a2 * t)

/-- Density of half vectors of a rough surface. -/
def gtr2 (nDotH a : α) : α :=
  let a2 := a * a
  let t := 1.0 + (a2 - 1.0) * nDotH * nDotH
  a2 / (Scalar.pi * t * t)

/-- Density of half vectors with one roughness for each tangent. -/
def gtr2Anisotropic (nDotH hDotX hDotY ax ay : α) : α :=
  let a := hDotX / ax
  let b := hDotY / ay
  let c := a * a + b * b + nDotH * nDotH
  1.0 / (Scalar.pi * ax * ay * c * c)

/-- Share of a rough surface that is not in its own shadow. -/
def smithGgx (nDotV alpha : α) : α :=
  let a := alpha * alpha
  let b := nDotV * nDotV
  1.0 / (nDotV + Scalar.sqrt (a + b - a * b))

def smithGgxAnisotropic (nDotV vDotX vDotY ax ay : α) : α :=
  let a := vDotX * ax
  let b := vDotY * ay
  1.0 / (nDotV + Scalar.sqrt (a * a + b * b + nDotV * nDotV))

/-- The color of the albedo without its brightness, white for black. -/
def tintColor (m : SurfaceParams α) : Vec3 α :=
  let luminance := 0.3 * m.albedo.x + 0.6 * m.albedo.y + 0.1 * m.albedo.z
  if 0.0 < luminance then m.albedo / luminance else .one

/-- Color of the highlight at normal incidence. -/
def specularColor (m : SurfaceParams α) : Vec3 α :=
  let dielectric := (Vec3.one.lerp (tintColor m) m.specularTint) * (m.specular * 0.08)
  dielectric.lerp m.albedo m.metallic

def sheenColor (m : SurfaceParams α) : Vec3 α :=
  Vec3.one.lerp (tintColor m) m.sheenTint

def dielectricReflection (s : Shading α) (v n l h : Vec3 α) : Response α :=
  if n.dot l ≤ 0.0 then .zero
  else
    let fresnel := dielectricFresnel (v.dot h) s.eta
    let d := gtr2 (n.dot h) s.material.roughness
    let g := smithGgx (Scalar.abs (n.dot l)) s.material.roughness
      * smithGgx (Scalar.abs (n.dot v)) s.material.roughness
    { f := s.material.albedo * fresnel * d * g
      pdf := d * n.dot h * fresnel / (4.0 * Scalar.abs (v.dot h)) }

def dielectricRefraction (s : Shading α) (v n l h : Vec3 α) : Response α :=
  if 0.0 ≤ n.dot l then .zero
  else
    let fresnel := dielectricFresnel (Scalar.abs (v.dot h)) s.eta
    let d := gtr2 (n.dot h) s.material.roughness
    let root := l.dot h + v.dot h * s.eta
    let denominator := root * root
    let g := smithGgx (Scalar.abs (n.dot l)) s.material.roughness
      * smithGgx (Scalar.abs (n.dot v)) s.material.roughness
    let passed : α := 1.0 - fresnel
    { f := s.material.albedo * passed * d * g * Scalar.abs (v.dot h) * Scalar.abs (l.dot h)
        * (4.0 : α) * s.eta * s.eta / denominator
      pdf := d * n.dot h * passed * Scalar.abs (l.dot h) / denominator }

def specularLobe (s : Shading α) (color v n l h : Vec3 α) : Response α :=
  if n.dot l ≤ 0.0 then .zero
  else
    let d := gtr2Anisotropic (n.dot h) (h.dot s.tangent) (h.dot s.bitangent) s.ax s.ay
    let fresnel := color.lerp .one (schlickFresnel (l.dot h))
    let g := smithGgxAnisotropic (n.dot l) (l.dot s.tangent) (l.dot s.bitangent) s.ax s.ay
      * smithGgxAnisotropic (Scalar.abs (n.dot v)) (v.dot s.tangent) (v.dot s.bitangent) s.ax s.ay
    { f := fresnel * d * g
      pdf := d * n.dot h / (4.0 * v.dot h) }

/-- Roughness of the clear coat. -/
def clearcoatRoughness (m : SurfaceParams α) : α :=
  Scalar.mix 0.1 0.001 m.clearcoatGloss

def clearcoatLobe (s : Shading α) (v n l h : Vec3 α) : Response α :=
  if n.dot l ≤ 0.0 then .zero
  else
    let d := gtr1 (n.dot h) (clearcoatRoughness s.material)
    let fresnel := Scalar.mix 0.04 1.0 (schlickFresnel (l.dot h))
    let g := smithGgx (n.dot l) 0.25 * smithGgx (n.dot v) 0.25
    { f := .splat (0.25 * s.material.clearcoat * fresnel * d * g)
      pdf := d * n.dot h / (4.0 * v.dot h) }

/-- Diffuse light with its retroreflection, flattened by subsurface
scattering, and the sheen of cloth. -/
def diffuseLobe (s : Shading α) (sheen v n l h : Vec3 α) : Response α :=
  if n.dot l ≤ 0.0 then .zero
  else
    let nDotL := n.dot l
    let nDotV := n.dot v
    let lDotH := l.dot h
    let fl := schlickFresnel nDotL
    let fv := schlickFresnel nDotV
    let fh := schlickFresnel lDotH
    let fd90 := 0.5 + 2.0 * lDotH * lDotH * s.material.roughness
    let fd := Scalar.mix 1.0 fd90 fl * Scalar.mix 1.0 fd90 fv
    let fss90 := lDotH * lDotH * s.material.roughness
    let fss := Scalar.mix 1.0 fss90 fl * Scalar.mix 1.0 fss90 fv
    let ss := 1.25 * (fss * (1.0 / (nDotL + nDotV) - 0.5) + 0.5)
    let cloth := sheen * (fh * s.material.sheen)
    let body := s.material.albedo * (Scalar.invPi * Scalar.mix fd ss s.material.subsurface)
    { f := (body + cloth) * (1.0 - s.material.metallic)
      pdf := nDotL * Scalar.invPi }

end PathTracer.Bsdf
