import PathTracer.Vector

/-! The parameters of a surface: fifteen numbers and colors of the principled
model, all colors linear. -/
namespace PathTracer

structure SurfaceParams (α : Type) where
  albedo : Vec3 α
  specular : α
  emission : Vec3 α
  anisotropic : α
  metallic : α
  roughness : α
  subsurface : α
  specularTint : α
  sheen : α
  sheenTint : α
  clearcoat : α
  clearcoatGloss : α
  transmission : α
  ior : α
  extinction : Vec3 α
  deriving Repr, DecidableEq

/-- Six vectors of four that hold all parameters and a light direction. -/
structure PackedParams (α : Type) where
  albedoSpecular : Vec4 α
  emissionAnisotropic : Vec4 α
  base : Vec4 α
  coats : Vec4 α
  lightTransmission : Vec4 α
  medium : Vec4 α
  deriving Repr, DecidableEq

namespace SurfaceParams

variable {α : Type} [Scalar α]

/-- A black surface of medium roughness that lets light pass unchanged. -/
def default : SurfaceParams α where
  albedo := .zero
  specular := 0.0
  emission := .zero
  anisotropic := 0.0
  metallic := 0.0
  roughness := 0.5
  subsurface := 0.0
  specularTint := 0.0
  sheen := 0.0
  sheenTint := 0.0
  clearcoat := 0.0
  clearcoatGloss := 0.0
  transmission := 0.0
  ior := 1.45
  extinction := .one

instance : Inhabited (SurfaceParams α) := ⟨default⟩

def diffuse (albedo : Vec3 α) : SurfaceParams α :=
  { default with albedo := albedo }

def metal (albedo : Vec3 α) (roughness : α) : SurfaceParams α :=
  { default with albedo := albedo, metallic := 1.0, roughness := roughness }

/-- A rough surface that light passes through. -/
def glass (albedo : Vec3 α) (roughness ior : α) : SurfaceParams α :=
  { default with albedo := albedo, transmission := 1.0, roughness := roughness, ior := ior }

/-- A light source that reflects nothing. -/
def emitter (emission : Vec3 α) : SurfaceParams α :=
  { default with emission := emission }

def isEmitter (m : SurfaceParams α) : Bool :=
  0.0 < m.emission.maxElement

/-- The point at `k` between two numbers, as a weighted sum. -/
def weighted (a b k : α) : α :=
  a * (1.0 - k) + b * k

/-- All parameters at `k` between those of two surfaces. -/
def lerp (a b : SurfaceParams α) (k : α) : SurfaceParams α where
  albedo := a.albedo.lerp b.albedo k
  specular := weighted a.specular b.specular k
  emission := a.emission.lerp b.emission k
  anisotropic := weighted a.anisotropic b.anisotropic k
  metallic := weighted a.metallic b.metallic k
  roughness := weighted a.roughness b.roughness k
  subsurface := weighted a.subsurface b.subsurface k
  specularTint := weighted a.specularTint b.specularTint k
  sheen := weighted a.sheen b.sheen k
  sheenTint := weighted a.sheenTint b.sheenTint k
  clearcoat := weighted a.clearcoat b.clearcoat k
  clearcoatGloss := weighted a.clearcoatGloss b.clearcoatGloss k
  transmission := weighted a.transmission b.transmission k
  ior := weighted a.ior b.ior k
  extinction := a.extinction.lerp b.extinction k

/-- The blend of two surfaces, constant beyond zero and one and smooth between. -/
def blend (a b : SurfaceParams α) (k : α) : SurfaceParams α :=
  a.lerp b (Scalar.smoothUnit (Scalar.saturate k))

def pack {α : Type} (m : SurfaceParams α) (light : Vec3 α) : PackedParams α where
  albedoSpecular := m.albedo.extend m.specular
  emissionAnisotropic := m.emission.extend m.anisotropic
  base := ⟨m.metallic, m.roughness, m.subsurface, m.specularTint⟩
  coats := ⟨m.sheen, m.sheenTint, m.clearcoat, m.clearcoatGloss⟩
  lightTransmission := light.extend m.transmission
  medium := ⟨m.ior, m.extinction.x, m.extinction.y, m.extinction.z⟩

end SurfaceParams

namespace PackedParams

variable {α : Type}

/-- The light direction stored with the parameters. -/
def light (p : PackedParams α) : Vec3 α :=
  p.lightTransmission.truncate

def params (p : PackedParams α) : SurfaceParams α where
  albedo := p.albedoSpecular.truncate
  specular := p.albedoSpecular.w
  emission := p.emissionAnisotropic.truncate
  anisotropic := p.emissionAnisotropic.w
  metallic := p.base.x
  roughness := p.base.y
  subsurface := p.base.z
  specularTint := p.base.w
  sheen := p.coats.x
  sheenTint := p.coats.y
  clearcoat := p.coats.z
  clearcoatGloss := p.coats.w
  transmission := p.lightTransmission.w
  ior := p.medium.x
  extinction := ⟨p.medium.y, p.medium.z, p.medium.w⟩

def toList (p : PackedParams α) : List (Vec4 α) :=
  [p.albedoSpecular, p.emissionAnisotropic, p.base, p.coats, p.lightTransmission, p.medium]

end PackedParams

end PathTracer
