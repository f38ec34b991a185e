import PathTracer.Bsdf.Parameters
import PathTracer.Expression.Evaluation
import PathTracer.Scene.Node

/-! What the body of a material can read and what it can assign. -/
namespace PathTracer.Material

/-- The point at which a material is evaluated. -/
structure Inputs where
  rayPosition : Vec3 Float32
  rayDirection : Vec3 Float32
  normal : Vec3 Float32
  uv : Vec2 Float32
  viewSize : Vec2 Float32
  hash : Float32
  gradient : Float32
  deriving Repr, DecidableEq

/-- A variable that every body of a role can read. -/
structure SystemVariable where
  name : String
  /-- Field of the shader structure that holds it. -/
  field : String
  type : ValueType
  value : Inputs → Value

def surfaceVariables : List SystemVariable := [
  ⟨"rayPosition", "ray_position", .float3, fun i => .float3 i.rayPosition⟩,
  ⟨"normal", "normal", .float3, fun i => .float3 i.normal⟩,
  ⟨"viewSize", "view_size", .float2, fun i => .float2 i.viewSize⟩,
  ⟨"uv", "uv", .float2, fun i => .float2 i.uv⟩,
  ⟨"hash", "hash", .float1, fun i => .float1 i.hash⟩,
  ⟨"gradient", "gradient", .float1, fun i => .float1 i.gradient⟩]

/-- Only the body of an environment sees where the ray goes. -/
def directionVariable : SystemVariable :=
  ⟨"rayDirection", "ray_direction", .float3, fun i => .float3 i.rayDirection⟩

def systemVariables : MaterialRole → List SystemVariable
  | .surface => surfaceVariables
  | .environment => surfaceVariables ++ [directionVariable]

def systemVariable? (role : MaterialRole) (name : String) : Option SystemVariable :=
  (systemVariables role).find? fun v => v.name == name

/-- What a body describes: a parameter of the surface, or the color of the
environment. -/
inductive Field where
  | albedo
  | specular
  | emission
  | anisotropic
  | metallic
  | roughness
  | subsurface
  | specularTint
  | sheen
  | sheenTint
  | clearcoat
  | clearcoatGloss
  | transmission
  | ior
  | extinction
  | color
  deriving Repr, DecidableEq

namespace Field

def surfaceFields : List Field := [albedo, specular, emission, anisotropic, metallic, roughness,
  subsurface, specularTint, sheen, sheenTint, clearcoat, clearcoatGloss, transmission, ior,
  extinction]

def type : Field → ValueType
  | albedo => .float3
  | emission => .float3
  | extinction => .float3
  | color => .float3
  | _ => .float1

/-- Name of the field in the shader. -/
def shaderName : Field → String
  | albedo => "albedo"
  | specular => "specular"
  | emission => "emission"
  | anisotropic => "anisotropic"
  | metallic => "metallic"
  | roughness => "roughness"
  | subsurface => "subsurface"
  | specularTint => "specular_tint"
  | sheen => "sheen"
  | sheenTint => "sheen_tint"
  | clearcoat => "clearcoat"
  | clearcoatGloss => "clearcoat_gloss"
  | transmission => "transmission"
  | ior => "ior"
  | extinction => "extinction"
  | color => "color"

/-- Name of the field in a body, in lower case: that of the shader without
separators. -/
def target (f : Field) : String :=
  String.ofList (f.shaderName.toList.filter (· != '_'))

/-- The field that a statement of a role assigns. Case does not matter. -/
def ofTarget? (role : MaterialRole) (name : String) : Option Field :=
  let fields := match role with
    | .surface => surfaceFields
    | .environment => [color]
  fields.find? fun f => f.target == Text.lower name

/-- Surface parameters with one of them replaced. A scalar fills a color. -/
def store (m : SurfaceParams Float32) (v : Value) : Field → SurfaceParams Float32
  | albedo => { m with albedo := v.asVec3 }
  | specular => { m with specular := v.x }
  | emission => { m with emission := v.asVec3 }
  | anisotropic => { m with anisotropic := v.x }
  | metallic => { m with metallic := v.x }
  | roughness => { m with roughness := v.x }
  | subsurface => { m with subsurface := v.x }
  | specularTint => { m with specularTint := v.x }
  | sheen => { m with sheen := v.x }
  | sheenTint => { m with sheenTint := v.x }
  | clearcoat => { m with clearcoat := v.x }
  | clearcoatGloss => { m with clearcoatGloss := v.x }
  | transmission => { m with transmission := v.x }
  | ior => { m with ior := v.x }
  | extinction => { m with extinction := v.asVec3 }
  | color => m

end Field

end PathTracer.Material
