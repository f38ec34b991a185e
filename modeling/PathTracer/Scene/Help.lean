import PathTracer.Scene.Node

/-! What an editor shows about the kinds of nodes and their options. -/
namespace PathTracer

/-- Name, default and purpose of an option. -/
structure OptionHelp where
  name : String
  default : String
  help : String
  deriving Repr, DecidableEq

namespace NodeKind

def help : NodeKind → String
  | object .marched =>
    "Defines an SDF object. Objects contain primitives and can also contain child objects."
  | object .analytical =>
    "Defines an analytical object containing analytical primitives and child objects."
  | material .surface _ => "Defines a material."
  | material .environment _ => "Defines the background color seen by rays that leave the scene."
  | render => "Renders the scene."
  | light .sun => "A directional light with a small solar disk."
  | light .sphere => "A spherical area light emitting through its material."
  | camera .perspective => "A perspective camera."
  | camera .isometric => "An orthographic camera."
  | primitive .sphere => "An analytical sphere."
  | primitive .box => "An analytical box."
  | primitive .plane => "An infinite analytical plane."

def placementOptions : List OptionHelp := [
  ⟨"Position", "0, 0, 0", "The position of the object."⟩,
  ⟨"Rotation", "0, 0, 0", "The rotation of the object in degrees."⟩,
  ⟨"Scale", "1", "The scale of the object."⟩]

def marchingOptions : List OptionHelp := [
  ⟨"Steps", "70", "The amount of ray-marching steps for this object."⟩,
  ⟨"StepSize", "1", "The ray-marching step size, between 0 and 1."⟩,
  ⟨"MaxBox", "none", "Half extents bounding the ray-marching."⟩]

def objectOptions (own : List OptionHelp) : List OptionHelp :=
  ⟨"Name", "Object", "The name of the object."⟩ :: own
    ++ ⟨"Material", "none", "The material applied to contained primitives."⟩ :: placementOptions

def cameraOptions (fieldOfView : OptionHelp) : List OptionHelp := [
  ⟨"Origin", "0, 0, -5", "The camera position."⟩,
  ⟨"LookAt", "0, 0, 0", "The point the camera looks at."⟩,
  fieldOfView]

/-- The options that a node understands. -/
def options : NodeKind → List OptionHelp
  | object .marched => objectOptions marchingOptions
  | object .analytical => objectOptions []
  | material .surface _ => [⟨"Name", "Material", "The name of the material."⟩]
  | material .environment _ => [⟨"Name", "Environment", "The name of the environment."⟩]
  | render => [
    ⟨"Name", "Render", "The name of the render node."⟩,
    ⟨"Samples", "10000", "Maximum samples per pixel."⟩,
    ⟨"Depth", "6", "Maximum path bounces."⟩,
    ⟨"Background", "0.02, 0.02, 0.02", "Background color without an environment."⟩]
  | light .sun => [
    ⟨"Direction", "0, 1, -1", "Direction toward the sun."⟩,
    ⟨"Emission", "4, 4, 4", "Radiance of the sun."⟩]
  | light .sphere => [
    ⟨"Position", "0, 0, 0", "Center of the light."⟩,
    ⟨"Radius", "1", "Radius of the light."⟩,
    ⟨"Material", "required", "Emissive material of the light."⟩]
  | camera .perspective => cameraOptions ⟨"Fov", "60", "Vertical field of view in degrees."⟩
  | camera .isometric => cameraOptions ⟨"Fov", "6", "Visible height in world units."⟩
  | primitive .sphere => [
    ⟨"Position", "0, 0, 0", "Center in object space."⟩,
    ⟨"Radius", "1", "Radius in object space."⟩]
  | primitive .box => [
    ⟨"Position", "0, 0, 0", "Center in object space."⟩,
    ⟨"Size", "1, 1, 1", "Half extents in object space."⟩]
  | primitive .plane => [
    ⟨"Normal", "0, 1, 0", "Plane normal in object space."⟩,
    ⟨"Offset", "0", "Distance from the origin along the normal."⟩]

/-- One line of the list of options. -/
def optionLine (o : OptionHelp) : String :=
  s!"* **{o.name}** ({o.default}) - {o.help}\n"

/-- A block in Markdown with the purpose of a node and its options. -/
def helpText (kind : NodeKind) : String :=
  s!"## {kind.name}\n{kind.help}\n\nOptional Parameters\n"
    ++ String.join (kind.options.map optionLine)

end NodeKind

end PathTracer
