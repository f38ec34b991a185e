import PathTracer.Scene.Options

/-! Scene graphs: trees of nodes with options. -/
namespace PathTracer

inductive ObjectKind where
  /-- An object for a geometry pass that marches along rays. -/
  | marched
  /-- A container of analytic primitives. -/
  | analytical
  deriving Repr, DecidableEq

inductive MaterialRole where
  | surface
  /-- The background seen by rays that leave the scene. -/
  | environment
  deriving Repr, DecidableEq

inductive CameraKind where
  | perspective
  | isometric
  deriving Repr, DecidableEq

inductive LightKind where
  /-- Light from one direction. -/
  | sun
  /-- A sphere that emits through its material. -/
  | sphere
  deriving Repr, DecidableEq

inductive PrimitiveKind where
  | sphere
  | box
  | plane
  deriving Repr, DecidableEq

/-- One line `target = source` of the body of a material. -/
structure Statement where
  target : String
  source : String
  line : Nat
  deriving Repr, DecidableEq

inductive NodeKind where
  | object (kind : ObjectKind)
  | material (role : MaterialRole) (body : List Statement)
  | render
  | light (kind : LightKind)
  | camera (kind : CameraKind)
  | primitive (kind : PrimitiveKind)
  deriving Repr, DecidableEq

def PrimitiveKind.name : PrimitiveKind → String
  | sphere => "Sphere"
  | box => "Box"
  | plane => "Plane"

/-- The keyword of a node. -/
def NodeKind.name : NodeKind → String
  | object .marched => "Object"
  | object .analytical => "AnalyticalObject"
  | material .surface _ => "Material"
  | material .environment _ => "Environment"
  | render => "Render"
  | light .sun => "Sun"
  | light .sphere => "SphereLight"
  | camera .perspective => "Camera"
  | camera .isometric => "IsometricCamera"
  | primitive kind => kind.name

/-- A node of a scene. It keeps the name that it is made with: exchanging its options
later does not name it anew. -/
structure Node where
  kind : NodeKind
  options : Options
  /-- The name. A new node is named by its options, and by its keyword without them. -/
  givenName : String := (options.text? "Name").getD kind.name
  line : Nat
  leaves : List Node

/-- A node as it is made, with the name that its options give. -/
abbrev Node.new (kind : NodeKind) (options : Options) (line : Nat) (leaves : List Node) : Node :=
  { kind, options, line, leaves }

instance : Inhabited Node := ⟨.new .render .empty 0 []⟩

namespace Node

/-- The name that the node's options give. -/
def explicitName? (n : Node) : Option String :=
  n.options.text? "Name"

/-- Whether a node still has the name that its options give. -/
def IsNamed (n : Node) : Prop :=
  n.givenName = n.explicitName?.getD n.kind.name

instance (n : Node) : Decidable n.IsNamed :=
  inferInstanceAs (Decidable (_ = _))

theorem isNamed_new (kind : NodeKind) (options : Options) (line : Nat) (leaves : List Node) :
    (new kind options line leaves).IsNamed :=
  rfl

mutual

/-- The node and all below it, each before those below it. -/
def walk : Node → List Node
  | ⟨kind, options, name, line, leaves⟩ =>
    ⟨kind, options, name, line, leaves⟩ :: walkAll leaves

def walkAll : List Node → List Node
  | [] => []
  | n :: rest => walk n ++ walkAll rest

end

end Node

/-- The nodes at the root of a scene. -/
structure SceneGraph where
  nodes : List Node
  deriving Inhabited

namespace SceneGraph

/-- All nodes, each before those below it. -/
def walk (g : SceneGraph) : List Node :=
  Node.walkAll g.nodes

def isAnimated (g : SceneGraph) : Bool :=
  g.walk.any fun n => n.options.isAnimated

/-- The first node with an explicit name. -/
def find? (g : SceneGraph) (name : String) : Option Node :=
  g.walk.find? fun n => n.explicitName? == some name

end SceneGraph

end PathTracer
