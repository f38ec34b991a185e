import PathTracer.Scene.Traversal
import PathTracer.Shader.Program

/-! Compiling a scene graph: its structure is checked, its materials get their
indices, and its render node is traversed. Refreshing a compiled scene at
another time keeps the program as long as the layout of the data stays. -/
namespace PathTracer

/-- What the render node overrides. -/
structure RenderOptions where
  name : String
  samples : Option Nat
  depth : Option Nat
  background : Option (Vec3 Float32)
  deriving Repr, DecidableEq

/-- A compiled scene. -/
structure Scene where
  program : Shader.Program
  materials : List Material.Program
  environment : Option Material.Program
  entities : Entities
  data : Array (Vec4 Float32)
  render : RenderOptions
  time : Float32

namespace Scene

/-- Index of the material with a name. -/
def materialIndex? (s : Scene) (name : String) : Option Nat :=
  s.materials.findIdx? fun m => m.name == name

/-- The material at an index, which negative numbers never are. -/
def material? (s : Scene) (index : Int) : Option Material.Program :=
  if index < 0 then none else s.materials[index.toNat]?

end Scene

/-- A material as a node defines it. -/
structure Definition where
  name : String
  line : Nat
  body : List Statement
  deriving Repr, DecidableEq

namespace Node

/-- The statements of a surface material. -/
def surfaceBody? (n : Node) : Option (List Statement) :=
  match n.kind with
  | .material .surface body => some body
  | _ => none

/-- The statements of an environment. -/
def environmentBody? (n : Node) : Option (List Statement) :=
  match n.kind with
  | .material .environment body => some body
  | _ => none

/-- Whether a node defines a surface material wherever it stands. One without
statements only refers to a material. -/
def hasSurfaceBody (n : Node) : Bool :=
  match n.surfaceBody? with
  | some body => !body.isEmpty
  | none => false

/-- The nodes below and at a root that define materials. The root itself does
so also without statements. -/
def definers (root : Node) : List Node :=
  (if root.surfaceBody?.isSome then [root] else [])
    ++ (walkAll root.leaves).filter hasSurfaceBody

end Node

namespace SceneGraph

/-- The materials that nodes define, without those whose name is taken. -/
def definitionsAfter (taken : List String) : List Node → Except CompileError (List Definition)
  | [] => .ok []
  | n :: rest =>
    match n.explicitName? with
    | none => .error ⟨.missingName "Material", n.line⟩
    | some _ =>
      if taken.contains n.givenName then definitionsAfter taken rest
      else
        match definitionsAfter (n.givenName :: taken) rest with
        | .error e => .error e
        | .ok more => .ok (⟨n.givenName, n.line, n.surfaceBody?.getD []⟩ :: more)

/-- Surface materials in the order of their declaration. Of several with one
name the first counts. -/
def definitions (g : SceneGraph) : Except CompileError (List Definition) :=
  definitionsAfter [] (g.nodes.flatMap Node.definers)

/-- The only render node at the root. -/
def findRender (g : SceneGraph) : Except CompileError Node :=
  match g.nodes.filter fun n => n.kind = .render with
  | [] => .error ⟨.missingRender, 0⟩
  | [render] => .ok render
  | _ :: second :: _ => .error ⟨.duplicateRender, second.line⟩

/-- The only environment of the scene, if it has one. -/
def findEnvironment (g : SceneGraph) : Except CompileError (Option Node) :=
  match g.walk.filter fun n => n.environmentBody?.isSome with
  | [] => .ok none
  | [environment] => .ok (some environment)
  | _ :: second :: _ => .error ⟨.duplicateEnvironment, second.line⟩

end SceneGraph

/-- A count option of a render node, at time zero and at least one. -/
def Node.countOption (n : Node) (name : String) : Except CompileError (Option Nat) :=
  if n.options.contains name then
    match n.options.float1 name 0.0 0.0 with
    | .error d => .error ⟨d, n.line⟩
    | .ok x => .ok (some (Binary32.toNat32 (Scalar.max x 1.0)))
  else .ok none

/-- The color option of a render node, at time zero. -/
def Node.backgroundOption (n : Node) : Except CompileError (Option (Vec3 Float32)) :=
  if n.options.contains "Background" then
    match n.options.float3 "Background" .zero 0.0 with
    | .error d => .error ⟨d, n.line⟩
    | .ok v => .ok (some v)
  else .ok none

/-- The options of a render node, the background first. -/
def Node.renderOptions (n : Node) : Except CompileError RenderOptions :=
  match n.backgroundOption with
  | .error e => .error e
  | .ok background =>
    match n.countOption "Samples" with
    | .error e => .error e
    | .ok samples =>
      match n.countOption "Depth" with
      | .error e => .error e
      | .ok depth => .ok ⟨n.givenName, samples, depth, background⟩

namespace Context

/-- Record an error that carries its own line. -/
def reportError (c : Context) (e : CompileError) : Context :=
  { c with errors := c.errors ++ [e] }

/-- Register materials without building them. -/
def registerAll (c : Context) (definitions : List Definition) : Context :=
  definitions.foldl (fun c d => c.registerMaterial d.name) c

/-- Register materials and build their bodies. Bodies with a fault are
reported and left out. -/
def buildMaterials (c : Context) : List Definition → List Material.Program × Context
  | [] => ([], c)
  | d :: rest =>
    let c := c.registerMaterial d.name
    let index := (c.materialIndex? d.name).getD 0
    match Material.Program.build d.name index .surface d.body with
    | .error e => (c.reportError e).buildMaterials rest
    | .ok program =>
      let (more, c) := c.buildMaterials rest
      (program :: more, c)

/-- Build the body of an environment, if there is one. -/
def buildEnvironment (c : Context) : Option Node → Option Material.Program × Context
  | none => (none, c)
  | some n =>
    match Material.Program.build n.givenName 0 .environment (n.environmentBody?.getD []) with
    | .error e => (none, c.reportError e)
    | .ok program => (some program, c)

end Context

/-- The scene that a finished traversal amounts to, unless it met a fault or
found no camera. -/
def Context.finish (c : Context) (render : Node) (materials : List Material.Program)
    (environment : Option Material.Program) (statements : List Shader.Stmt) :
    Except CompileError Scene :=
  match c.errors with
  | e :: _ => .error e
  | [] =>
    if c.entities.camera.isNone then .error ⟨.missingCamera, render.line⟩
    else
      match render.renderOptions with
      | .error e => .error e
      | .ok options =>
        match Shader.Program.generate materials environment statements with
        | .error e => .error e
        | .ok program => .ok
          { program := program
            materials := materials
            environment := environment
            entities := c.entities
            data := c.data
            render := options
            time := c.time }

/-- Compile a scene graph with its options evaluated at a time. -/
def SceneGraph.compileAt (g : SceneGraph) (time : Float32) : Except CompileError Scene :=
  match g.findRender with
  | .error e => .error e
  | .ok render =>
    match g.definitions with
    | .error e => .error e
    | .ok definitions =>
      match g.findEnvironment with
      | .error e => .error e
      | .ok environmentNode =>
        let (materials, c) := (Context.start time).buildMaterials definitions
        let (environment, c) := c.buildEnvironment environmentNode
        let (statements, c) := render.compile c
        c.finish render materials environment statements

/-- Compile a scene graph at time zero. -/
def SceneGraph.compile (g : SceneGraph) : Except CompileError Scene :=
  g.compileAt 0.0

namespace Scene

/-- Whether new data and entities fit the program of a scene. -/
def sameLayout (s : Scene) (c : Context) : Bool :=
  c.data.size = s.data.size && c.entities.primitives = s.entities.primitives
    && c.entities.lights.length = s.entities.lights.length

/-- The scene for a graph at another time. Where the layout is the same, only
data and entities are replaced. -/
def refresh (s : Scene) (g : SceneGraph) (time : Float32) : Except CompileError Scene :=
  match g.definitions with
  | .error e => .error e
  | .ok definitions =>
    match g.findRender with
    | .error e => .error e
    | .ok render =>
      let c := render.execute ((Context.start time).registerAll definitions)
      match c.errors with
      | e :: _ => .error e
      | [] =>
        if s.sameLayout c then .ok { s with entities := c.entities, data := c.data, time := time }
        else g.compileAt time

end Scene

end PathTracer
