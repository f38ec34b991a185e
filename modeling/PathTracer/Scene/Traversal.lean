import PathTracer.Scene.Context
import PathTracer.Shader.Basic

/-! The walk through the subtree of a render node. It evaluates options at the
time of the context, records data, objects, lights and the camera, and emits
the shader statements that place the primitives, if they are wanted. A fault
is recorded and the walk goes on with a default. -/
namespace PathTracer

/-- The statements that a walk has emitted, or none where only the records of
the walk are wanted. -/
abbrev Output : Type := Option (List Shader.Stmt)

def Output.emit (out : Output) (s : Shader.Stmt) : Output :=
  out.map (· ++ [s])

namespace Node

/-- A number option at the current time, or the default after a fault. -/
def readFloat1 (n : Node) (name : String) (default : Float32) : StateM Context Float32 :=
  fun c =>
    match n.options.float1 name default c.time with
    | .ok x => (x, c)
    | .error d => (default, c.report d n.line)

/-- A vector option at the current time, or the default after a fault. -/
def readFloat3 (n : Node) (name : String) (default : Vec3 Float32) :
    StateM Context (Vec3 Float32) :=
  fun c =>
    match n.options.float3 name default c.time with
    | .ok v => (v, c)
    | .error d => (default, c.report d n.line)

/-- Make a named material active, if it exists. -/
def activate (n : Node) (name : String) : StateM Context Unit :=
  fun c =>
    match c.resolve name n.line with
    | (some index, c) => ((), c.activate index)
    | (none, c) => ((), c)

/-- The `Material` option makes that material active. -/
def activateOption (n : Node) : StateM Context Unit :=
  match n.options.text? "Material" with
  | some name => n.activate name
  | none => pure ()

/-- Add a vector to the constant data and return its slot. -/
def allocate (v : Vec4 Float32) : StateM Context Nat :=
  fun c => (c.nextSlot, c.pushSlot v)

def addEntities (f : Entities → Entities) : StateM Context Unit :=
  modify fun c => { c with entities := f c.entities }

def report (n : Node) (defect : Defect) : StateM Context Unit :=
  modify fun c => c.report defect n.line

/-- The bounds of a marched object, if it has the option. -/
def readBounds (n : Node) : StateM Context (Option (Vec3 Float32)) :=
  fun c =>
    match n.options.float3 "MaxBox" .zero c.time with
    | .ok v => (if n.options.contains "MaxBox" then some v else none, c)
    | .error d => (none, c.report d n.line)

/-- Record an object for a marching geometry pass. -/
def addMarched (n : Node) : StateM Context Unit := do
  let steps ← n.readFloat1 "Steps" 70.0
  let stepSize ← n.readFloat1 "StepSize" 1.0
  let bounds ← n.readBounds
  let c ← get
  let object : MarchedObject :=
    { name := n.givenName
      slot := c.scope.object
      steps := Binary32.toNat32 (Scalar.max steps 1.0)
      stepSize := Scalar.saturate stepSize
      bounds := bounds }
  addEntities fun e => { e with objects := e.objects ++ [object] }

/-- The placement that an object's options give. -/
def readPlacement (n : Node) : StateM Context (Placement Float32) := do
  let position ← n.readFloat3 "Position" .zero
  let rotation ← n.readFloat3 "Rotation" .zero
  let scale ← n.readFloat1 "Scale" 1.0
  return ⟨position, rotation, scale⟩

/-- The statement that replaces the nearest hit by that of a primitive. -/
def hitStatement (function : String) (args : List Shader.Expr) : Shader.Stmt :=
  .assign (.ident "hit")
    (.call function (.ident "ro" :: .ident "rd" :: args ++ [.ident "hit"]))

/-- Option that gives the direction of a sun. -/
def directionOption (n : Node) : String :=
  if n.options.contains "Direction" then "Direction" else "Position"

/-- The direction to a sun. A vector of no length is a fault. -/
def readDirection (n : Node) : StateM Context (Vec3 Float32) := do
  let given ← n.readFloat3 n.directionOption ⟨0.0, 1.0, -1.0⟩
  match given.normalize? with
  | some d => return d
  | none =>
    n.report (.malformedOption n.directionOption "direction must not be zero")
    return .axisY

def visitSun (n : Node) : StateM Context Unit := do
  let direction ← n.readDirection
  let emission ← n.readFloat3 "Emission" (.splat 4.0)
  let data ← allocate (direction.extend 0.0)
  addEntities fun e => { e with lights := e.lights ++ [⟨.sun, data, -1, 0.0, emission⟩] }

/-- The material that a sphere light emits with. -/
def lightMaterial (n : Node) : StateM Context (Option Nat) :=
  match n.options.text? "Material" with
  | some name => fun c => c.resolve name n.line
  | none => do
    n.report .missingLightMaterial
    return none

/-- A sphere light where its object stands. The statement names the slot of the light as a
natural number, however great: a slot that does not fit 32 bits would need data beyond any
memory, and is printed here without being cut to them. The material is cut to a signed
32-bit number, in the statement as in the record. -/
def visitSphereLight (n : Node) (out : Output) : StateM Context Output := do
  let position ← n.readFloat3 "Position" .zero
  let radius ← n.readFloat1 "Radius" 1.0
  match ← n.lightMaterial with
  | none => return out
  | some index =>
    let c ← get
    let worldRadius := radius * c.scope.placement.scale
    let data ← allocate ((c.toWorld position).extend worldRadius)
    let material := Context.wrapIndex index
    addEntities fun e =>
      { e with lights := e.lights ++ [⟨.sphere, data, material, worldRadius, .zero⟩] }
    return out.emit (hitStatement "prim_light_sphere" [.uint data, .int material])

def visitCamera (n : Node) (kind : CameraKind) : StateM Context Unit := do
  let (origin, fieldOfView) : Vec3 Float32 × Float32 := match kind with
    | .perspective => (⟨0.0, 0.0, -5.0⟩, 60.0)
    | .isometric => (⟨8.0, 8.0, -8.0⟩, 6.0)
  let origin ← n.readFloat3 "Origin" origin
  let lookAt ← n.readFloat3 "LookAt" .zero
  let fieldOfView ← n.readFloat1 "Fov" fieldOfView
  addEntities fun e => { e with camera := some ⟨origin, lookAt, fieldOfView, kind = .isometric⟩ }

/-- Shader function that intersects a kind of primitive. -/
def primitiveFunction : PrimitiveKind → String
  | .sphere => "prim_sphere"
  | .box => "prim_box"
  | .plane => "prim_plane"

/-- Record the parameters of a primitive and return their slot. -/
def allocatePrimitive (n : Node) : PrimitiveKind → StateM Context Nat
  | .sphere => do
    let position ← n.readFloat3 "Position" .zero
    let radius ← n.readFloat1 "Radius" 1.0
    allocate (position.extend radius)
  | .box => do
    let position ← n.readFloat3 "Position" .zero
    let size ← n.readFloat3 "Size" .one
    let slot ← allocate (position.extend 0.0)
    let _ ← allocate ((size.map Float32.abs).extend 0.0)
    return slot
  | .plane => do
    let normal ← n.readFloat3 "Normal" .axisY
    let offset ← n.readFloat1 "Offset" 0.0
    allocate ((normal.normalize?.getD .axisY).extend offset)

/-- A primitive with the object and the material that are active. The slots of the object
and of the primitive are printed as natural numbers that are not cut to 32 bits, as those
of lights are. -/
def visitPrimitive (n : Node) (kind : PrimitiveKind) (out : Output) :
    StateM Context Output := do
  let c ← get
  let object := c.scope.object
  let material := c.activeMaterial
  let data ← n.allocatePrimitive kind
  addEntities fun e => { e with primitives := e.primitives ++ [⟨kind, object, data, material⟩] }
  return out.emit (hitStatement (primitiveFunction kind) [.uint object, .uint data, .int material])

/-- The comment before the statements of an object. -/
def objectComment (n : Node) : Shader.Stmt :=
  .comment s!"{n.kind.name} '{n.givenName}'"

/-- What an object does before its leaves are visited. The scope from before
it is returned. -/
def enterObject (n : Node) (kind : ObjectKind) : StateM Context Scope := do
  let placement ← n.readPlacement
  let saved := (← get).scope
  modify fun c => c.checkIn placement
  n.activateOption
  if kind = .marched then n.addMarched
  return saved

/-- A material below an object becomes active for what follows it. -/
def visitMaterial (n : Node) : StateM Context Unit :=
  match n.explicitName? with
  | some name => n.activate name
  | none => pure ()

mutual

/-- Visit a node and all below it. -/
def visit (n : Node) (out : Output) : StateM Context Output :=
  match n with
  | ⟨.object kind, options, name, line, leaves⟩ => do
    let node : Node := ⟨.object kind, options, name, line, leaves⟩
    let saved ← node.enterObject kind
    let out ← visitAll leaves (out.emit node.objectComment)
    modify fun c => c.checkOut saved
    return out
  | ⟨.material .surface body, options, name, line, leaves⟩ => do
    visitMaterial ⟨.material .surface body, options, name, line, leaves⟩
    return out
  | ⟨.material .environment _, _, _, _, _⟩ => return out
  | ⟨.render, _, _, _, leaves⟩ => visitAll leaves out
  | ⟨.light .sun, options, name, line, leaves⟩ => do
    visitSun ⟨.light .sun, options, name, line, leaves⟩
    return out
  | ⟨.light .sphere, options, name, line, leaves⟩ =>
    visitSphereLight ⟨.light .sphere, options, name, line, leaves⟩ out
  | ⟨.camera kind, options, name, line, leaves⟩ => do
    visitCamera ⟨.camera kind, options, name, line, leaves⟩ kind
    return out
  | ⟨.primitive kind, options, name, line, leaves⟩ =>
    visitPrimitive ⟨.primitive kind, options, name, line, leaves⟩ kind out

/-- Visit nodes one after the other. -/
def visitAll (nodes : List Node) (out : Output) : StateM Context Output :=
  match nodes with
  | [] => return out
  | n :: rest => do
    let out ← visit n out
    visitAll rest out

end

/-- The context after a walk, with the statements that it emits. -/
def compile (n : Node) (c : Context) : List Shader.Stmt × Context :=
  let (out, c) := (n.visit (some [])).run c
  (out.getD [], c)

/-- The context after a walk that emits nothing. -/
def execute (n : Node) (c : Context) : Context :=
  ((n.visit none).run c).2

end Node

end PathTracer
