import PathTracer.Geometry.Placement
import PathTracer.Scene.Node

/-! What a traversal of a scene knows and records: the scope of the node it
is at, the constant data, and the objects, lights and camera placed so far. -/
namespace PathTracer

/-- A primitive below an object. Slots are positions in the constant data. -/
structure Primitive where
  kind : PrimitiveKind
  /-- Slot of the placement of the object. -/
  object : Nat
  /-- Slot of the parameters: center and radius of a sphere, center and half
  size of a box in two slots, normal and offset of a plane. -/
  data : Nat
  /-- Index of the material, `-1` when none is active. -/
  material : Int
  deriving Repr, DecidableEq

/-- A light in the list of all lights. -/
structure Light where
  kind : LightKind
  /-- Slot of the direction of a sun, or of the world center and radius. -/
  data : Nat
  material : Int
  radius : Float32
  emission : Vec3 Float32
  deriving Repr, DecidableEq

/-- Surface area of a light. A sun has none. -/
def Light.area (l : Light) : Float32 :=
  match l.kind with
  | .sun => 0.0
  | .sphere => 4.0 * Scalar.pi * l.radius * l.radius

structure Camera where
  origin : Vec3 Float32
  lookAt : Vec3 Float32
  /-- Vertical angle of view in degrees, or the view's height if orthographic. -/
  fieldOfView : Float32
  orthographic : Bool
  deriving Repr, DecidableEq

/-- Half height of the image plane at distance one. -/
def Camera.scale (c : Camera) : Float32 :=
  if c.orthographic then c.fieldOfView * 0.5
  else (Scalar.radians c.fieldOfView * 0.5).tan

/-- An object as a marching geometry pass sees it. -/
structure MarchedObject where
  name : String
  /-- Slot of the placement. -/
  slot : Nat
  steps : Nat
  stepSize : Float32
  /-- Half extents around the object, in its own space. -/
  bounds : Option (Vec3 Float32)
  deriving Repr, DecidableEq

/-- Everything that a traversal placed in the scene. -/
structure Entities where
  objects : List MarchedObject
  primitives : List Primitive
  lights : List Light
  camera : Option Camera
  deriving Repr, DecidableEq

def Entities.empty : Entities := ⟨[], [], [], none⟩

/-- The part of the state that a subtree inherits and that is put back after it. -/
structure Scope where
  placement : Placement Float32
  /-- Slot of the placement of the current object. -/
  object : Nat
  material : Option Int
  depth : Nat
  deriving Repr, DecidableEq

structure Context where
  scope : Scope
  /-- Names of the registered materials, by index. -/
  materials : List String
  data : Array (Vec4 Float32)
  errors : List CompileError
  time : Float32
  entities : Entities

namespace Context

/-- Add a vector to the constant data. Its slot is the old size. -/
def pushSlot (c : Context) (v : Vec4 Float32) : Context :=
  { c with data := c.data.push v }

/-- Slot that the next vector gets. -/
def nextSlot (c : Context) : Nat :=
  c.data.size

/-- Record the current placement in three slots, the first of which stands
for the object from here on. -/
def pushObject (c : Context) : Context :=
  let p := c.scope.placement
  let slot := c.nextSlot
  let c := c.pushSlot (p.position.extend 0.0)
  let c := c.pushSlot (p.rotation.extend 0.0)
  let c := c.pushSlot ⟨p.scale, 0.0, 0.0, 0.0⟩
  { c with scope := { c.scope with object := slot } }

/-- The start of a traversal. The first object is the root itself. -/
def start (time : Float32) : Context :=
  pushObject
    { scope := ⟨.identity, 0, none, 0⟩
      materials := []
      data := #[]
      errors := []
      time := time
      entities := .empty }

/-- Enter a node with its own placement. The old scope is what `checkOut`
needs to leave it. -/
def checkIn (c : Context) (inner : Placement Float32) : Context :=
  let scope := c.scope
  pushObject { c with scope := { scope with
    placement := scope.placement.compose inner
    depth := scope.depth + 1 } }

/-- Put back the scope from before the matching `checkIn`. -/
def checkOut (c : Context) (saved : Scope) : Context :=
  { c with scope := saved }

def toWorld (c : Context) (point : Vec3 Float32) : Vec3 Float32 :=
  c.scope.placement.toWorld point

def materialIndex? (c : Context) (name : String) : Option Nat :=
  c.materials.findIdx? (· == name)

/-- Register a material. A name that is already there keeps its index. -/
def registerMaterial (c : Context) (name : String) : Context :=
  match c.materialIndex? name with
  | some _ => c
  | none => { c with materials := c.materials ++ [name] }

/-- An index as a signed 32-bit number. -/
def wrapIndex (index : Nat) : Int :=
  (index : Int).bmod 0x100000000

def activate (c : Context) (index : Nat) : Context :=
  { c with scope := { c.scope with material := some (wrapIndex index) } }

/-- Index of the active material, `-1` if there is none. -/
def activeMaterial (c : Context) : Int :=
  c.scope.material.getD (-1)

def report (c : Context) (defect : Defect) (line : Nat) : Context :=
  { c with errors := c.errors ++ [⟨defect, line⟩] }

/-- The index of a material that has to exist. -/
def resolve (c : Context) (name : String) (line : Nat) : Option Nat × Context :=
  match c.materialIndex? name with
  | some index => (some index, c)
  | none => (none, c.report (.unresolvedMaterial name) line)

/-- Take the first recorded error out. -/
def takeError (c : Context) : Option CompileError × Context :=
  (c.errors.head?, { c with errors := c.errors.tail })

end Context

end PathTracer
