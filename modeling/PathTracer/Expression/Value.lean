import PathTracer.Vector
import PathTracer.Shader.Basic

/-! Types and constants of the expression language: one to four numbers. -/
namespace PathTracer

/-- Number of components of an expression. -/
inductive ValueType where
  | float1
  | float2
  | float3
  | float4
  deriving Repr, DecidableEq, Inhabited

namespace ValueType

def components : ValueType → Nat
  | float1 => 1
  | float2 => 2
  | float3 => 3
  | float4 => 4

def ofComponents? : Nat → Option ValueType
  | 1 => some float1
  | 2 => some float2
  | 3 => some float3
  | 4 => some float4
  | _ => none

def name : ValueType → String
  | float1 => "Float1"
  | float2 => "Float2"
  | float3 => "Float3"
  | float4 => "Float4"

def shaderType (t : ValueType) : Shader.Ty :=
  .floats t.components

/-- Type of a componentwise operation. A scalar fits any other operand. -/
def broadcast (s t : ValueType) : Option ValueType :=
  if s = t || t = float1 then some s
  else if s = float1 then some t
  else none

/-- Whether a value of type `s` may be stored where `t` is expected. -/
def assignableTo (s t : ValueType) : Bool :=
  s = t || s = float1

end ValueType

/-- Position of a component in a value. There are four of them and no others, since every
letter that a selection can be written with stands for one of these. A tree that selects by
a greater number cannot come of a text, and is no expression here. -/
inductive Component where
  | x
  | y
  | z
  | w
  deriving Repr, DecidableEq

namespace Component

def index : Component → Nat
  | x => 0
  | y => 1
  | z => 2
  | w => 3

def letter : Component → Char
  | x => 'x'
  | y => 'y'
  | z => 'z'
  | w => 'w'

/-- Positions are named by place or by color. -/
def ofLetter? (c : Char) : Option Component :=
  if c = 'x' || c = 'r' then some x
  else if c = 'y' || c = 'g' then some y
  else if c = 'z' || c = 'b' then some z
  else if c = 'w' || c = 'a' then some w
  else none

end Component

/-- The lane of a vector at a position. -/
def Vec4.lane {α : Type} (v : Vec4 α) : Component → α
  | .x => v.x
  | .y => v.y
  | .z => v.z
  | .w => v.w

/-- A typed constant. Lanes beyond its type are zero. -/
structure Value where
  type : ValueType
  lanes : Vec4 Float32
  deriving Repr, DecidableEq, Inhabited

namespace Value

/-- The value whose components are given by position. -/
def ofFn (type : ValueType) (f : Component → Float32) : Value :=
  match type with
  | .float1 => ⟨.float1, ⟨f .x, 0.0, 0.0, 0.0⟩⟩
  | .float2 => ⟨.float2, ⟨f .x, f .y, 0.0, 0.0⟩⟩
  | .float3 => ⟨.float3, ⟨f .x, f .y, f .z, 0.0⟩⟩
  | .float4 => ⟨.float4, ⟨f .x, f .y, f .z, f .w⟩⟩

def float1 (x : Float32) : Value :=
  ⟨.float1, ⟨x, 0.0, 0.0, 0.0⟩⟩

def float2 (v : Vec2 Float32) : Value :=
  ⟨.float2, ⟨v.x, v.y, 0.0, 0.0⟩⟩

def float3 (v : Vec3 Float32) : Value :=
  ⟨.float3, v.extend 0.0⟩

def float4 (v : Vec4 Float32) : Value :=
  ⟨.float4, v⟩

/-- The value with one number in every component. -/
def splat (type : ValueType) (x : Float32) : Value :=
  ofFn type fun _ => x

/-- The value with these components. There are one to four of them. -/
def ofList? : List Float32 → Option Value
  | [x] => some (float1 x)
  | [x, y] => some (float2 ⟨x, y⟩)
  | [x, y, z] => some (float3 ⟨x, y, z⟩)
  | [x, y, z, w] => some (float4 ⟨x, y, z, w⟩)
  | _ => none

def components (v : Value) : List Float32 :=
  v.lanes.toList.take v.type.components

def x (v : Value) : Float32 :=
  v.lanes.x

/-- A component of the value where a scalar fills all positions. -/
def broadcastLane (v : Value) (c : Component) : Float32 :=
  if v.type = .float1 then v.lanes.x else v.lanes.lane c

/-- A scalar fills the vector, and a wider value loses its last components. -/
def asVec2 (v : Value) : Vec2 Float32 :=
  if v.type = .float1 then .splat v.lanes.x else ⟨v.lanes.x, v.lanes.y⟩

/-- A scalar fills the vector. Missing components are zero. -/
def asVec3 (v : Value) : Vec3 Float32 :=
  if v.type = .float1 then .splat v.lanes.x else v.lanes.truncate

def map (f : Float32 → Float32) (v : Value) : Value :=
  ofFn v.type fun c => f (v.lanes.lane c)

/-- Combine three values component by component at a common type. -/
def zip3 (type : ValueType) (f : Float32 → Float32 → Float32 → Float32)
    (a b c : Value) : Value :=
  ofFn type fun i => f (a.broadcastLane i) (b.broadcastLane i) (c.broadcastLane i)

/-- Combine two values component by component at a common type. -/
def zip (type : ValueType) (f : Float32 → Float32 → Float32) (a b : Value) : Value :=
  ofFn type fun i => f (a.broadcastLane i) (b.broadcastLane i)

/-- The value between two of the type of the first. -/
def lerp (a b : Value) (t : Float32) : Value :=
  zip a.type (fun x y => x + (y - x) * t) a b

def toShader (v : Value) : Shader.Expr :=
  .vector v.components

end Value

end PathTracer
