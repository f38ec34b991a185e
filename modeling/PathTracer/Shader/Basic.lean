/-! Statements and expressions of generated shader code. Nothing here knows
how they are written as text. -/
namespace PathTracer.Shader

/-- Value types of generated code. -/
inductive Ty where
  | f32
  | vec2
  | vec3
  | vec4
  | i32
  | u32
  | bool
  /-- A structure that the program text declares. -/
  | named (name : String)
  deriving Repr, DecidableEq

/-- The float type with this many components. One component is a scalar. -/
def Ty.floats : Nat → Ty
  | 1 => .f32
  | 2 => .vec2
  | 3 => .vec3
  | _ => .vec4

inductive BinaryOp where
  | add
  | sub
  | mul
  | div
  | eq
  | ne
  | lt
  | le
  | gt
  | ge
  | and
  | or
  deriving Repr, DecidableEq

inductive Expr where
  | float (value : Float32)
  /-- A signed 32-bit number. -/
  | int (value : Int)
  /-- An unsigned number. It is printed as it is, also where it does not fit 32 bits. -/
  | uint (value : Nat)
  | ident (name : String)
  | field (base : Expr) (name : String)
  | index (base position : Expr)
  | neg (operand : Expr)
  | not (operand : Expr)
  | binary (op : BinaryOp) (left right : Expr)
  | call (function : String) (args : List Expr)
  | construct (type : Ty) (args : List Expr)
  deriving Inhabited

/-- Constant with the given components. One component is a plain number. -/
def Expr.vector : List Float32 → Expr
  | [x] => .float x
  | components => .construct (.floats components.length) (components.map .float)

inductive Stmt where
  /-- An immutable binding. -/
  | bind (name : String) (value : Expr)
  /-- A mutable binding with its type. -/
  | declare (name : String) (type : Ty) (value : Option Expr)
  | assign (target value : Expr)
  | branch (condition : Expr) (yes no : List Stmt)
  | return (value : Option Expr)
  | comment (text : String)
  deriving Inhabited

/-- An if / else-if chain of conditions with their bodies. -/
def Stmt.chain : List (Expr × List Stmt) → List Stmt
  | [] => []
  | (condition, body) :: arms => [.branch condition body (chain arms)]

structure Param where
  name : String
  type : Ty
  deriving Repr, DecidableEq

structure Function where
  name : String
  params : List Param
  result : Option Ty
  body : List Stmt

end PathTracer.Shader
