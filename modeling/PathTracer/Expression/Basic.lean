import PathTracer.Expression.Value

/-! The expression language of option values and material statements:
numbers and colors, variables, arithmetic, calls and component selection. -/
namespace PathTracer

namespace Expression

inductive Operator where
  | add
  | sub
  | mul
  | div
  deriving Repr, DecidableEq

def Operator.apply : Operator → Float32 → Float32 → Float32
  | .add => (· + ·)
  | .sub => (· - ·)
  | .mul => (· * ·)
  | .div => (· / ·)

def Operator.toShader : Operator → Shader.BinaryOp
  | .add => .add
  | .sub => .sub
  | .mul => .mul
  | .div => .div

end Expression

/-- An expression. The selection of components holds positions, not numbers, so that
positions beyond the fourth are excluded by their type. How many are selected is left to
the check of types. -/
inductive Expression where
  | const (value : Value)
  | var (name : String)
  | neg (operand : Expression)
  | binary (op : Expression.Operator) (left right : Expression)
  | call (function : String) (args : List Expression)
  | swizzle (base : Expression) (selection : List Component)
  deriving Inhabited

namespace Expression

mutual

/-- Whether an expression mentions a variable. -/
def references (name : String) : Expression → Bool
  | const _ => false
  | var other => other == name
  | neg e => e.references name
  | binary _ a b => a.references name || b.references name
  | call _ args => anyReferences name args
  | swizzle e _ => e.references name

def anyReferences (name : String) : List Expression → Bool
  | [] => false
  | e :: rest => e.references name || anyReferences name rest

end

end Expression

end PathTracer
