import PathTracer.Error
import PathTracer.Expression.Basic

/-! Static types of expressions. -/
namespace PathTracer.Expression

/-- Functions of one number, applied to each component. -/
inductive UnaryFunction where
  | sin
  | cos
  | tan
  | abs
  | floor
  | fract
  | sqrt
  | exp
  | log
  | saturate
  deriving Repr, DecidableEq

/-- Functions of two numbers, applied to each pair of components. -/
inductive BinaryFunction where
  | pow
  | min
  | max
  | step
  deriving Repr, DecidableEq

/-- The functions that an expression can call. -/
inductive Builtin where
  | unary (f : UnaryFunction)
  | binary (f : BinaryFunction)
  | clamp
  | mix
  | smoothstep
  | length
  | normalize
  | dot
  | cross
  | construct (type : ValueType)
  deriving Repr, DecidableEq

def Builtin.ofName? : String → Option Builtin
  | "sin" => some (unary .sin)
  | "cos" => some (unary .cos)
  | "tan" => some (unary .tan)
  | "abs" => some (unary .abs)
  | "floor" => some (unary .floor)
  | "fract" => some (unary .fract)
  | "sqrt" => some (unary .sqrt)
  | "exp" => some (unary .exp)
  | "log" => some (unary .log)
  | "saturate" => some (unary .saturate)
  | "pow" => some (binary .pow)
  | "min" => some (binary .min)
  | "max" => some (binary .max)
  | "step" => some (binary .step)
  | "clamp" => some clamp
  | "mix" => some mix
  | "smoothstep" => some smoothstep
  | "length" => some length
  | "normalize" => some normalize
  | "dot" => some dot
  | "cross" => some cross
  | "vec2" => some (construct .float2)
  | "float2" => some (construct .float2)
  | "vec3" => some (construct .float3)
  | "float3" => some (construct .float3)
  | "vec4" => some (construct .float4)
  | "float4" => some (construct .float4)
  | _ => none

/-- Types of the variables in scope. -/
abbrev TypeScope : Type := String → Option ValueType

def mismatch {α : Type} (expected actual : String) : Except Defect α :=
  .error (.typeMismatch expected actual)

/-- The common type of two operands. -/
def broadcastTypes (s t : ValueType) : Except Defect ValueType :=
  match s.broadcast t with
  | some type => .ok type
  | none => mismatch s.name t.name

/-- The common type of operands, joined from the left. -/
def broadcastAll (first : ValueType) : List ValueType → Except Defect ValueType
  | [] => .ok first
  | t :: rest =>
    match broadcastTypes first t with
    | .error e => .error e
    | .ok joined => broadcastAll joined rest

def wrongArity {α : Type} (function : String) (expected actual : Nat) : Except Defect α :=
  mismatch s!"{expected} arguments to {function}" (toString actual)

/-- Number of components of all values of some types. -/
def totalComponents : List ValueType → Nat
  | [] => 0
  | t :: rest => t.components + totalComponents rest

/-- Result type of a call whose arguments have the given types. -/
def callType (function : String) (f : Builtin) (types : List ValueType) :
    Except Defect ValueType :=
  match f, types with
  | .unary _, [t] => .ok t
  | .normalize, [t] => .ok t
  | .binary _, [s, t] => broadcastAll s [t]
  | .clamp, [s, t, u] => broadcastAll s [t, u]
  | .smoothstep, [s, t, u] => broadcastAll s [t, u]
  | .mix, [s, t, u] =>
    match broadcastAll s [t] with
    | .error e => .error e
    | .ok type => if u.assignableTo type then .ok type else mismatch type.name u.name
  | .length, [_] => .ok .float1
  | .dot, [s, t] => if s = t then .ok .float1 else mismatch s.name t.name
  | .cross, [s, t] =>
    if s ≠ .float3 then mismatch "Float3" s.name
    else if t ≠ .float3 then mismatch "Float3" t.name
    else .ok .float3
  | .construct type, types =>
    let total := totalComponents types
    if total = type.components || types = [.float1] then .ok type
    else mismatch s!"{type.components} components for {function}" (toString total)
  | .unary _, types => wrongArity function 1 types.length
  | .normalize, types => wrongArity function 1 types.length
  | .length, types => wrongArity function 1 types.length
  | .binary _, types => wrongArity function 2 types.length
  | .dot, types => wrongArity function 2 types.length
  | .cross, types => wrongArity function 2 types.length
  | .clamp, types => wrongArity function 3 types.length
  | .smoothstep, types => wrongArity function 3 types.length
  | .mix, types => wrongArity function 3 types.length

/-- Type of the selection of components from an expression of a type. -/
def swizzleType (base : ValueType) (selection : List Component) : Except Defect ValueType :=
  if selection.any fun c => decide (base.components ≤ c.index) then
    mismatch ("swizzle within " ++ base.name) s!"{selection.length} components"
  else
    match ValueType.ofComponents? selection.length with
    | some t => .ok t
    | none => mismatch "1..4 components" (toString selection.length)

mutual

/-- Static type of an expression, or the first fault from the left. -/
def infer (scope : TypeScope) : Expression → Except Defect ValueType
  | const v => .ok v.type
  | var name =>
    match scope name with
    | some t => .ok t
    | none => .error (.unknownVariable name)
  | neg e => infer scope e
  | binary _ a b =>
    match infer scope a with
    | .error e => .error e
    | .ok s =>
      match infer scope b with
      | .error e => .error e
      | .ok t => broadcastTypes s t
  | swizzle e selection =>
    match infer scope e with
    | .error e => .error e
    | .ok base => swizzleType base selection
  | call function args =>
    match Builtin.ofName? function with
    | none => .error (.unknownFunction function)
    | some f =>
      match inferAll scope args with
      | .error e => .error e
      | .ok types => callType function f types

def inferAll (scope : TypeScope) : List Expression → Except Defect (List ValueType)
  | [] => .ok []
  | e :: rest =>
    match infer scope e with
    | .error e => .error e
    | .ok t =>
      match inferAll scope rest with
      | .error e => .error e
      | .ok types => .ok (t :: types)

end

end PathTracer.Expression
