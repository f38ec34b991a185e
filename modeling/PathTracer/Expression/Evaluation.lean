import PathTracer.Expression.Typing

/-! Values of expressions. -/
namespace PathTracer.Expression

/-- Values of the variables in scope. -/
abbrev ValueScope : Type := String → Option Value

/-- Types of the variables that have a value. -/
def ValueScope.types (scope : ValueScope) : TypeScope :=
  fun name => (scope name).map Value.type

/-- The scope without variables. -/
def ValueScope.empty : ValueScope := fun _ => none

def UnaryFunction.apply : UnaryFunction → Float32 → Float32
  | sin => Float32.sin
  | cos => Float32.cos
  | tan => Float32.tan
  | abs => Float32.abs
  | floor => Binary32.floor
  | fract => fun x => x - Binary32.floor x
  | sqrt => Float32.sqrt
  | exp => Float32.exp
  | log => Float32.log
  | saturate => Scalar.saturate

/-- Zero below the edge and one from it on. -/
def step (edge x : Float32) : Float32 :=
  if x < edge then 0.0 else 1.0

def BinaryFunction.apply : BinaryFunction → Float32 → Float32 → Float32
  | pow => Float32.pow
  | min => Scalar.min
  | max => Scalar.max
  | step => Expression.step

def clamp (x lo hi : Float32) : Float32 :=
  Scalar.min (Scalar.max x lo) hi

def mix (a b t : Float32) : Float32 :=
  a + (b - a) * t

def smoothstep (low high x : Float32) : Float32 :=
  Scalar.smoothUnit (Scalar.saturate ((x - low) / (high - low)))

/-- Sum from the first to the last. The sum of nothing is `-0.0`. -/
def sumOf (xs : List Float32) : Float32 :=
  xs.foldl (· + ·) (-0.0)

def dotProduct (a b : Value) : Float32 :=
  sumOf (List.zipWith (· * ·) a.components b.components)

def vectorLength (v : Value) : Float32 :=
  (dotProduct v v).sqrt

/-- A value of the given type from parts whose components follow each other. -/
def construct (type : ValueType) (parts : List Value) : Except Defect Value :=
  match parts with
  | [⟨.float1, lanes⟩] => .ok (.splat type lanes.x)
  | parts =>
    let components := parts.flatMap Value.components
    match Value.ofList? components with
    | some v => .ok v
    | none => mismatch type.name (toString components.length)

/-- The value of a call, at the type that its arguments give it. -/
def applyBuiltin (function : String) (f : Builtin) (type : ValueType) (args : List Value) :
    Except Defect Value :=
  match f, args with
  | .unary g, [v] => .ok (v.map g.apply)
  | .binary g, [a, b] => .ok (.zip type g.apply a b)
  | .clamp, [a, b, c] => .ok (.zip3 type clamp a b c)
  | .smoothstep, [a, b, c] => .ok (.zip3 type smoothstep a b c)
  | .mix, [a, b, c] => .ok (.zip3 type mix a b c)
  | .length, [v] => .ok (.float1 (vectorLength v))
  | .normalize, [v] =>
    let length := vectorLength v
    .ok (v.map (· / length))
  | .dot, [a, b] => .ok (.float1 (dotProduct a b))
  | .cross, [a, b] => .ok (.float3 (a.asVec3.cross b.asVec3))
  | .construct type, args => construct type args
  | _, args => wrongArity function args.length args.length

mutual

/-- The value of an expression, or the first fault from the left. -/
def eval (scope : ValueScope) : Expression → Except Defect Value
  | const v => .ok v
  | var name =>
    match scope name with
    | some v => .ok v
    | none => .error (.unknownVariable name)
  | neg e =>
    match eval scope e with
    | .error e => .error e
    | .ok v => .ok (v.map (-·))
  | binary op a b =>
    match eval scope a with
    | .error e => .error e
    | .ok v =>
      match eval scope b with
      | .error e => .error e
      | .ok w =>
        match broadcastTypes v.type w.type with
        | .error e => .error e
        | .ok type => .ok (.zip type op.apply v w)
  | swizzle e selection =>
    match eval scope e with
    | .error e => .error e
    | .ok base =>
      match Value.ofList? (selection.map base.lanes.lane) with
      | some v => .ok v
      | none => mismatch "1..4 components" (toString selection.length)
  | call function args =>
    match Builtin.ofName? function with
    | none => .error (.unknownFunction function)
    | some f =>
      match evalAll scope args with
      | .error e => .error e
      | .ok values =>
        match callType function f (values.map Value.type) with
        | .error e => .error e
        | .ok type => applyBuiltin function f type values

def evalAll (scope : ValueScope) : List Expression → Except Defect (List Value)
  | [] => .ok []
  | e :: rest =>
    match eval scope e with
    | .error e => .error e
    | .ok v =>
      match evalAll scope rest with
      | .error e => .error e
      | .ok values => .ok (v :: values)

end

end PathTracer.Expression
