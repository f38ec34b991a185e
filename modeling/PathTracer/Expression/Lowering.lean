import PathTracer.Expression.Typing

/-! Expressions as shader code. -/
namespace PathTracer.Expression

/-- Variables in scope with their types and the shader code that reads them. -/
structure LowerScope where
  types : TypeScope
  code : String → Shader.Expr

/-- An argument of the given type, widened to the type of the call. -/
def splatTo (type : ValueType) (arg : Shader.Expr × ValueType) : Shader.Expr :=
  if arg.2 = type || type = .float1 then arg.1
  else .construct type.shaderType [arg.1]

/-- Code of a call. Shader functions that need arguments of one type get
scalars widened; the factor of a mixture may stay a scalar. -/
def lowerCall (function : String) (f : Builtin) (type : ValueType)
    (args : List (Shader.Expr × ValueType)) : Except Defect Shader.Expr :=
  match f with
  | .construct type => .ok (.construct type.shaderType (args.map Prod.fst))
  | .mix =>
    match args with
    | a :: b :: t :: _ => .ok (.call "mix" [splatTo type a, splatTo type b, t.1])
    | _ => mismatch "3 arguments to mix" "fewer"
  | .binary _ => .ok (.call function (args.map (splatTo type)))
  | .clamp => .ok (.call function (args.map (splatTo type)))
  | .smoothstep => .ok (.call function (args.map (splatTo type)))
  | _ => .ok (.call function (args.map Prod.fst))

mutual

/-- Shader code of an expression with its type, or the first fault. -/
def lower (scope : LowerScope) : Expression → Except Defect (Shader.Expr × ValueType)
  | const v => .ok (v.toShader, v.type)
  | var name =>
    match scope.types name with
    | some t => .ok (scope.code name, t)
    | none => .error (.unknownVariable name)
  | neg e =>
    match lower scope e with
    | .error e => .error e
    | .ok (x, t) => .ok (.neg x, t)
  | binary op a b =>
    match lower scope a with
    | .error e => .error e
    | .ok (x, s) =>
      match lower scope b with
      | .error e => .error e
      | .ok (y, t) =>
        match broadcastTypes s t with
        | .error e => .error e
        | .ok type => .ok (.binary op.toShader x y, type)
  | swizzle e selection =>
    match infer scope.types (swizzle e selection) with
    | .error e => .error e
    | .ok type =>
      match lower scope e with
      | .error e => .error e
      | .ok (x, _) => .ok (.field x (String.ofList (selection.map Component.letter)), type)
  | call function args =>
    match Builtin.ofName? function with
    | none => .error (.unknownFunction function)
    | some f =>
      match lowerAll scope args with
      | .error e => .error e
      | .ok lowered =>
        match callType function f (lowered.map Prod.snd) with
        | .error e => .error e
        | .ok type =>
          match lowerCall function f type lowered with
          | .error e => .error e
          | .ok code => .ok (code, type)

def lowerAll (scope : LowerScope) :
    List Expression → Except Defect (List (Shader.Expr × ValueType))
  | [] => .ok []
  | e :: rest =>
    match lower scope e with
    | .error e => .error e
    | .ok x =>
      match lowerAll scope rest with
      | .error e => .error e
      | .ok lowered => .ok (x :: lowered)

end

end PathTracer.Expression
