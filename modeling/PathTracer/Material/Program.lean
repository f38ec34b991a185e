import PathTracer.Expression.Lowering
import PathTracer.Expression.Parser
import PathTracer.Material.Inputs

/-! Bodies of materials: checked against their types, evaluated at a point, and
written as shader functions. -/
namespace PathTracer.Material

/-- What a checked statement assigns. -/
inductive Target where
  | field (field : Field)
  /-- A local of the body. Its first assignment declares it. -/
  | variable (name : String) (type : ValueType) (declares : Bool)
  deriving Repr, DecidableEq

structure TypedStatement where
  target : Target
  expr : Expression
  line : Nat

/-- Locals of a body with their types, the latest first. -/
abbrev Locals : Type := List (String × ValueType)

/-- Types of the names that a body can use at some statement. A local hides a
variable of the system. -/
def typeScope (role : MaterialRole) (locals : Locals) : Expression.TypeScope :=
  fun name => (locals.lookup name).orElse fun _ =>
    (systemVariable? role name).map SystemVariable.type

/-- Names that a local can have. -/
def isIdentifier (name : String) : Bool :=
  match name.toList with
  | c :: rest => Expression.isNameStart c && rest.all Expression.isNamePart
  | [] => false

def mismatch {α : Type} (expected actual : ValueType) : Except Defect α :=
  .error (.typeMismatch expected.name actual.name)

/-- The target of a statement whose expression has a type. -/
def targetOf (role : MaterialRole) (locals : Locals) (name : String) (type : ValueType) :
    Except Defect Target :=
  match Field.ofTarget? role name with
  | some field =>
    if type.assignableTo field.type then .ok (.field field) else mismatch field.type type
  | none =>
    if !isIdentifier name then .error (.malformedOption name "not a valid variable name")
    else
      match locals.lookup name with
      | some declared =>
        if type.assignableTo declared then .ok (.variable name declared false)
        else mismatch declared type
      | none => .ok (.variable name type true)

/-- The locals after a statement. -/
def Target.declare (locals : Locals) : Target → Locals
  | .variable name type true => (name, type) :: locals
  | _ => locals

/-- Read and check one statement. -/
def checkStatement (role : MaterialRole) (locals : Locals) (s : Statement) :
    Except Defect TypedStatement :=
  match Expression.parse s.source with
  | .error e => .error (.malformedOption s.target e.message)
  | .ok expr =>
    match expr.infer (typeScope role locals) with
    | .error d => .error d
    | .ok type =>
      match targetOf role locals s.target type with
      | .error d => .error d
      | .ok target => .ok ⟨target, expr, s.line⟩

/-- Read and check statements in order. The first fault ends it. -/
def checkBody (role : MaterialRole) (locals : Locals) :
    List Statement → Except CompileError (List TypedStatement)
  | [] => .ok []
  | s :: rest =>
    match checkStatement role locals s with
    | .error d => .error ⟨d, s.line⟩
    | .ok typed =>
      match checkBody role (typed.target.declare locals) rest with
      | .error e => .error e
      | .ok more => .ok (typed :: more)

/-- A checked material or environment. -/
structure Program where
  name : String
  index : Nat
  role : MaterialRole
  body : List TypedStatement

namespace Program

/-- The program of a node's statements. -/
def build (name : String) (index : Nat) (role : MaterialRole) (statements : List Statement) :
    Except CompileError Program :=
  (checkBody role [] statements).map fun body => ⟨name, index, role, body⟩

/-- Values of the locals that have been assigned, the latest first. -/
abbrev Values : Type := List (String × Value)

/-- Values of the names that a body can use. -/
def valueScope (inputs : Inputs) (values : Values) : Expression.ValueScope :=
  fun name => (values.lookup name).orElse fun _ =>
    (systemVariable? .environment name).map fun v => v.value inputs

/-- A value as a local of a type holds it. -/
def widen (type : ValueType) (v : Value) : Value :=
  if v.type = type then v else .splat type v.x

/-- Run statements in order, handing each assigned field to `store`. A
statement that cannot be evaluated assigns nothing. -/
def run {σ : Type} (inputs : Inputs) (store : σ → Value → Field → σ) :
    Values → σ → List TypedStatement → σ
  | _, result, [] => result
  | values, result, s :: rest =>
    match s.expr.eval (valueScope inputs values) with
    | .error _ => run inputs store values result rest
    | .ok v =>
      match s.target with
      | .field field => run inputs store values (store result v field) rest
      | .variable name type _ => run inputs store ((name, widen type v) :: values) result rest

/-- The surface parameters that a body gives at a point. -/
def evaluate (p : Program) (inputs : Inputs) : SurfaceParams Float32 :=
  run inputs Field.store [] .default p.body

/-- The color that an environment gives for a ray, over a background. -/
def evaluateEnvironment (p : Program) (inputs : Inputs) (background : Vec3 Float32) :
    Vec3 Float32 :=
  run inputs (fun _ v _ => v.asVec3) [] background p.body

def functionName (p : Program) : String :=
  match p.role with
  | .surface => s!"material_{p.index}"
  | .environment => "environment"

/-- The index of a program in generated code, a signed 32-bit number. -/
def shaderIndex (p : Program) : Int :=
  (p.index : Int).bmod 0x100000000

/-- Name of a local in the shader. -/
def localName (name : String) : String :=
  "v_" ++ name

/-- Shader code that reads a name of the body. -/
def codeOf (role : MaterialRole) (locals : Locals) (name : String) : Shader.Expr :=
  match systemVariable? role name, locals.lookup name with
  | some v, none => .field (.ident "inp") v.field
  | _, _ => .ident (localName name)

def lowerScope (role : MaterialRole) (locals : Locals) : Expression.LowerScope :=
  ⟨typeScope role locals, codeOf role locals⟩

/-- Name of the result in the shader function. -/
def resultName : MaterialRole → String
  | .surface => "m"
  | .environment => "color"

def resultType : MaterialRole → Shader.Ty
  | .surface => .named "BsdfMaterial"
  | .environment => .vec3

/-- The uniform background color. -/
def backgroundCode : Shader.Expr :=
  .field (.field (.ident "uniforms") "background") "xyz"

/-- What the result is before any statement. -/
def initialCode : MaterialRole → Shader.Expr
  | .surface => .call "default_material" []
  | .environment => backgroundCode

/-- Shader code that an assignment to a field writes to. -/
def fieldCode (role : MaterialRole) (field : Field) : Shader.Expr :=
  match role with
  | .surface => .field (.ident (resultName role)) field.shaderName
  | .environment => .ident (resultName role)

/-- Shader code of one statement. -/
def statementCode (role : MaterialRole) (locals : Locals) (s : TypedStatement) :
    Except Defect Shader.Stmt :=
  match s.expr.lower (lowerScope role locals) with
  | .error d => .error d
  | .ok lowered =>
    match s.target with
    | .field field => .ok (.assign (fieldCode role field) (Expression.splatTo field.type lowered))
    | .variable name type true =>
      .ok (.declare (localName name) type.shaderType (some (Expression.splatTo type lowered)))
    | .variable name type false =>
      .ok (.assign (.ident (localName name)) (Expression.splatTo type lowered))

def bodyCode (role : MaterialRole) (locals : Locals) :
    List TypedStatement → Except CompileError (List Shader.Stmt)
  | [] => .ok []
  | s :: rest =>
    match statementCode role locals s with
    | .error d => .error ⟨d, s.line⟩
    | .ok code =>
      match bodyCode role (s.target.declare locals) rest with
      | .error e => .error e
      | .ok more => .ok (code :: more)

def inputParam : Shader.Param :=
  ⟨"inp", .named "MaterialInput"⟩

/-- The shader function of a body. -/
def function (p : Program) : Except CompileError Shader.Function :=
  match bodyCode p.role [] p.body with
  | .error e => .error e
  | .ok code => .ok
    { name := p.functionName
      params := [inputParam]
      result := some (resultType p.role)
      body := .comment p.name
        :: .declare (resultName p.role) (resultType p.role) (some (initialCode p.role))
        :: (code ++ [.return (some (.ident (resultName p.role)))]) }

end Program

end PathTracer.Material
