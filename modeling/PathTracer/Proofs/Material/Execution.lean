import Mathlib
import PathTracer.Proofs.Expression.Identifiers
import PathTracer.Proofs.Material.Checking

/-! The shader function of a body computes what the body gives at a point. -/
namespace PathTracer

open Shader (Datum Env Library)

/-! ### Data of the shader around a body -/

/-- The structure that a material function gets. -/
def Material.Inputs.datum (i : Material.Inputs) : Datum :=
  .record "MaterialInput" [
    ("ray_position", i.rayPosition.toList), ("ray_direction", i.rayDirection.toList),
    ("normal", i.normal.toList), ("uv", i.uv.toList), ("view_size", i.viewSize.toList),
    ("hash", [i.hash]), ("gradient", [i.gradient])]

/-- The numbers of a parameter. A color is not one of them. -/
def SurfaceParams.numbers (m : SurfaceParams Float32) : Material.Field → List Float32
  | .albedo => m.albedo.toList
  | .specular => [m.specular]
  | .emission => m.emission.toList
  | .anisotropic => [m.anisotropic]
  | .metallic => [m.metallic]
  | .roughness => [m.roughness]
  | .subsurface => [m.subsurface]
  | .specularTint => [m.specularTint]
  | .sheen => [m.sheen]
  | .sheenTint => [m.sheenTint]
  | .clearcoat => [m.clearcoat]
  | .clearcoatGloss => [m.clearcoatGloss]
  | .transmission => [m.transmission]
  | .ior => [m.ior]
  | .extinction => m.extinction.toList
  | .color => []

/-- The structure that a material function returns. -/
def SurfaceParams.datum (m : SurfaceParams Float32) : Datum :=
  .record "BsdfMaterial" (Material.Field.surfaceFields.map fun f => (f.shaderName, m.numbers f))

/-- The structure says everything about the parameters. -/
theorem SurfaceParams.datum_injective {m n : SurfaceParams Float32} (h : m.datum = n.datum) :
    m = n := by
  obtain ⟨⟨⟩, _, ⟨⟩, _, _, _, _, _, _, _, _, _, _, _, ⟨⟩⟩ := m
  obtain ⟨⟨⟩, _, ⟨⟩, _, _, _, _, _, _, _, _, _, _, _, ⟨⟩⟩ := n
  simpa [datum, numbers, Material.Field.surfaceFields, Vec3.toList, and_assoc] using h

namespace Material

/-- What a body finds around it: the uniforms of a frame with a background,
and the parameters before any statement. -/
def library (background : Vec3 Float32) (alpha : Float32) : Library where
  global name :=
    if name = "uniforms" then
      some (.record "RenderUniforms" [("background", background.toList ++ [alpha])])
    else none
  call function args :=
    if function = "default_material" && args.isEmpty then
      some (SurfaceParams.default : SurfaceParams Float32).datum
    else none

/-- The code of a surface starts from the default surface, which the library knows. -/
theorem library_initialCode_surface (background : Vec3 Float32) (alpha : Float32) (env : Env) :
    (Program.initialCode .surface).eval (library background alpha) env =
      some (SurfaceParams.default : SurfaceParams Float32).datum := by
  rfl

/-- The code of an environment starts from the background of the frame. -/
theorem library_initialCode_environment (background : Vec3 Float32) (alpha : Float32) {env : Env}
    (h : env.lookup "uniforms" = none) :
    (Program.initialCode .environment).eval (library background alpha) env =
      some (.floats background.toList) := by
  simp only [Program.initialCode, Program.backgroundCode, Shader.Expr.eval, h]
  rfl

/-! ### Names -/

theorem Program.localName_injective {a b : String}
    (h : Program.localName a = Program.localName b) : a = b := by
  have hList := congrArg String.toList h
  simp only [Program.localName, String.toList_append, List.append_right_inj] at hList
  exact String.toList_injective hList

theorem Program.localName_ne_inp (name : String) : Program.localName name ≠ "inp" := by
  intro h
  have hList := congrArg String.toList h
  simp [Program.localName, String.toList_append] at hList

theorem Program.localName_ne_resultName (name : String) (role : MaterialRole) :
    Program.localName name ≠ Program.resultName role := by
  intro h
  have hList := congrArg String.toList h
  cases role <;> simp [Program.localName, Program.resultName, String.toList_append] at hList

/-! ### Writing a field -/

theorem lanesAs_float1 (v : Value) : v.lanesAs .float1 = [v.x] := by
  obtain ⟨type, lanes⟩ := v
  cases type <;> rfl

theorem lanesAs_float3 (v : Value) : v.lanesAs .float3 = v.asVec3.toList := by
  obtain ⟨type, lanes⟩ := v
  cases type <;> rfl

theorem length_numbers (m : SurfaceParams Float32) {f : Field} (h : f ∈ Field.surfaceFields) :
    (m.numbers f).length = f.type.components := by
  cases f <;> first | rfl | simp [Field.surfaceFields] at h

/-- A field holds what is written to it, widened to its type. -/
theorem numbers_store_self (m : SurfaceParams Float32) (v : Value) {f : Field}
    (h : f ∈ Field.surfaceFields) : (Field.store m v f).numbers f = v.lanesAs f.type := by
  cases f <;> first
    | exact (lanesAs_float1 v).symm
    | exact (lanesAs_float3 v).symm
    | simp [Field.surfaceFields] at h

/-- Other fields keep what they hold. -/
theorem numbers_store_of_ne (m : SurfaceParams Float32) (v : Value) {f g : Field} (h : g ≠ f) :
    (Field.store m v f).numbers g = m.numbers g := by
  cases f <;> cases g <;> first | rfl | exact absurd rfl h

/-- A structure after a field is written is that of the parameters after it is
stored. -/
theorem withField_datum (m : SurfaceParams Float32) (v : Value) {f : Field}
    (h : f ∈ Field.surfaceFields) :
    Datum.withField f.shaderName (.floats (v.lanesAs f.type)) m.datum =
      some (Field.store m v f).datum := by
  have hNames : (Field.surfaceFields.map Field.shaderName).Nodup := by decide
  have hUpdate : Shader.updateAt f.shaderName
      (fun old => if old.length = (v.lanesAs f.type).length then some (v.lanesAs f.type) else none)
      (Field.surfaceFields.map fun g => (g.shaderName, m.numbers g)) =
      some (Field.surfaceFields.map fun g => (g.shaderName, (Field.store m v f).numbers g)) := by
    refine Shader.updateAt_map hNames h ?_ fun g hg => numbers_store_of_ne m v hg
    rw [length_numbers m h, Value.length_lanesAs, if_pos rfl, numbers_store_self m v h]
  exact congrArg (Option.map (Datum.record "BsdfMaterial")) hUpdate

/-! ### Runs of a body -/

/-- How the shader holds a result of a body: code that writes a field changes
the held value as `store` changes the result. -/
structure Holds {σ : Type} (role : MaterialRole) (store : σ → Value → Field → σ)
    (datum : σ → Datum) : Prop where
  write : ∀ {f : Field} (result : σ) {v : Value} {env : Env}, f ∈ Field.fieldsOf role →
    env.lookup (Program.resultName role) = some (datum result) →
    ∃ next, env.write (.floats (v.lanesAs f.type)) (Program.fieldCode role f) = some next ∧
      ∀ other, next.lookup other =
        if other = Program.resultName role then some (datum (store result v f))
        else env.lookup other

/-- A surface and its data in the shader hold the same after each write. -/
theorem holds_surface : Holds .surface Field.store SurfaceParams.datum where
  write result v _ hField hResult :=
    Shader.lookup_updateAt hResult (withField_datum result v hField)

/-- A color of the environment and its data in the shader hold the same after each write. -/
theorem holds_environment :
    Holds .environment (fun _ v _ => v.asVec3) fun color : Vec3 Float32 => .floats color.toList where
  write {f} result v _ hField hResult := by
    obtain rfl : f = .color := List.mem_singleton.mp hField
    rw [show Field.color.type = .float3 from rfl, lanesAs_float3]
    exact Shader.lookup_updateAt hResult rfl

namespace Program

/-- A state of the shader function that agrees with a state of the evaluation
after the same statements. -/
structure Agrees (inputs : Inputs) (locals : Locals) (values : Values) (env : Env) : Prop where
  types : ∀ name, locals.lookup name = (values.lookup name).map Value.type
  locals : ∀ name, env.lookup (localName name) =
    (values.lookup name).map fun v => .floats v.components
  inp : env.lookup "inp" = some inputs.datum

/-- A value is widened by repeating a scalar. -/
@[simp] theorem components_widen (type : ValueType) {v : Value}
    (h : v.type.assignableTo type = true) : (widen type v).components = v.lanesAs type := by
  unfold widen
  split
  · rename_i hSame
    rw [← hSame, v.lanesAs_type]
  · rename_i hOther
    rw [Value.lanesAs_of_float1 ((ValueType.assignableTo_iff.mp h).resolve_left hOther)]
    cases type <;> rfl

@[simp] theorem type_widen (type : ValueType) (v : Value) : (widen type v).type = type := by
  unfold widen
  split
  · assumption
  · exact Value.type_ofFn _ _

/-- A value written to a local. -/
theorem Agrees.assign {inputs : Inputs} {locals next : Locals} {values : Values} {env after : Env}
    {name : String} {v : Value} (h : Agrees inputs locals values env)
    (hLocals : ∀ other, next.lookup other =
      if other = name then some v.type else locals.lookup other)
    (hEnv : ∀ other, after.lookup other =
      if other = localName name then some (.floats v.components) else env.lookup other) :
    Agrees inputs next ((name, v) :: values) after := by
  constructor
  · intro other
    rw [hLocals, Shader.lookup_cons_ite]
    split
    · rfl
    · exact h.types other
  · intro other
    rw [hEnv, Shader.lookup_cons_ite]
    by_cases hOther : other = name
    · simp [hOther]
    · rw [if_neg (fun hName => hOther (localName_injective hName)), if_neg hOther]
      exact h.locals other
  · rw [hEnv, if_neg (Ne.symm (localName_ne_inp name))]
    exact h.inp

/-- The structure of a point has the value of every variable of the system. -/
theorem field?_datum (inputs : Inputs) {system : SystemVariable}
    (h : system ∈ systemVariables .environment) :
    inputs.datum.field? system.field = some (.floats (system.value inputs).components) ∧
      (system.value inputs).type = system.type := by
  simp only [systemVariables, surfaceVariables, directionVariable, List.cons_append,
    List.nil_append, List.mem_cons, List.not_mem_nil, or_false] at h
  rcases h with rfl | rfl | rfl | rfl | rfl | rfl | rfl <;> exact ⟨rfl, rfl⟩

/-- An environment sees whatever a surface sees. -/
theorem systemVariable?_environment {role : MaterialRole} {name : String}
    {system : SystemVariable} (h : systemVariable? role name = some system) :
    systemVariable? .environment name = some system := by
  cases role with
  | environment => exact h
  | surface =>
      unfold systemVariable? systemVariables at *
      rw [List.find?_append, h, Option.some_or]

/-- Code of a body reads what the evaluation of the body reads. -/
theorem Agrees.reads {inputs : Inputs} {locals : Locals} {values : Values} {env : Env}
    (h : Agrees inputs locals values env) (role : MaterialRole) (lib : Library) :
    (lowerScope role locals).Reads (valueScope inputs values) lib env := by
  intro name type hType
  have hScope : typeScope role locals name = some type := hType
  cases hLocal : locals.lookup name with
  | some declared =>
      rw [typeScope, hLocal, Option.orElse_some, Option.some.injEq] at hScope
      subst hScope
      obtain ⟨v, hValue, hv⟩ := Option.map_eq_some_iff.mp ((h.types name).symm.trans hLocal)
      refine ⟨v, by rw [valueScope, hValue, Option.orElse_some], hv, ?_⟩
      have hCode : codeOf role locals name = .ident (localName name) := by
        unfold codeOf
        rw [hLocal]
        cases systemVariable? role name <;> rfl
      change (codeOf role locals name).eval lib env = _
      rw [hCode, Shader.Expr.eval, h.locals, hValue]
      rfl
  | none =>
      rw [typeScope, hLocal, Option.orElse_none] at hScope
      obtain ⟨system, hSystem, rfl⟩ := Option.map_eq_some_iff.mp hScope
      have hValue : values.lookup name = none := by
        simpa [hLocal] using (h.types name).symm
      have hEnvironment := systemVariable?_environment hSystem
      obtain ⟨hField, hv⟩ := field?_datum inputs (List.mem_of_find?_eq_some hEnvironment)
      refine ⟨system.value inputs, ?_, hv, ?_⟩
      · rw [valueScope, hValue, Option.orElse_none, hEnvironment]
        rfl
      have hCode : codeOf role locals name = .field (.ident "inp") system.field := by
        unfold codeOf
        rw [hLocal, hSystem]
      change (codeOf role locals name).eval lib env = _
      rw [hCode, Shader.Expr.eval, Shader.Expr.eval, h.inp]
      exact hField

/-- The result is none of the names that the evaluation knows. -/
theorem Agrees.frame {inputs : Inputs} {locals : Locals} {values : Values} {env after : Env}
    (h : Agrees inputs locals values env) (role : MaterialRole)
    (hEnv : ∀ other, other ≠ resultName role → after.lookup other = env.lookup other) :
    Agrees inputs locals values after := by
  refine ⟨h.types, fun name => ?_, ?_⟩
  · rw [hEnv _ (localName_ne_resultName name role)]
    exact h.locals name
  · rw [hEnv _ (by cases role <;> decide)]
    exact h.inp

/-- The state after a statement whose expression has a value. -/
def advance {σ : Type} (store : σ → Value → Field → σ) (v : Value) :
    Target → Values × σ → Values × σ
  | .field field, (values, result) => (values, store result v field)
  | .variable name type _, (values, result) => ((name, widen type v) :: values, result)

/-- One statement keeps the two states in agreement. This is the step of the induction on
the body, with one case for each kind of target. -/
theorem exec_targetCode {σ : Type} {role : MaterialRole} {store : σ → Value → Field → σ}
    {datum : σ → Datum} {lib : Library} {inputs : Inputs} {locals : Locals} {values : Values}
    {env : Env} {result : σ} {code : Shader.Expr × ValueType} {v : Value} {target : Target}
    (hHolds : Holds role store datum) (hAgrees : Agrees inputs locals values env)
    (hResult : env.lookup (resultName role) = some (datum result))
    (hShows : Expression.Shows lib env code v)
    (hTarget : TargetTyped role locals v.type target) :
    ∃ next, (targetCode role code target).exec lib env = some (.running next) ∧
      Agrees inputs (target.declare locals) (advance store v target (values, result)).1 next ∧
      next.lookup (resultName role) =
        some (datum (advance store v target (values, result)).2) := by
  cases hTarget with
  | @field f hField hFits =>
      obtain ⟨next, hWrite, hNext⟩ := hHolds.write result (v := v) hField hResult
      refine ⟨next, ?_, hAgrees.frame role fun other hOther => ?_, ?_⟩
      · simp [targetCode, Shader.Stmt.exec, hShows.eval_splatTo hFits, hWrite]
      · rw [hNext, if_neg hOther]
      · rw [hNext, if_pos rfl]
        rfl
  | @replaces name declared hLocal hFits =>
      obtain ⟨old, hOld, rfl⟩ := Option.map_eq_some_iff.mp ((hAgrees.types name).symm.trans hLocal)
      have hEnv := hAgrees.locals name
      rw [hOld] at hEnv
      have hNew : (Datum.floats (v.lanesAs old.type)).replaced (.floats old.components) =
          some (.floats (v.lanesAs old.type)) := by
        simp [Datum.replaced]
      obtain ⟨next, hWrite, hNext⟩ := Shader.lookup_updateAt hEnv hNew
      refine ⟨next, ?_, hAgrees.assign (fun other => ?_) (fun other => ?_), ?_⟩
      · simp [targetCode, Shader.Stmt.exec, hShows.eval_splatTo hFits, Env.write, hWrite]
      · rw [type_widen]
        by_cases hOther : other = name
        · simp [hOther, Target.declare, hLocal]
        · simp [hOther, Target.declare]
      · rw [hNext, components_widen _ hFits]
      · rw [hNext, if_neg (Ne.symm (localName_ne_resultName name role))]
        exact hResult
  | @declares name hFresh =>
      have hEnv : env.lookup (localName name) = none := by
        rw [hAgrees.locals]
        simpa [hFresh] using (hAgrees.types name).symm
      have hFits := ValueType.assignableTo_refl v.type
      refine ⟨(localName name, .floats (v.lanesAs v.type)) :: env, ?_,
        hAgrees.assign (fun other => ?_) (fun other => ?_), ?_⟩
      · have hWidth : v.type.shaderType.width? = some v.type.components := by
          cases v.type <;> rfl
        simp [targetCode, Shader.Stmt.exec, hShows.eval_splatTo hFits, Datum.hasType, hWidth,
          Env.declare, hEnv]
      · rw [type_widen, Target.declare, Shader.lookup_cons_ite]
      · rw [components_widen _ hFits, Shader.lookup_cons_ite]
      · rw [Shader.lookup_cons_ite, if_neg (Ne.symm (localName_ne_resultName name role))]
        exact hResult

/-- The statements of a body that cannot be evaluated at a point. -/
def skipped (inputs : Inputs) : Values → List TypedStatement → List TypedStatement
  | _, [] => []
  | values, s :: rest =>
    match s.expr.eval (valueScope inputs values) with
    | .error _ => s :: skipped inputs values rest
    | .ok v =>
      match s.target with
      | .field _ => skipped inputs values rest
      | .variable name type _ => skipped inputs ((name, widen type v) :: values) rest

/-- A statement whose expression has a value writes it to its target, and the others go on
from there. -/
theorem run_cons_of_eval {σ : Type} (store : σ → Value → Field → σ) {inputs : Inputs}
    {values : Values} (result : σ) {s : TypedStatement} (rest : List TypedStatement) {v : Value}
    (h : s.expr.eval (valueScope inputs values) = .ok v) :
    run inputs store values result (s :: rest) =
        run inputs store (advance store v s.target (values, result)).1
          (advance store v s.target (values, result)).2 rest ∧
      skipped inputs values (s :: rest) =
        skipped inputs (advance store v s.target (values, result)).1 rest := by
  obtain ⟨target, expr, line⟩ := s
  cases target <;> simp only [run, skipped, advance, h, and_self]

/-- The code of a typed body computes the result of its evaluation, and the
evaluation skips nothing. -/
theorem execAll_bodyLowers {σ : Type} {role : MaterialRole} {store : σ → Value → Field → σ}
    {datum : σ → Datum} (lib : Library) {inputs : Inputs} {locals : Locals} {values : Values}
    {env : Env} {result : σ} {body : List TypedStatement} {code : List Shader.Stmt}
    (hTyped : BodyTyped role locals body) (hHolds : Holds role store datum)
    (hAgrees : Agrees inputs locals values env)
    (hResult : env.lookup (resultName role) = some (datum result))
    (hCode : BodyLowers role locals body code) :
    ∃ next, Shader.Stmt.execAll lib env code = some (.running next) ∧
      next.lookup (resultName role) = some (datum (run inputs store values result body)) ∧
      skipped inputs values body = [] := by
  induction hTyped generalizing values env result code with
  | nil locals =>
      cases hCode
      exact ⟨env, rfl, hResult, rfl⟩
  | @cons locals s rest type hType hTarget hRest ih =>
      cases hCode with
      | @cons _ _ _ value _ hValue hMore =>
          obtain ⟨x, found⟩ := value
          have hLowers := Expression.lowers_of_lower s.expr hValue
          obtain ⟨v, hEval, rfl, hShows⟩ := hLowers.sound (hAgrees.reads role lib)
          cases hType.symm.trans hLowers.infer
          obtain ⟨next, hExec, hNext, hNextResult⟩ :=
            exec_targetCode hHolds hAgrees hResult ⟨rfl, hShows⟩ hTarget
          obtain ⟨hRun, hSkipped⟩ := run_cons_of_eval store result rest hEval
          rw [Shader.Stmt.execAll_cons_of_running hExec, hRun, hSkipped]
          exact ih hNext hNextResult hMore

/-- The function of a typed body returns the result of its evaluation. It starts from the
defaults of the role and ends with the result in its variable. -/
theorem run_function {σ : Type} {p : Program} {f : Shader.Function}
    {store : σ → Value → Field → σ} {datum : σ → Datum} {lib : Library} {initial : σ}
    (inputs : Inputs) (hBody : BodyTyped p.role [] p.body) (hFunction : p.function = .ok f)
    (hHolds : Holds p.role store datum)
    (hType : ∀ result, (datum result).hasType (resultType p.role) = true)
    (hInitial : ∀ env : Env, env.lookup "uniforms" = none →
      (initialCode p.role).eval lib env = some (datum initial)) :
    f.run lib [inputs.datum] = some (datum (run inputs store [] initial p.body)) ∧
      skipped inputs [] p.body = [] := by
  obtain ⟨code, hCode, rfl⟩ := function_eq_ok_iff.mp hFunction
  have hFresh : List.lookup (resultName p.role) [("inp", inputs.datum)] = none := by
    cases p.role <;> rfl
  have hDeclare : (Shader.Stmt.declare (resultName p.role) (resultType p.role)
      (some (initialCode p.role))).exec lib [("inp", inputs.datum)] =
      some (.running [(resultName p.role, datum initial), ("inp", inputs.datum)]) := by
    simp [Shader.Stmt.exec, hInitial, hType, Env.declare, hFresh]
  have hPoint : Agrees inputs [] [] [("inp", inputs.datum)] := by
    refine ⟨fun name => rfl, fun name => ?_, rfl⟩
    rw [Shader.lookup_cons_ite, if_neg (localName_ne_inp name)]
    rfl
  have hStart : Agrees inputs [] []
      [(resultName p.role, datum initial), ("inp", inputs.datum)] :=
    hPoint.frame p.role fun other hOther => by rw [Shader.lookup_cons_ite, if_neg hOther]
  obtain ⟨next, hExec, hNext, hSkipped⟩ :=
    execAll_bodyLowers lib hBody hHolds hStart List.lookup_cons_self hCode
  refine ⟨?_, hSkipped⟩
  have hReturn : Shader.Stmt.execAll lib next [.return (some (.ident (resultName p.role)))] =
      some (.returned (some (datum (run inputs store [] initial p.body)))) := by
    simp [Shader.Stmt.execAll, Shader.Stmt.exec, Shader.Expr.eval, hNext]
  have hComment : (Shader.Stmt.comment p.name).exec lib [("inp", inputs.datum)] =
      some (.running [("inp", inputs.datum)]) := rfl
  refine Shader.Function.run_of_returned rfl rfl ?_ rfl (hType _)
  change Shader.Stmt.execAll lib [("inp", inputs.datum)] _ = _
  rw [Shader.Stmt.execAll_cons_of_running hComment,
    Shader.Stmt.execAll_cons_of_running hDeclare, Shader.Stmt.execAll_append_of_running hExec,
    hReturn]

/-- Whatever passes the checks has a shader function. At every point and over every
background the function returns what the evaluation gives, and the evaluation leaves no
statement out. This is for all inputs and for both roles, with the library that the passes
use. Nothing is said of bodies that the checks refuse, which have no function. -/
theorem build_function_agrees {name : String} {index : Nat} {role : MaterialRole}
    {statements : List Statement} {p : Program} (h : build name index role statements = .ok p) :
    ∃ f, p.function = .ok f ∧
      ∀ (inputs : Inputs) (background : Vec3 Float32) (alpha : Float32),
        (role = .surface → f.run (library background alpha) [inputs.datum] =
          some (p.evaluate inputs).datum) ∧
        (role = .environment → f.run (library background alpha) [inputs.datum] =
          some (.floats (p.evaluateEnvironment inputs background).toList)) ∧
        skipped inputs [] p.body = [] := by
  obtain ⟨_, _, hRole, hBody⟩ := build_eq_ok h
  subst hRole
  obtain ⟨code, hCode⟩ := exists_bodyLowers hBody
  obtain ⟨f, hFunction⟩ : ∃ f, p.function = .ok f :=
    ⟨_, function_eq_ok_iff.mpr ⟨code, hCode, rfl⟩⟩
  refine ⟨f, hFunction, fun inputs background alpha => ?_⟩
  cases hRole : p.role with
  | surface =>
      have hHolds : Holds p.role Field.store SurfaceParams.datum := hRole ▸ holds_surface
      have hInitial : ∀ env : Env, env.lookup "uniforms" = none →
          (initialCode p.role).eval (library background alpha) env =
            some (SurfaceParams.default : SurfaceParams Float32).datum := fun env _ =>
        hRole ▸ library_initialCode_surface background alpha env
      obtain ⟨hRun, hSkipped⟩ :=
        run_function inputs hBody hFunction hHolds (fun _ => hRole ▸ rfl) hInitial
      exact ⟨fun _ => hRun, nofun, hSkipped⟩
  | environment =>
      have hHolds : Holds p.role (fun _ v _ => v.asVec3)
          fun color : Vec3 Float32 => .floats color.toList := hRole ▸ holds_environment
      have hInitial : ∀ env : Env, env.lookup "uniforms" = none →
          (initialCode p.role).eval (library background alpha) env =
            some (.floats background.toList) := fun env hEnv =>
        hRole ▸ library_initialCode_environment background alpha hEnv
      obtain ⟨hRun, hSkipped⟩ :=
        run_function inputs hBody hFunction hHolds (fun _ => hRole ▸ rfl) hInitial
      exact ⟨nofun, fun _ => hRun, hSkipped⟩

set_option maxRecDepth 4000 in
/-- A local that hides the normal of the system and is widened later. -/
theorem build_function_agrees_hidden_normal :
    ∃ p f, build "Glaze" 0 .surface
        [⟨"normal", "uv", 1⟩, ⟨"normal", "hash", 2⟩, ⟨"Albedo", "hash", 3⟩] = .ok p ∧
      p.function = .ok f ∧ ∀ inputs background alpha,
        f.run (library background alpha) [inputs.datum] = some (p.evaluate inputs).datum := by
  have hUv : Expression.parse "uv" = .ok (.var "uv") :=
    Expression.parse_identifier (by decide)
  have hHash : Expression.parse "hash" = .ok (.var "hash") :=
    Expression.parse_identifier (by decide)
  have hBuild : build "Glaze" 0 .surface
      [⟨"normal", "uv", 1⟩, ⟨"normal", "hash", 2⟩, ⟨"Albedo", "hash", 3⟩] =
      .ok ⟨"Glaze", 0, .surface, [⟨.variable "normal" .float2 true, .var "uv", 1⟩,
        ⟨.variable "normal" .float2 false, .var "hash", 2⟩,
        ⟨.field .albedo, .var "hash", 3⟩]⟩ := by
    simp only [build, checkBody, checkStatement, hUv, hHash]
    rfl
  obtain ⟨f, hFunction, hRun⟩ := build_function_agrees hBuild
  exact ⟨_, f, hBuild, hFunction, fun inputs background alpha =>
    (hRun inputs background alpha).1 rfl⟩

end Program

end Material

end PathTracer
