import PathTracer.Material.Program
import PathTracer.Proofs.Expression.Lowering

/-! What the checks of a body establish for the statements after them. -/
namespace PathTracer.Material

namespace Field

/-- The fields that statements of a role can assign. -/
def fieldsOf : MaterialRole → List Field
  | .surface => surfaceFields
  | .environment => [color]

theorem mem_fieldsOf_of_ofTarget? {role : MaterialRole} {name : String} {field : Field}
    (h : ofTarget? role name = some field) : field ∈ fieldsOf role := by
  unfold ofTarget? at h
  cases role <;> exact List.mem_of_find?_eq_some h

end Field

/-- A target that fits an expression of a type where some locals are declared. -/
inductive TargetTyped (role : MaterialRole) (locals : Locals) (type : ValueType) :
    Target → Prop where
  | field {field : Field} (hField : field ∈ Field.fieldsOf role)
      (hFits : type.assignableTo field.type = true) : TargetTyped role locals type (.field field)
  | replaces {name : String} {declared : ValueType} (hLocal : locals.lookup name = some declared)
      (hFits : type.assignableTo declared = true) :
      TargetTyped role locals type (.variable name declared false)
  | declares {name : String} (hFresh : locals.lookup name = none) :
      TargetTyped role locals type (.variable name type true)

/-- A target that passes is typed: a field takes what can be assigned to it, and a local
keeps the type it was declared with. -/
theorem targetTyped_of_targetOf {role : MaterialRole} {locals : Locals} {name : String}
    {type : ValueType} {target : Target} (h : targetOf role locals name type = .ok target) :
    TargetTyped role locals type target := by
  unfold targetOf at h
  split at h
  · rename_i field hField
    split at h
    · rename_i hFits
      cases h
      exact .field (Field.mem_fieldsOf_of_ofTarget? hField) hFits
    · cases h
  · split at h
    · cases h
    · split at h
      · rename_i declared hLocal
        split at h
        · rename_i hFits
          cases h
          exact .replaces hLocal hFits
        · cases h
      · rename_i hFresh
        cases h
        exact .declares hFresh

/-- Statements whose expressions have types and whose targets fit them, each
under the locals that the ones before it declare. -/
inductive BodyTyped (role : MaterialRole) : Locals → List TypedStatement → Prop where
  | nil (locals : Locals) : BodyTyped role locals []
  | cons {locals : Locals} {s : TypedStatement} {rest : List TypedStatement} {type : ValueType}
      (hType : s.expr.infer (typeScope role locals) = .ok type)
      (hTarget : TargetTyped role locals type s.target)
      (hRest : BodyTyped role (s.target.declare locals) rest) : BodyTyped role locals (s :: rest)

/-- A statement passes the checks if it can be read, has a type and assigns its value. The
type is found under the locals of the statements before it. -/
theorem checkStatement_eq_ok {role : MaterialRole} {locals : Locals} {s : Statement}
    {typed : TypedStatement} (h : checkStatement role locals s = .ok typed) :
    ∃ type, typed.expr.infer (typeScope role locals) = .ok type ∧
      targetOf role locals s.target type = .ok typed.target := by
  unfold checkStatement at h
  split at h
  · cases h
  · split at h
    · cases h
    · rename_i type hType
      split at h
      · cases h
      · rename_i target hTarget
        cases h
        exact ⟨type, hType, hTarget⟩

/-- Statements that pass the checks, each under the locals of those before it, with what
they are checked to. -/
inductive BodyChecks (role : MaterialRole) :
    Locals → List Statement → List TypedStatement → Prop where
  | nil (locals : Locals) : BodyChecks role locals [] []
  | cons {locals : Locals} {s : Statement} {rest : List Statement} {typed : TypedStatement}
      {more : List TypedStatement} (hFirst : checkStatement role locals s = .ok typed)
      (hRest : BodyChecks role (typed.target.declare locals) rest more) :
      BodyChecks role locals (s :: rest) (typed :: more)

section bodies

variable {role : MaterialRole} {locals : Locals} {statements : List Statement}
  {body : List TypedStatement}

/-- A body that passes has a derivation, in which each statement is checked under the locals
of those before it. -/
theorem bodyChecks_of_checkBody (h : checkBody role locals statements = .ok body) :
    BodyChecks role locals statements body := by
  induction statements generalizing locals body with
  | nil =>
      cases h
      exact .nil locals
  | cons s rest ih =>
      rw [checkBody] at h
      split at h
      · cases h
      · rename_i typed hFirst
        split at h
        · cases h
        · rename_i more hMore
          cases h
          exact .cons hFirst (ih hMore)

theorem BodyChecks.checkBody (h : BodyChecks role locals statements body) :
    checkBody role locals statements = .ok body := by
  induction h with
  | nil => rfl
  | cons hFirst _ ih => simp only [Material.checkBody, hFirst, ih]

/-- Whatever passes the checks is typed. -/
theorem BodyChecks.typed (h : BodyChecks role locals statements body) :
    BodyTyped role locals body := by
  induction h with
  | nil locals => exact .nil locals
  | cons hFirst _ ih =>
      obtain ⟨type, hType, hTarget⟩ := checkStatement_eq_ok hFirst
      exact .cons hType (targetTyped_of_targetOf hTarget) ih

end bodies

namespace Program

/-- A program is built exactly from bodies that pass all checks. It has its name, index and
role from the definition, and the body as it was typed. -/
theorem build_eq_ok_iff {name : String} {index : Nat} {role : MaterialRole}
    {statements : List Statement} {p : Program} :
    build name index role statements = .ok p ↔
      ∃ body, BodyChecks role [] statements body ∧ p = ⟨name, index, role, body⟩ := by
  unfold build
  constructor
  · intro h
    cases hBody : checkBody role [] statements with
    | error e => simp [hBody, Except.map] at h
    | ok body =>
        rw [hBody] at h
        exact ⟨body, bodyChecks_of_checkBody hBody, (Except.ok.inj h).symm⟩
  · rintro ⟨body, hBody, rfl⟩
    rw [hBody.checkBody]
    rfl

theorem build_eq_ok {name : String} {index : Nat} {role : MaterialRole}
    {statements : List Statement} {p : Program} (h : build name index role statements = .ok p) :
    p.name = name ∧ p.index = index ∧ p.role = role ∧ BodyTyped role [] p.body := by
  obtain ⟨body, hBody, rfl⟩ := build_eq_ok_iff.mp h
  exact ⟨rfl, rfl, rfl, hBody.typed⟩

/-! ### Code -/

/-- The code of a statement that writes `value` to a target. -/
def targetCode (role : MaterialRole) (value : Shader.Expr × ValueType) : Target → Shader.Stmt
  | .field field => .assign (fieldCode role field) (Expression.splatTo field.type value)
  | .variable name type true =>
    .declare (localName name) type.shaderType (some (Expression.splatTo type value))
  | .variable name type false => .assign (.ident (localName name)) (Expression.splatTo type value)

theorem statementCode_of_lower {role : MaterialRole} {locals : Locals} {s : TypedStatement}
    {value : Shader.Expr × ValueType} (h : s.expr.lower (lowerScope role locals) = .ok value) :
    statementCode role locals s = .ok (targetCode role value s.target) := by
  obtain ⟨target, expr, line⟩ := s
  unfold statementCode
  rw [h]
  match target with
  | .field _ => rfl
  | .variable _ _ true => rfl
  | .variable _ _ false => rfl

/-- A typed expression of a body has code of its type. -/
theorem exists_lower_of_infer {role : MaterialRole} {locals : Locals} {e : Expression}
    {type : ValueType} (h : e.infer (typeScope role locals) = .ok type) :
    ∃ code, e.lower (lowerScope role locals) = .ok (code, type) := by
  have hLower := Expression.map_snd_lower (lowerScope role locals) e
  rw [show (lowerScope role locals).types = typeScope role locals from rfl, h] at hLower
  cases hResult : e.lower (lowerScope role locals) with
  | error d => simp [hResult, Except.map] at hLower
  | ok value =>
      rw [hResult] at hLower
      cases hLower
      exact ⟨value.1, rfl⟩

theorem statementCode_eq_ok {role : MaterialRole} {locals : Locals} {s : TypedStatement}
    {code : Shader.Stmt} (h : statementCode role locals s = .ok code) :
    ∃ value, s.expr.lower (lowerScope role locals) = .ok value ∧
      code = targetCode role value s.target := by
  cases hValue : s.expr.lower (lowerScope role locals) with
  | error d => simp [statementCode, hValue] at h
  | ok value =>
      rw [statementCode_of_lower hValue] at h
      exact ⟨value, rfl, (Except.ok.inj h).symm⟩

/-- The code of a body: for each statement one that writes its value to its target. -/
inductive BodyLowers (role : MaterialRole) :
    Locals → List TypedStatement → List Shader.Stmt → Prop where
  | nil (locals : Locals) : BodyLowers role locals [] []
  | cons {locals : Locals} {s : TypedStatement} {rest : List TypedStatement}
      {value : Shader.Expr × ValueType} {more : List Shader.Stmt}
      (hValue : s.expr.lower (lowerScope role locals) = .ok value)
      (hRest : BodyLowers role (s.target.declare locals) rest more) :
      BodyLowers role locals (s :: rest) (targetCode role value s.target :: more)

/-- The code of a body has a derivation, statement by statement. -/
theorem bodyLowers_of_bodyCode {role : MaterialRole} {locals : Locals}
    {body : List TypedStatement} {code : List Shader.Stmt}
    (h : bodyCode role locals body = .ok code) : BodyLowers role locals body code := by
  induction body generalizing locals code with
  | nil =>
      cases h
      exact .nil locals
  | cons s rest ih =>
      rw [bodyCode] at h
      split at h
      · cases h
      · rename_i first hFirst
        split at h
        · cases h
        · rename_i more hMore
          cases h
          obtain ⟨value, hValue, rfl⟩ := statementCode_eq_ok hFirst
          exact .cons hValue (ih hMore)

section bodies

variable {role : MaterialRole} {locals : Locals} {body : List TypedStatement}
  {code : List Shader.Stmt}

theorem BodyLowers.bodyCode (h : BodyLowers role locals body code) :
    bodyCode role locals body = .ok code := by
  induction h with
  | nil => rfl
  | cons hValue _ ih => simp only [Program.bodyCode, statementCode_of_lower hValue, ih]

/-- Every statement of the code writes the value of the statement that it stands for. -/
theorem BodyLowers.forall₂ (h : BodyLowers role locals body code) :
    List.Forall₂ (fun s c => ∃ value, c = targetCode role value s.target) body code := by
  induction h with
  | nil => exact .nil
  | cons _ _ ih => exact .cons ⟨_, rfl⟩ ih

theorem BodyLowers.exists_targetCode (h : BodyLowers role locals body code) {c : Shader.Stmt}
    (hc : c ∈ code) : ∃ value target, c = targetCode role value target := by
  induction h with
  | nil => cases hc
  | cons _ _ ih =>
      obtain rfl | hMore := List.mem_cons.mp hc
      · exact ⟨_, _, rfl⟩
      · exact ih hMore

/-- A typed body has code. -/
theorem exists_bodyLowers (h : BodyTyped role locals body) :
    ∃ code, BodyLowers role locals body code := by
  induction h with
  | nil locals => exact ⟨[], .nil locals⟩
  | cons hType _ _ ih =>
      obtain ⟨value, hValue⟩ := exists_lower_of_infer hType
      obtain ⟨code, hCode⟩ := ih
      exact ⟨_, .cons hValue hCode⟩

end bodies

/-- The function of a program has the code of its body between the first value of its
result and its end. -/
theorem function_eq_ok_iff {p : Program} {f : Shader.Function} :
    p.function = .ok f ↔ ∃ code, BodyLowers p.role [] p.body code ∧
      f = ⟨p.functionName, [inputParam], some (resultType p.role), .comment p.name ::
        .declare (resultName p.role) (resultType p.role) (some (initialCode p.role)) ::
          (code ++ [.return (some (.ident (resultName p.role)))])⟩ := by
  unfold function
  constructor
  · intro h
    split at h
    · cases h
    · rename_i code hCode
      exact ⟨code, bodyLowers_of_bodyCode hCode, (Except.ok.inj h).symm⟩
  · rintro ⟨code, hCode, rfl⟩
    rw [hCode.bodyCode]

end Program

end PathTracer.Material
