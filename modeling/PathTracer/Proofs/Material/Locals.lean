import PathTracer.Proofs.Expression.Identifiers
import PathTracer.Proofs.Scene.Building
import PathTracer.Proofs.Shader.Generation

/-! The locals of a body. A local keeps the type of its declaration, its name is an
expression that reads it in all later statements, and in the shader it has a name that no
other variable of the function has. -/
namespace PathTracer.Material

/-- The locals after the statements of a body. -/
def localsAfter : Locals → List TypedStatement → Locals
  | locals, [] => locals
  | locals, s :: rest => localsAfter (s.target.declare locals) rest

variable {role : MaterialRole} {locals : Locals} {body : List TypedStatement} {name : String}
  {type : ValueType}

/-! ### Types of locals -/

/-- A local has its type right after it is assigned. -/
theorem TargetTyped.lookup_self {actual : ValueType} {declares : Bool}
    (h : TargetTyped role locals actual (.variable name type declares)) :
    ((Target.variable name type declares).declare locals).lookup name = some type := by
  cases h with
  | replaces hLocal _ => exact hLocal
  | declares _ => exact List.lookup_cons_self

/-- No statement changes the type of a local. -/
theorem TargetTyped.lookup_of_local {actual : ValueType} {target : Target}
    (h : TargetTyped role locals actual target) (hLocal : locals.lookup name = some type) :
    (target.declare locals).lookup name = some type := by
  cases h with
  | field => exact hLocal
  | replaces => exact hLocal
  | @declares other hFresh =>
      have hOther : name ≠ other := by
        rintro rfl
        rw [hLocal] at hFresh
        cases hFresh
      rw [Target.declare, Shader.lookup_cons_ite, if_neg hOther, hLocal]

theorem BodyTyped.lookup_of_local (h : BodyTyped role locals body)
    (hLocal : locals.lookup name = some type) :
    (localsAfter locals body).lookup name = some type := by
  induction h with
  | nil => exact hLocal
  | cons _ hTarget _ ih => exact ih (hTarget.lookup_of_local hLocal)

/-- Whatever a body assigns has its type at the end. -/
theorem BodyTyped.lookup_localsAfter (h : BodyTyped role locals body) {s : TypedStatement}
    (hs : s ∈ body) {declares : Bool} (hTarget : s.target = .variable name type declares) :
    (localsAfter locals body).lookup name = some type := by
  induction h with
  | nil => cases hs
  | cons _ hFirst hRest ih =>
      obtain rfl | hs := List.mem_cons.mp hs
      · rw [hTarget] at hFirst
        have hLocal := hFirst.lookup_self
        rw [← hTarget] at hLocal
        exact hRest.lookup_of_local hLocal
      · exact ih hs

theorem BodyTyped.of_append {later : List TypedStatement}
    (h : BodyTyped role locals (body ++ later)) : BodyTyped role locals body := by
  induction body generalizing locals with
  | nil => exact .nil locals
  | cons s rest ih =>
      obtain _ | ⟨hType, hTarget, hRest⟩ := h
      exact .cons hType hTarget (ih hRest)

/-- A local is declared by the body, unless it has been there before. -/
theorem exists_declaration (h : (localsAfter locals body).lookup name = some type) :
    locals.lookup name = some type ∨ ∃ s ∈ body, s.target = .variable name type true := by
  induction body generalizing locals with
  | nil => exact .inl h
  | cons s rest ih =>
      obtain hLocal | ⟨first, hFirst, hTarget⟩ := ih h
      · unfold Target.declare at hLocal
        split at hLocal
        · rename_i other otherType hDeclares
          rw [Shader.lookup_cons_ite] at hLocal
          split at hLocal
          · rename_i hSame
            cases hLocal
            exact .inr ⟨s, List.mem_cons_self, hSame ▸ hDeclares⟩
          · exact .inl hLocal
        · exact .inl hLocal
      · exact .inr ⟨first, List.mem_cons_of_mem s hFirst, hTarget⟩

/-! ### Statements after others -/

/-- The checks go on under the locals of the statements that have passed. This is how a
statement is tried in a place of its own. -/
theorem BodyChecks.append {statements : List Statement}
    (h : BodyChecks role locals statements body) (rest : List Statement) :
    Material.checkBody role locals (statements ++ rest) =
      (Material.checkBody role (localsAfter locals body) rest).map (body ++ ·) := by
  induction h with
  | nil locals =>
      rw [List.nil_append, localsAfter]
      cases Material.checkBody role locals rest <;> rfl
  | @cons locals s _ typed more hFirst _ ih =>
      rw [List.cons_append, Material.checkBody, localsAfter]
      simp only [hFirst, ih]
      cases Material.checkBody role (localsAfter (typed.target.declare locals) more) rest <;> rfl

/-- The first statements of an accepted list are accepted on their own. -/
theorem BodyChecks.take {statements : List Statement} {later : List TypedStatement}
    (h : BodyChecks role locals statements (body ++ later)) :
    BodyChecks role locals (statements.take body.length) body := by
  induction body generalizing locals statements with
  | nil => exact .nil locals
  | cons typed more ih =>
      cases h with
      | cons hFirst hRest => exact .cons hFirst (ih hRest)

end PathTracer.Material

namespace PathTracer.Shader

/-- The variable that a statement declares or assigns as a whole. -/
def Stmt.written? : Stmt → Option String
  | .declare name _ _ => some name
  | .assign (.ident name) _ => some name
  | _ => none

end PathTracer.Shader

namespace PathTracer.Material.Program

variable {role : MaterialRole}

theorem written?_targetCode (value : Shader.Expr × ValueType) (name : String) (type : ValueType)
    (declares : Bool) : (targetCode role value (.variable name type declares)).written? =
      some (localName name) := by
  cases declares <;> rfl

/-- A local after statements that assign it: where its type is from, and what its name is
as an expression there. -/
structure Readable (role : MaterialRole) (earlier : List TypedStatement) (name : String)
    (type : ValueType) : Prop where
  declared : ∃ s ∈ earlier, s.target = .variable name type true
  parses : Expression.parse name = .ok (.var name)
  infers : (Expression.var name).infer (typeScope role (localsAfter [] earlier)) = .ok type
  lowers : (Expression.var name).lower (lowerScope role (localsAfter [] earlier)) =
    .ok (.ident (localName name), type)
  named : Shader.isName (localName name) = true

/-- A local can be read by all statements behind the one that assigns it, also by such that
assign it again. -/
theorem Built.readable {p : Program} (h : p.Built role) {earlier later : List TypedStatement}
    (hBody : p.body = earlier ++ later) {s : TypedStatement} (hs : s ∈ earlier) {name : String}
    {type : ValueType} {declares : Bool} (hTarget : s.target = .variable name type declares) :
    Readable role earlier name type := by
  have hTyped : BodyTyped role [] earlier := .of_append (hBody ▸ h.typed)
  have hLocal := hTyped.lookup_localsAfter hs hTarget
  have hName : isIdentifier name = true := by
    have hNamed := h.named s (hBody ▸ List.mem_append_left later hs)
    rwa [hTarget] at hNamed
  have hScope : typeScope role (localsAfter [] earlier) name = some type := by
    rw [typeScope, hLocal, Option.orElse_some]
  have hCode : codeOf role (localsAfter [] earlier) name = .ident (localName name) := by
    unfold codeOf
    rw [hLocal]
    cases systemVariable? role name <;> rfl
  have hTypes : (lowerScope role (localsAfter [] earlier)).types name = some type := hScope
  constructor
  · exact (exists_declaration hLocal).resolve_left (by simp)
  · exact Expression.parse_identifier hName
  · rw [Expression.infer, hScope]
  · rw [Expression.lower, hTypes, ← hCode]
    rfl
  · exact isName_localName hName

/-- The name of a local as a further statement is judged by its target alone. -/
theorem build_read {title : String} {index : Nat} {statements : List Statement} {p : Program}
    (h : build title index role statements = .ok p) {earlier later : List TypedStatement}
    (hBody : p.body = earlier ++ later) {name : String} {type : ValueType}
    (hRead : Readable role earlier name type) (target : String) (line : Nat) :
    build title index role (statements.take earlier.length ++ [⟨target, name, line⟩]) =
      match targetOf role (localsAfter [] earlier) target type with
      | .error d => .error ⟨d, line⟩
      | .ok next => .ok { p with body := earlier ++ [⟨next, .var name, line⟩] } := by
  obtain ⟨body, hChecks, rfl⟩ := build_eq_ok_iff.mp h
  obtain rfl : body = earlier ++ later := hBody
  rw [build, hChecks.take.append, checkBody, checkStatement]
  simp only [hRead.parses, hRead.infers]
  cases targetOf role (localsAfter [] earlier) target type <;> rfl

/-- The texts that are read as the variable of their own name are the names that a local can
have. Whatever a body assigns can be read by its name in all later statements, with the type
that it is declared with, and the shader knows it by a name that no other local, no input
and no result has. Reading a local back is tried in the body itself: a further statement
with its name passes the checks wherever one with its type does, and fails for the same
reason otherwise. -/
theorem locals_can_be_read :
    (∀ name, Expression.parse name = .ok (.var name) ↔ isIdentifier name = true) ∧
    (∀ a b, a ≠ b →
      (Shader.Expr.ident (localName a)).text ≠ (Shader.Expr.ident (localName b)).text) ∧
    (∀ name, (Shader.Expr.ident (localName name)).text ∉ ["inp", "m", "color"]) ∧
    ∀ {title index role statements p}, build title index role statements = .ok p →
      (∃ f code, p.function = .ok f ∧
        f.body = .comment title :: .declare (resultName role) (resultType role)
          (some (initialCode role)) :: (code ++ [.return (some (.ident (resultName role)))]) ∧
        List.Forall₂ (fun s c => ∀ name type declares, s.target = .variable name type declares →
          c.written? = some (localName name)) p.body code) ∧
      ∀ earlier later, p.body = earlier ++ later → ∀ s ∈ earlier, ∀ name type declares,
        s.target = .variable name type declares → Readable role earlier name type ∧
          ∀ target line, build title index role
              (statements.take earlier.length ++ [⟨target, name, line⟩]) =
            match targetOf role (localsAfter [] earlier) target type with
            | .error d => .error ⟨d, line⟩
            | .ok next => .ok { p with body := earlier ++ [⟨next, .var name, line⟩] } := by
  refine ⟨fun name => Expression.parse_eq_var_iff, fun a b hOther hSame => ?_, fun name => ?_, ?_⟩
  · exact hOther (localName_injective hSame)
  · have hInput := localName_ne_inp name
    have hSurface := localName_ne_resultName name .surface
    have hColor := localName_ne_resultName name .environment
    simp only [List.mem_cons, List.not_mem_nil, or_false, not_or]
    exact ⟨hInput, hSurface, hColor⟩
  · intro title index role statements p h
    have hBuilt := built_of_build h
    obtain ⟨body, -, rfl⟩ := build_eq_ok_iff.mp h
    constructor
    · obtain ⟨code, hCode⟩ := exists_bodyLowers hBuilt.typed
      refine ⟨_, code, by rw [function, hCode.bodyCode], rfl, ?_⟩
      refine hCode.forall₂.imp ?_
      rintro s c ⟨value, rfl⟩ name type declares hTarget
      rw [hTarget, written?_targetCode]
    · intro earlier later hBody s hs name type declares hTarget
      have hRead := hBuilt.readable hBody hs hTarget
      exact ⟨hRead, build_read h hBody hRead⟩

set_option maxRecDepth 4000 in
/-- Locals that are called like the input and the result of the shader function. The first
keeps two components when a number is assigned to it, too few for a color. -/
theorem locals_can_be_read_inp :
    ∃ p, build "Glaze" 0 .surface
        [⟨"inp", "uv", 1⟩, ⟨"m", "normal", 2⟩, ⟨"inp", "hash", 3⟩] = .ok p ∧
      Readable .surface p.body "inp" .float2 ∧ Readable .surface p.body "m" .float3 ∧
      (Shader.Expr.ident (localName "inp")).text ≠ (Shader.Expr.ident (localName "m")).text ∧
      build "Glaze" 0 .surface [⟨"inp", "uv", 1⟩, ⟨"m", "normal", 2⟩, ⟨"inp", "hash", 3⟩,
        ⟨"Albedo", "inp", 4⟩] = .error ⟨.typeMismatch "Float3" "Float2", 4⟩ := by
  obtain ⟨hNames, hApart, -, hBodies⟩ := locals_can_be_read
  have hUv : Expression.parse "uv" = .ok (.var "uv") := (hNames "uv").mpr (by decide)
  have hNormal : Expression.parse "normal" = .ok (.var "normal") :=
    (hNames "normal").mpr (by decide)
  have hHash : Expression.parse "hash" = .ok (.var "hash") := (hNames "hash").mpr (by decide)
  have hBuild : build "Glaze" 0 .surface
      [⟨"inp", "uv", 1⟩, ⟨"m", "normal", 2⟩, ⟨"inp", "hash", 3⟩] =
      .ok ⟨"Glaze", 0, .surface, [⟨.variable "inp" .float2 true, .var "uv", 1⟩,
        ⟨.variable "m" .float3 true, .var "normal", 2⟩,
        ⟨.variable "inp" .float2 false, .var "hash", 3⟩]⟩ := by
    simp only [build, checkBody, checkStatement, hUv, hNormal, hHash]
    rfl
  obtain ⟨-, hReads⟩ := hBodies hBuild
  have hAll := hReads _ [] (List.append_nil _).symm
  obtain ⟨hInp, hNext⟩ := hAll ⟨.variable "inp" .float2 true, .var "uv", 1⟩ (by simp)
    "inp" .float2 true rfl
  obtain ⟨hM, -⟩ := hAll ⟨.variable "m" .float3 true, .var "normal", 2⟩ (by simp)
    "m" .float3 true rfl
  exact ⟨_, hBuild, hInp, hM, hApart "inp" "m" (by decide), (hNext "Albedo" 4).trans rfl⟩

end PathTracer.Material.Program
