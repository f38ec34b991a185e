import PathTracer.Proofs.Material.Execution
import PathTracer.Proofs.Scene.Acceptance
import PathTracer.Proofs.Scene.Emission
import PathTracer.Proofs.Shader.Blocks

/-! Whatever is generated for a scene is well named, so that its program can be
read off the text wherever it is legible. -/
namespace PathTracer

open Expression (isNamePart)
open Shader (isName)

/-! ### Expressions -/

namespace Shader

/-- The word of a vector type is read as the type. -/
theorem ofWord?_floats (count : Nat) : Ty.ofWord? (Ty.floats count).word = some (Ty.floats count) := by
  unfold Ty.floats
  split <;> decide

/-- Vector types are written as the shader language has them. -/
theorem isProper_floats (count : Nat) : (Ty.floats count).isProper = true := by
  unfold Ty.floats
  split <;> rfl

namespace Expr

/-- Literal vectors have no names but that of their type. -/
theorem wellNamed_vector (components : List Float32) : (vector components).WellNamed := by
  unfold vector
  split
  · exact .float _
  · refine .construct (ofWord?_floats _) fun e he => ?_
    obtain ⟨x, _, rfl⟩ := List.mem_map.mp he
    exact .float x

end Expr

/-- Names made of a stem that no type and no keyword starts with. -/
theorem isName_append {stem name : String} (hStem : Material.isIdentifier stem = true)
    (hName : ∀ c ∈ name.toList, isNamePart c = true)
    (hOther : ∀ word ∈ ["f32", "vec2", "vec3", "vec4", "i32", "u32", "bool"] ++ keywords,
      ¬ stem.toList <+: word.toList) : isName (stem ++ name) = true := by
  have hNe {word : String}
      (h : word ∈ ["f32", "vec2", "vec3", "vec4", "i32", "u32", "bool"] ++ keywords) :
      stem ++ name ≠ word := by
    rintro rfl
    exact hOther _ h ⟨name.toList, by rw [String.toList_append]⟩
  rw [Shader.isName_iff]
  refine ⟨?_, ?_, fun h => hNe (List.mem_append_right _ h) rfl⟩
  · obtain ⟨c, rest, hList, hFirst, hRest⟩ := isIdentifier_iff.mp hStem
    refine isIdentifier_iff.mpr ⟨c, rest ++ name.toList, ?_, hFirst, fun d hd => ?_⟩
    · rw [String.toList_append, hList, List.cons_append]
    · exact (List.mem_append.mp hd).elim (hRest d) (hName d)
  · refine List.find?_eq_none.mpr fun type hType => ?_
    simp only [List.mem_cons, List.not_mem_nil, or_false] at hType
    obtain rfl | rfl | rfl | rfl | rfl | rfl | rfl := hType <;>
      simpa [Ty.word] using (hNe (by decide)).symm

end Shader

namespace Expression

/-- Builtins that are no constructions have names that the shader language can read. -/
theorem isName_of_ofName? {function : String} {f : Builtin} (h : Builtin.ofName? function = some f)
    (hOther : ∀ type, f ≠ .construct type) : isName function = true := by
  unfold Builtin.ofName? at h
  split at h
  all_goals first
    | decide
    | exact absurd (Option.some.inj h).symm (hOther _)
    | cases h

/-- Writing a scalar as a vector brings no name in but that of a type. -/
theorem wellNamed_splatTo {type : ValueType} {arg : Shader.Expr × ValueType}
    (h : arg.1.WellNamed) : (splatTo type arg).WellNamed := by
  unfold splatTo
  split
  · exact h
  · refine .construct (Shader.ofWord?_floats _) fun e he => ?_
    obtain rfl := List.mem_singleton.mp he
    exact h

/-- Calls of builtins are written with names the shader language can read. -/
theorem wellNamed_lowerCall {function : String} {f : Builtin} {type : ValueType}
    {args : List (Shader.Expr × ValueType)} {code : Shader.Expr}
    (hName : Builtin.ofName? function = some f) (hArgs : ∀ arg ∈ args, arg.1.WellNamed)
    (h : lowerCall function f type args = .ok code) : code.WellNamed := by
  have hPlain : ∀ e ∈ args.map Prod.fst, e.WellNamed := by
    intro e he
    obtain ⟨arg, hArg, rfl⟩ := List.mem_map.mp he
    exact hArgs arg hArg
  have hSplat : ∀ e ∈ args.map (splatTo type), e.WellNamed := by
    intro e he
    obtain ⟨arg, hArg, rfl⟩ := List.mem_map.mp he
    exact wellNamed_splatTo (hArgs arg hArg)
  cases f with
  | construct type =>
      cases h
      exact .construct (Shader.ofWord?_floats _) hPlain
  | mix =>
      unfold lowerCall at h
      dsimp only at h
      split at h
      · rename_i a b t more
        cases h
        simp only [List.forall_mem_cons] at hArgs
        obtain ⟨hFirst, hSecond, hThird, -⟩ := hArgs
        refine .call (by decide) fun e he => ?_
        simp only [List.mem_cons, List.not_mem_nil, or_false] at he
        obtain rfl | rfl | rfl := he
        · exact wellNamed_splatTo hFirst
        · exact wellNamed_splatTo hSecond
        · exact hThird
      · cases h
  | binary g | clamp | smoothstep =>
      cases h
      exact .call (isName_of_ofName? hName nofun) hSplat
  | unary g | length | normalize | dot | cross =>
      cases h
      exact .call (isName_of_ofName? hName nofun) hPlain

/-- The letters of a selection can stand in a name. -/
theorem isNamePart_letters (selection : List Component) :
    ∀ c ∈ (String.ofList (selection.map Component.letter)).toList, isNamePart c = true := by
  intro c hc
  rw [String.toList_ofList] at hc
  obtain ⟨component, -, rfl⟩ := List.mem_map.mp hc
  cases component <;> decide

mutual

/-- Code of an expression is well named if that of its variables is. -/
theorem Lowers.wellNamed {scope : LowerScope}
    (hScope : ∀ name type, scope.types name = some type → (scope.code name).WellNamed)
    {e : Expression} {code : Shader.Expr × ValueType} : Lowers scope e code → code.1.WellNamed
  | .const _ => Shader.Expr.wellNamed_vector _
  | .var hType => hScope _ _ hType
  | .neg hOperand => .neg (hOperand.wellNamed hScope)
  | .binary _ hLeft hRight _ => .binary _ (hLeft.wellNamed hScope) (hRight.wellNamed hScope)
  | .swizzle hBase _ => .field (hBase.wellNamed hScope) (isNamePart_letters _)
  | .call hName hArgs _ hCode => wellNamed_lowerCall hName (hArgs.wellNamed hScope) hCode

/-- The codes of arguments are well named where those of the variables are. -/
theorem LowersAll.wellNamed {scope : LowerScope}
    (hScope : ∀ name type, scope.types name = some type → (scope.code name).WellNamed)
    {args : List Expression} {lowered : List (Shader.Expr × ValueType)} :
    LowersAll scope args lowered → ∀ arg ∈ lowered, arg.1.WellNamed
  | .nil => nofun
  | .cons hFirst hRest =>
      List.forall_mem_cons.mpr ⟨hFirst.wellNamed hScope, hRest.wellNamed hScope⟩

end

end Expression

/-! ### Bodies -/

namespace Material.Program

open Shader (Stmt)

/-- The name of a local in the shader is no keyword and no type, whatever identifier it
comes from. -/
theorem isName_localName {name : String} (h : isIdentifier name = true) :
    isName (localName name) = true :=
  Shader.isName_append (by decide) (Shader.isNamePart_of_isIdentifier h) (by decide)

/-- The code that reads a name which a body can use is well named. -/
theorem wellNamed_codeOf {role : MaterialRole} {locals : Locals}
    (hLocals : ∀ entry ∈ locals, isIdentifier entry.1 = true) (name : String) (type : ValueType)
    (h : (lowerScope role locals).types name = some type) :
    ((lowerScope role locals).code name).WellNamed := by
  change (codeOf role locals name).WellNamed
  have hScope : typeScope role locals name = some type := h
  have hFields : ((systemVariables .environment).all fun v => v.field.toList.all isNamePart) =
      true := by
    decide
  unfold codeOf
  split
  · rename_i v hSystem hNone
    have hMem := List.mem_of_find?_eq_some (systemVariable?_environment hSystem)
    exact .field (.ident (by decide)) (List.all_eq_true.mp (List.all_eq_true.mp hFields v hMem))
  · rename_i hOther
    cases hLocal : locals.lookup name with
    | none =>
        rw [typeScope, hLocal, Option.orElse_none] at hScope
        obtain ⟨system, hSystem, -⟩ := Option.map_eq_some_iff.mp hScope
        exact absurd hLocal (hOther system hSystem)
    | some declared =>
        obtain ⟨before, after, hList, -⟩ := List.lookup_eq_some_iff.mp hLocal
        exact .ident (isName_localName (hLocals (name, declared) (by rw [hList]; simp)))

/-- Fields of the result can be assigned to, and are well named. -/
theorem wellNamed_fieldCode (role : MaterialRole) (field : Field) :
    (fieldCode role field).isTarget = true ∧ (fieldCode role field).WellNamed := by
  have hField : ∀ c ∈ field.shaderName.toList, isNamePart c = true := by
    cases field <;> exact List.all_eq_true.mp (by decide)
  cases role with
  | surface => exact ⟨rfl, .field (.ident (by decide)) hField⟩
  | environment => exact ⟨rfl, .ident (by decide)⟩

/-- Statements are well named where their values and targets are. -/
theorem wellNamed_targetCode {role : MaterialRole} {value : Shader.Expr × ValueType}
    {target : Target} (hValue : value.1.WellNamed) (hTarget : target.isNamed = true) :
    (targetCode role value target).WellNamed := by
  have hCode {type : ValueType} : (Expression.splatTo type value).WellNamed :=
    Expression.wellNamed_splatTo hValue
  match target with
  | .field field =>
      obtain ⟨hForm, hNamed⟩ := wellNamed_fieldCode role field
      exact .assign hForm hNamed hCode
  | .variable name type true =>
      refine .declare (isName_localName hTarget) (Shader.isProper_floats _) fun v hv => ?_
      obtain rfl := Option.some.inj hv
      exact hCode
  | .variable name type false =>
      exact .assign rfl (.ident (isName_localName hTarget)) hCode

/-- A statement declares a local only under an identifier. -/
theorem isIdentifier_declare {locals : Locals}
    (hLocals : ∀ entry ∈ locals, isIdentifier entry.1 = true) {target : Target}
    (hTarget : target.isNamed = true) :
    ∀ entry ∈ target.declare locals, isIdentifier entry.1 = true := by
  unfold Target.declare
  split
  · exact List.forall_mem_cons.mpr ⟨hTarget, hLocals⟩
  · exact hLocals

/-- The code of a body is well named, with the names of its locals taken along. -/
theorem BodyLowers.wellNamed {role : MaterialRole} {locals : Locals} {body : List TypedStatement}
    {code : List Stmt} (h : BodyLowers role locals body code)
    (hLocals : ∀ entry ∈ locals, isIdentifier entry.1 = true)
    (hBody : ∀ s ∈ body, s.target.isNamed = true) : ∀ s ∈ code, s.WellNamed := by
  induction h with
  | nil => nofun
  | @cons _ s _ _ _ hValue _ ih =>
      obtain ⟨hFirst, hRest⟩ := List.forall_mem_cons.mp hBody
      have hCode := (Expression.lowers_of_lower s.expr hValue).wellNamed (wellNamed_codeOf hLocals)
      exact List.forall_mem_cons.mpr ⟨wellNamed_targetCode hCode hFirst,
        ih (isIdentifier_declare hLocals hFirst) hRest⟩

/-- The function of a material has a name of its own, whatever the material is called. -/
theorem isName_functionName (p : Program) : isName p.functionName = true := by
  unfold functionName
  split
  · refine Shader.isName_append (by decide) (fun c hc => ?_) (by decide)
    rw [Shader.Expr.toList_toString] at hc
    exact Shader.isNamePart_of_isDigit (Decimal.isDigit_of_mem_digitsOf hc)
  · decide

/-- The function of a built program is well named. -/
theorem Built.wellNamed_function {role : MaterialRole} {p : Program} (h : p.Built role)
    {f : Shader.Function} (hFunction : p.function = .ok f) : f.WellNamed := by
  obtain ⟨code, hCode, rfl⟩ := function_eq_ok_iff.mp hFunction
  have hResult : isName (resultName p.role) = true := by
    cases p.role <;> decide
  have hType : (resultType p.role).isProper = true := by
    cases p.role <;> decide
  have hInitial : (initialCode p.role).WellNamed := by
    cases p.role with
    | surface => exact .call (by decide) nofun
    | environment =>
        exact .field (.field (.ident (by decide)) (List.all_eq_true.mp (by decide)))
          (List.all_eq_true.mp (by decide))
  have hLocals : ∀ entry ∈ ([] : Locals), isIdentifier entry.1 = true := by simp
  have hBody := hCode.wellNamed hLocals h.named
  refine ⟨p.isName_functionName, ?_, ?_, ?_⟩
  · intro q hq
    obtain rfl := List.mem_singleton.mp hq
    decide
  · rintro type hSome
    obtain rfl := Option.some.inj hSome
    exact hType
  · refine List.forall_mem_cons.mpr ⟨.comment _, List.forall_mem_cons.mpr ⟨?_, fun s hs => ?_⟩⟩
    · refine .declare hResult hType fun v hv => ?_
      obtain rfl := Option.some.inj hv
      exact hInitial
    · obtain hs | hs := List.mem_append.mp hs
      · exact hBody s hs
      · obtain rfl := List.mem_singleton.mp hs
        refine .return fun v hv => ?_
        obtain rfl := Option.some.inj hv
        exact .ident hResult

end Material.Program

/-! ### Programs -/

namespace Shader

/-- A chain is well named if its conditions and its bodies are. -/
theorem Stmt.wellNamed_chain {arms : List (Expr × List Stmt)}
    (h : ∀ arm ∈ arms, arm.1.WellNamed ∧ ∀ s ∈ arm.2, s.WellNamed) :
    ∀ s ∈ chain arms, s.WellNamed := by
  induction arms with
  | nil => nofun
  | cons arm rest ih =>
      obtain ⟨condition, body⟩ := arm
      obtain ⟨⟨hCondition, hBody⟩, hRest⟩ := List.forall_mem_cons.mp h
      intro s hs
      obtain rfl := List.mem_singleton.mp hs
      exact .branch hCondition hBody (ih hRest)

/-- Returning a value brings no name in. -/
theorem Stmt.wellNamed_return {value : Expr} (h : value.WellNamed) :
    (Stmt.return (some value)).WellNamed :=
  .return fun _ hv => Option.some.inj hv ▸ h

/-- The cascade of materials is well named for any materials. -/
theorem wellNamed_dispatchFunction (materials : List Material.Program) :
    (dispatchFunction materials).WellNamed where
  name := by
    change isName "resolve_material" = true
    decide
  params := by
    change ∀ q ∈ [Param.mk "id" .i32, Material.Program.inputParam], _
    decide
  result type hType := by
    obtain rfl := Option.some.inj hType
    decide
  body := by
    refine List.forall_mem_append.mpr ⟨Stmt.wellNamed_chain fun arm hArm => ?_, ?_⟩
    · obtain ⟨m, -, rfl⟩ := List.mem_map.mp hArm
      refine ⟨.binary _ (.ident (by decide)) (.int _), List.forall_mem_singleton.mpr ?_⟩
      exact Stmt.wellNamed_return (.call m.isName_functionName
        (List.forall_mem_singleton.mpr (.ident (by decide))))
    · exact List.forall_mem_singleton.mpr (Stmt.wellNamed_return (.call (by decide) nofun))

/-- The environment of a graph without one is well named. -/
theorem wellNamed_defaultEnvironment : defaultEnvironment.WellNamed where
  name := by decide
  params := by decide
  result type hType := by
    obtain rfl := Option.some.inj hType
    decide
  body := List.forall_mem_singleton.mpr <| Stmt.wellNamed_return <|
    .field (.field (.ident (by decide)) (List.all_eq_true.mp (by decide)))
      (List.all_eq_true.mp (by decide))

/-- The scene function is well named if its statements are. -/
theorem wellNamed_sceneFunction {statements : List Stmt} (h : ∀ s ∈ statements, s.WellNamed) :
    (sceneFunction statements).WellNamed where
  name := by
    change isName "scene_hit" = true
    decide
  params := by
    change ∀ q ∈ [Param.mk "ro" .vec3, Param.mk "rd" .vec3], _
    decide
  result type hType := by
    obtain rfl := Option.some.inj hType
    decide
  body := by
    refine List.forall_mem_cons.mpr ⟨?_, List.forall_mem_append.mpr ⟨h, ?_⟩⟩
    · refine .declare (by decide) (by decide) fun v hv => ?_
      obtain rfl := Option.some.inj hv
      exact .call (by decide) nofun
    · exact List.forall_mem_singleton.mpr (Stmt.wellNamed_return (.ident (by decide)))

/-- The functions of materials, one each. -/
theorem materialFunctions_eq_ok {materials : List Material.Program} {functions : List Function} :
    materialFunctions materials = .ok functions ↔
      List.Forall₂ (fun m f => m.function = .ok f) materials functions := by
  induction materials generalizing functions with
  | nil => simp [materialFunctions, eq_comm]
  | cons m rest ih =>
      rw [materialFunctions, List.forall₂_cons_left_iff]
      cases hFunction : m.function with
      | error e => simp
      | ok f =>
          cases hMore : materialFunctions rest with
          | error e =>
              have hNone (more : List Function) :
                  ¬ List.Forall₂ (fun m f => m.function = .ok f) rest more := by
                rw [← ih, hMore]
                intro hSame
                cases hSame
              simp [hNone]
          | ok more =>
              have hOnly (others : List Function) :
                  List.Forall₂ (fun m f => m.function = .ok f) rest others ↔ more = others := by
                rw [← ih, hMore, Except.ok.injEq]
              simp only [Except.ok.injEq, hOnly]
              constructor
              · rintro rfl
                exact ⟨f, more, rfl, rfl, rfl⟩
              · rintro ⟨_, _, rfl, rfl, rfl⟩
                rfl

/-- What a generated program is made of. The functions come in this order: the materials,
the cascade, the environment and the scene. -/
theorem Program.generate_eq_ok {materials : List Material.Program}
    {environment : Option Material.Program} {scene : List Stmt} {p : Program} :
    generate materials environment scene = .ok p ↔
      ∃ surfaces env, List.Forall₂ (fun m f => m.function = .ok f) materials surfaces ∧
        environment.elim (.ok defaultEnvironment) Material.Program.function = .ok env ∧
        p.functions = surfaces ++ [dispatchFunction materials, env, sceneFunction scene] := by
  obtain ⟨functions⟩ := p
  simp only [← materialFunctions_eq_ok]
  rw [generate, generatedFunctions]
  cases materialFunctions materials with
  | error e => simp [Except.map]
  | ok surfaces =>
      cases environment.elim (.ok defaultEnvironment) Material.Program.function with
      | error e => simp [Except.map]
      | ok env => simp [Except.map, eq_comm]

/-- Generated programs are well named. No premise on the names of materials is needed, since
their functions have names of their own. -/
theorem Program.wellNamed_generate {materials : List Material.Program}
    {environment : Option Material.Program} {scene : List Stmt} {p : Program}
    (hMaterials : ∀ m ∈ materials, m.Built .surface)
    (hEnvironment : ∀ e, environment = some e → e.Built .environment)
    (hScene : ∀ s ∈ scene, s.WellNamed) (h : generate materials environment scene = .ok p) :
    p.WellNamed := by
  obtain ⟨surfaces, env, hSurfaces, hEnv, hFunctions⟩ := generate_eq_ok.mp h
  refine ⟨?_⟩
  rw [hFunctions]
  refine List.forall_mem_append.mpr ⟨?_, ?_⟩
  · clear hFunctions h
    induction hSurfaces with
    | nil => nofun
    | cons hFunction _ ih =>
        obtain ⟨hFirst, hRest⟩ := List.forall_mem_cons.mp hMaterials
        exact List.forall_mem_cons.mpr ⟨hFirst.wellNamed_function hFunction, ih hRest⟩
  · have hEnvNamed : env.WellNamed := by
      cases environment with
      | none =>
          cases hEnv
          exact wellNamed_defaultEnvironment
      | some e => exact (hEnvironment e rfl).wellNamed_function hEnv
    simp only [List.forall_mem_cons]
    exact ⟨wellNamed_dispatchFunction materials, hEnvNamed, wellNamed_sceneFunction hScene, nofun⟩

end Shader

/-! ### Scenes -/

/-- Shapes are placed by well named statements. -/
theorem Shape.wellNamed_statement (s : Shape) : s.statement.WellNamed := by
  have hNames : isName "ro" = true ∧ isName "rd" = true ∧ isName "hit" = true := by decide
  obtain ⟨hOrigin, hDirection, hHit⟩ := hNames
  cases s with
  | primitive p =>
      have hFunction : isName (Node.primitiveFunction p.kind) = true := by
        cases p.kind <;> decide
      refine .assign rfl (.ident hHit) (.call hFunction ?_)
      simp only [List.cons_append, List.nil_append, List.forall_mem_cons]
      exact ⟨.ident hOrigin, .ident hDirection, .uint _, .uint _, .int _, .ident hHit, nofun⟩
  | lamp l =>
      refine .assign rfl (.ident hHit) (.call (by decide) ?_)
      simp only [List.cons_append, List.nil_append, List.forall_mem_cons]
      exact ⟨.ident hOrigin, .ident hDirection, .uint _, .int _, .ident hHit, nofun⟩

/-- Statements that place shapes are well named. -/
theorem Places.wellNamed {statements : List Shader.Stmt} {order : List Shape}
    (h : Places statements order) : ∀ s ∈ statements, s.WellNamed := by
  induction h with
  | nil => nofun
  | comment text _ ih => exact List.forall_mem_cons.mpr ⟨.comment text, ih⟩
  | shape s _ ih => exact List.forall_mem_cons.mpr ⟨s.wellNamed_statement, ih⟩

/-- A scene whose program was generated for its materials and its environment. -/
structure Scene.Generated (s : Scene) (statements : List Shader.Stmt) : Prop where
  materials : ∀ m ∈ s.materials, m.Built .surface
  environment : ∀ e, s.environment = some e → e.Built .environment
  named : ∀ statement ∈ statements, statement.WellNamed
  program : Shader.Program.generate s.materials s.environment statements = .ok s.program

/-- A graph that compiles has a program that was generated for its materials and the
statements of its walk. -/
theorem SceneGraph.generated_of_compileAt {g : SceneGraph} {time : Float32} {s : Scene}
    (h : g.compileAt time = .ok s) : ∃ statements, s.Generated statements := by
  obtain ⟨render, definitions, node, hRender, hDefinitions, hEnvironment⟩ := compileAt_parts h
  obtain ⟨programs, environment, hPrograms, hProgram, hCompile⟩ :=
    compileAt_walk hRender hDefinitions hEnvironment
  rw [hCompile time, Context.finish_eq_ok] at h
  obtain ⟨_, _, options, program, _, hGenerate, rfl⟩ := h
  have hStart : { (Context.start time).registerAll definitions with
      errors := bodyFaults definitions node }.entities = .empty := by
    rw [Context.registerAll_eq]
    rfl
  obtain ⟨order, hPlaces, -⟩ := render.compile_places hStart
  exact ⟨_, hPrograms, hProgram, hPlaces.wellNamed, hGenerate⟩

/-- Generated programs are well named. So every program can be read, as long as its numbers
can. -/
theorem Scene.Generated.wellNamed {s : Scene} {statements : List Shader.Stmt}
    (h : s.Generated statements) : s.program.WellNamed :=
  Shader.Program.wellNamed_generate h.materials h.environment h.named h.program

end PathTracer
