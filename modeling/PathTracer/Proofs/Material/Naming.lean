import PathTracer.Proofs.Material.Checking
import PathTracer.Proofs.Scene.Renaming
import PathTracer.Proofs.Shader.Commenting
import PathTracer.Proofs.Shader.Generation

/-! What becomes of the name and the lines of a material in the code that is
generated for it: the name is a comment, and lines are in faults alone. -/
namespace PathTracer

/-- A fault wherever it is. -/
def CompileError.unplaced (e : CompileError) : CompileError :=
  { e with line := 0 }

namespace Material

/-- A checked statement wherever it stands. -/
def TypedStatement.unplaced (s : TypedStatement) : TypedStatement :=
  { s with line := 0 }

/-! ### Bodies -/

/-- Checking a statement does not read its line. Only the faults of a body are told with
lines. -/
theorem checkStatement_unplaced (role : MaterialRole) (locals : Locals) (s : Statement) :
    checkStatement role locals s.unplaced =
      (checkStatement role locals s).map TypedStatement.unplaced := by
  unfold checkStatement Statement.unplaced
  dsimp only
  cases Expression.parse s.source with
  | error e => rfl
  | ok expr =>
      dsimp only
      cases expr.infer (typeScope role locals) with
      | error d => rfl
      | ok type =>
          dsimp only
          cases targetOf role locals s.target type with
          | error d => rfl
          | ok target => rfl

/-- Checks read the lines of statements for faults alone. -/
theorem checkBody_unplaced (role : MaterialRole) (locals : Locals) (statements : List Statement) :
    checkBody role locals (statements.map Statement.unplaced) =
      match checkBody role locals statements with
      | .error e => .error e.unplaced
      | .ok body => .ok (body.map TypedStatement.unplaced) := by
  induction statements generalizing locals with
  | nil => rfl
  | cons s rest ih =>
      rw [List.map_cons, checkBody, checkBody, checkStatement_unplaced]
      cases checkStatement role locals s with
      | error d => rfl
      | ok typed =>
          simp only [Except.map]
          rw [show typed.unplaced.target = typed.target from rfl, ih]
          cases checkBody role (typed.target.declare locals) rest with
          | error e => rfl
          | ok more => rfl

/-- Bodies that differ in lines alone are checked to bodies that do so. -/
theorem checkBody_congr {role : MaterialRole} {locals : Locals} {statements statements' : List Statement}
    {body body' : List TypedStatement}
    (h : statements'.map Statement.unplaced = statements.map Statement.unplaced)
    (hBody : checkBody role locals statements = .ok body)
    (hBody' : checkBody role locals statements' = .ok body') :
    body'.map TypedStatement.unplaced = body.map TypedStatement.unplaced := by
  have hSame := checkBody_unplaced role locals statements'
  rw [h, checkBody_unplaced, hBody, hBody'] at hSame
  exact (Except.ok.inj hSame).symm

namespace Program

/-- The code of a body does not tell the lines of its statements. -/
theorem BodyLowers.of_unplaced {role : MaterialRole} {locals : Locals}
    {body body' : List TypedStatement} {code : List Shader.Stmt}
    (hCode : BodyLowers role locals body code)
    (h : body'.map TypedStatement.unplaced = body.map TypedStatement.unplaced) :
    BodyLowers role locals body' code := by
  induction hCode generalizing body' with
  | nil locals =>
      cases List.map_eq_nil_iff.mp h
      exact .nil locals
  | cons hValue _ ih =>
      obtain ⟨⟨_, _, _⟩, rest', rfl, hFirst, hRest⟩ := List.map_eq_cons_iff.mp h
      cases hFirst
      exact .cons hValue (ih hRest)

theorem isComment_targetCode (role : MaterialRole) (value : Shader.Expr × ValueType)
    (target : Target) : (targetCode role value target).isComment = false := by
  match target with
  | .field _ => rfl
  | .variable _ _ true => rfl
  | .variable _ _ false => rfl

/-! ### Programs -/

/-- Programs of one body, whose names a comment may tell. -/
structure Relabelled (allows : String → String → Prop) (p p' : Program) : Prop where
  label : allows p.name p'.name
  index : p'.index = p.index
  role : p'.role = p.role
  body : p'.body.map TypedStatement.unplaced = p.body.map TypedStatement.unplaced

variable {allows : String → String → Prop} {p p' : Program}

/-- Programs are built from bodies that differ in lines alone, under other names. -/
theorem relabelled_of_build {name name' : String} {index : Nat} {role : MaterialRole}
    {statements statements' : List Statement} (hLabel : allows name name')
    (h : statements'.map Statement.unplaced = statements.map Statement.unplaced)
    (hBuild : build name index role statements = .ok p)
    (hBuild' : build name' index role statements' = .ok p') : p.Relabelled allows p' := by
  obtain ⟨body, hBody, rfl⟩ := build_eq_ok_iff.mp hBuild
  obtain ⟨body', hBody', rfl⟩ := build_eq_ok_iff.mp hBuild'
  exact ⟨hLabel, rfl, rfl, checkBody_congr h hBody.checkBody hBody'.checkBody⟩

theorem Relabelled.functionName (h : p.Relabelled allows p') : p'.functionName = p.functionName := by
  rw [Program.functionName, Program.functionName, h.role, h.index]

theorem Relabelled.shaderIndex (h : p.Relabelled allows p') : p'.shaderIndex = p.shaderIndex := by
  unfold Program.shaderIndex
  rw [h.index]

/-- The function of a program tells its name in a comment only. -/
theorem Relabelled.function (h : p.Relabelled allows p') {f f' : Shader.Function}
    (hFunction : p.function = .ok f) (hFunction' : p'.function = .ok f') :
    f.Relabelled allows f' := by
  obtain ⟨code, hCode, rfl⟩ := function_eq_ok_iff.mp hFunction
  obtain ⟨code', hCode', rfl⟩ := function_eq_ok_iff.mp hFunction'
  have hOther := hCode.of_unplaced h.body
  rw [h.role] at hCode' ⊢
  obtain rfl := Except.ok.inj (hOther.bodyCode.symm.trans hCode'.bodyCode)
  refine ⟨h.functionName, rfl, rfl, .cons (.comment h.label) (.cons (.code rfl) ?_)⟩
  refine List.rel_append (List.forall₂_same.mpr fun s hs => ?_) (.cons (.code rfl) .nil)
  obtain ⟨value, target, rfl⟩ := hCode.exists_targetCode hs
  exact .code (isComment_targetCode p.role value target)

end Program

end Material

/-! ### Shader programs -/

namespace Shader

variable {allows : String → String → Prop}

/-- A function without comments stays as it is. -/
theorem Function.relabelled_self {f : Function} (h : ∀ s ∈ f.body, s.isComment = false) :
    f.Relabelled allows f :=
  ⟨rfl, rfl, rfl, List.forall₂_same.mpr fun s hs => .code (h s hs)⟩

theorem isComment_of_mem_chain {arms : List (Expr × List Stmt)} :
    ∀ s ∈ Stmt.chain arms, s.isComment = false := by
  cases arms with
  | nil => nofun
  | cons arm rest =>
      intro s hs
      rw [Stmt.chain, List.mem_singleton] at hs
      rw [hs]
      rfl

variable {materials materials' : List Material.Program}

/-- The dispatch calls functions by their indices. -/
theorem dispatchFunction_congr
    (h : List.Forall₂ (Material.Program.Relabelled allows) materials materials') :
    dispatchFunction materials' = dispatchFunction materials := by
  unfold dispatchFunction
  refine congrArg (fun arms => Function.mk _ _ _ (Stmt.chain arms ++ _)) ?_
  induction h with
  | nil => rfl
  | cons hFirst _ ih =>
      rw [List.map_cons, List.map_cons, ih, hFirst.shaderIndex, hFirst.functionName]

theorem dispatchFunction_relabelled
    (h : List.Forall₂ (Material.Program.Relabelled allows) materials materials') :
    (dispatchFunction materials).Relabelled allows (dispatchFunction materials') := by
  rw [dispatchFunction_congr h]
  apply Function.relabelled_self
  intro s hs
  obtain hArm | hLast := List.mem_append.mp hs
  · exact isComment_of_mem_chain s hArm
  · rw [List.mem_singleton.mp hLast]
    rfl

theorem sceneFunction_relabelled {statements statements' : List Stmt}
    (h : List.Forall₂ (Stmt.Relabelled allows) statements statements') :
    (sceneFunction statements).Relabelled allows (sceneFunction statements') :=
  ⟨rfl, rfl, rfl, .cons (.code rfl) (List.rel_append h (.cons (.code rfl) .nil))⟩

theorem materialFunctions_relabelled {functions functions' : List Function}
    (h : List.Forall₂ (Material.Program.Relabelled allows) materials materials')
    (hFunctions : List.Forall₂ (fun m f => m.function = .ok f) materials functions)
    (hFunctions' : List.Forall₂ (fun m f => m.function = .ok f) materials' functions') :
    List.Forall₂ (Function.Relabelled allows) functions functions' := by
  induction h generalizing functions functions' with
  | nil =>
      cases hFunctions
      cases hFunctions'
      exact .nil
  | cons hFirst _ ih =>
      obtain _ | ⟨hFunction, hMore⟩ := hFunctions
      obtain _ | ⟨hFunction', hMore'⟩ := hFunctions'
      exact .cons (hFirst.function hFunction hFunction') (ih hMore hMore')

theorem environmentFunction_relabelled {environment environment' : Option Material.Program}
    {f f' : Function} (h : Option.Rel (Material.Program.Relabelled allows) environment environment')
    (hFunction : environment.elim (.ok defaultEnvironment) Material.Program.function = .ok f)
    (hFunction' : environment'.elim (.ok defaultEnvironment) Material.Program.function = .ok f') :
    f.Relabelled allows f' := by
  cases h with
  | none =>
      cases hFunction
      cases hFunction'
      exact Function.relabelled_self (List.forall_mem_singleton.mpr rfl)
  | some hProgram => exact hProgram.function hFunction hFunction'

/-- The program of a scene tells names in comments only. All else of the program comes from
bodies and indices, which renaming leaves alone. -/
theorem Program.generate_relabelled {environment environment' : Option Material.Program}
    {statements statements' : List Stmt} {p p' : Program}
    (hMaterials : List.Forall₂ (Material.Program.Relabelled allows) materials materials')
    (hEnvironment : Option.Rel (Material.Program.Relabelled allows) environment environment')
    (hStatements : List.Forall₂ (Stmt.Relabelled allows) statements statements')
    (h : generate materials environment statements = .ok p)
    (h' : generate materials' environment' statements' = .ok p') : p.Relabelled allows p' := by
  obtain ⟨surfaces, env, hSurfaces, hEnv, hFunctions⟩ := generate_eq_ok.mp h
  obtain ⟨surfaces', env', hSurfaces', hEnv', hFunctions'⟩ := generate_eq_ok.mp h'
  rw [Program.Relabelled, hFunctions, hFunctions']
  refine List.rel_append (materialFunctions_relabelled hMaterials hSurfaces hSurfaces') ?_
  refine .cons (dispatchFunction_relabelled hMaterials) ?_
  refine .cons (environmentFunction_relabelled hEnvironment hEnv hEnv') ?_
  exact .cons (sceneFunction_relabelled hStatements) .nil

end Shader

end PathTracer
