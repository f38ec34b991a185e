import PathTracer.Proofs.Material.Checking
import PathTracer.Proofs.Scene.Refresh

/-! The programs that compiling builds for the materials and the environment of a
graph, and the faults of their bodies. What was built has code, since an
expression has code exactly where it has a type. -/
namespace PathTracer

/-- A source of one number is read as that number. -/
theorem Expression.parse_of_number {source : String} {x : Float32}
    (h : tokenize source = .ok [.number x]) : parse source = .ok (.const (.float1 x)) := by
  have hTokens : ofTokens [.number x] = .ok (.const (.float1 x)) := by
    simp [ofTokens, sums, sum, product, unary, selected, primary, postfixTail, productTail, sumTail,
      sumsTail, Parsed.continue, ofItems]
  rw [parse, h]
  exact hTokens

/-- An option written as one number has that value. -/
theorem Options.evalSource_of_number (name : String) {source : String} {x : Float32}
    (h : Expression.tokenize source = .ok [.number x]) :
    evalSource name source = .ok (.float1 x) := by
  rw [evalSource, Expression.parse_of_number h]
  rfl

namespace Material

/-- Whether a local that is assigned has a name that a local can have. -/
def Target.isNamed : Target → Bool
  | .field _ => true
  | .variable name _ _ => isIdentifier name

/-- A target that passes the checks has a name that the shader language can read. -/
theorem isNamed_of_targetOf {role : MaterialRole} {locals : Locals} {name : String}
    {type : ValueType} {target : Target} (h : targetOf role locals name type = .ok target) :
    target.isNamed = true := by
  unfold targetOf at h
  split at h
  · split at h
    · cases h
      rfl
    · cases h
  · split at h
    · cases h
    · rename_i hName
      rw [Bool.not_eq_true, Bool.not_eq_false'] at hName
      split at h
      · split at h
        · cases h
          exact hName
        · cases h
      · cases h
        exact hName

/-- Whatever passes the checks assigns to locals with names. -/
theorem BodyChecks.isNamed {role : MaterialRole} {locals : Locals} {statements : List Statement}
    {body : List TypedStatement} (h : BodyChecks role locals statements body) :
    ∀ s ∈ body, s.target.isNamed = true := by
  induction h with
  | nil => nofun
  | cons hFirst _ ih =>
      obtain ⟨type, -, hTarget⟩ := checkStatement_eq_ok hFirst
      exact List.forall_mem_cons.mpr ⟨isNamed_of_targetOf hTarget, ih⟩

namespace Program

/-- A program whose body passed the checks of a role. -/
structure Built (role : MaterialRole) (p : Program) : Prop where
  role_eq : p.role = role
  typed : BodyTyped role [] p.body
  named : ∀ s ∈ p.body, s.target.isNamed = true

theorem built_of_build {name : String} {index : Nat} {role : MaterialRole}
    {statements : List Statement} {p : Program} (h : build name index role statements = .ok p) :
    p.Built role := by
  obtain ⟨body, hBody, rfl⟩ := build_eq_ok_iff.mp h
  exact ⟨rfl, hBody.typed, hBody.isNamed⟩

/-- Code is found for whatever passed the checks. -/
theorem Built.exists_function {role : MaterialRole} {p : Program} (h : p.Built role) :
    ∃ f, p.function = .ok f := by
  obtain ⟨code, hCode⟩ := exists_bodyLowers h.typed
  exact ⟨_, function_eq_ok_iff.mpr ⟨code, h.role_eq ▸ hCode, rfl⟩⟩

end Program

end Material

/-! ### Faults of bodies -/

/-- The first fault of a body in a role. -/
def Material.bodyFault? (role : MaterialRole) (body : List Statement) : Option CompileError :=
  match checkBody role [] body with
  | .error e => some e
  | .ok _ => none

/-- A body is built unless it has a fault, and then the fault is reported. -/
theorem Material.Program.build_cases (name : String) (index : Nat) (role : MaterialRole)
    (body : List Statement) :
    (∃ p, build name index role body = .ok p ∧ bodyFault? role body = none) ∨
      ∃ e, build name index role body = .error e ∧ bodyFault? role body = some e := by
  unfold build bodyFault?
  cases checkBody role [] body with
  | error e => exact .inr ⟨e, rfl, rfl⟩
  | ok typed => exact .inl ⟨_, rfl, rfl⟩

/-- The first fault of the body of a definition. -/
def Definition.fault? (d : Definition) : Option CompileError :=
  Material.bodyFault? .surface d.body

/-- The first fault of the body of an environment. -/
def Node.environmentFault? (n : Node) : Option CompileError :=
  Material.bodyFault? .environment (n.environmentBody?.getD [])

namespace Context

/-- Building materials reports the faults of their bodies, and nothing else. -/
theorem errors_buildMaterials (c : Context) (definitions : List Definition) :
    (c.buildMaterials definitions).2.errors = c.errors ++ definitions.filterMap Definition.fault? := by
  induction definitions generalizing c with
  | nil => simp [buildMaterials]
  | cons d rest ih =>
      have hErrors : (c.registerMaterial d.name).errors = c.errors := by rw [registerMaterial_eq]
      rw [buildMaterials]
      obtain ⟨p, hBuild, hFault⟩ | ⟨e, hBuild, hFault⟩ := Material.Program.build_cases d.name
        (((c.registerMaterial d.name).materialIndex? d.name).getD 0) .surface d.body
      · have hNone : d.fault? = none := hFault
        simp only [hBuild, ih, hErrors, List.filterMap_cons, hNone]
      · have hSome : d.fault? = some e := hFault
        simp only [hBuild, ih, reportError, hErrors, List.filterMap_cons, hSome,
          List.append_assoc, List.singleton_append]

theorem errors_buildEnvironment (c : Context) (node : Option Node) :
    (c.buildEnvironment node).2.errors =
      c.errors ++ (node.bind Node.environmentFault?).toList := by
  cases node with
  | none => simp [buildEnvironment]
  | some n =>
      rw [buildEnvironment]
      obtain ⟨p, hBuild, hFault⟩ | ⟨e, hBuild, hFault⟩ := Material.Program.build_cases n.givenName 0
        .environment (n.environmentBody?.getD [])
      · have hNone : n.environmentFault? = none := hFault
        simp only [hBuild, Option.bind_some, hNone, Option.toList_none, List.append_nil]
      · have hSome : n.environmentFault? = some e := hFault
        simp only [hBuild, Option.bind_some, hSome, Option.toList_some, reportError]

theorem built_of_mem_buildMaterials {c : Context} {definitions : List Definition}
    {p : Material.Program} (h : p ∈ (c.buildMaterials definitions).1) : p.Built .surface := by
  induction definitions generalizing c with
  | nil => cases h
  | cons d rest ih =>
      rw [buildMaterials] at h
      dsimp only at h
      split at h
      · exact ih h
      · rename_i program hBuild
        rcases List.mem_cons.mp h with rfl | hRest
        · exact Material.Program.built_of_build hBuild
        · exact ih hRest

theorem built_of_buildEnvironment {c : Context} {node : Option Node} {p : Material.Program}
    (h : (c.buildEnvironment node).1 = some p) : p.Built .environment := by
  cases node with
  | none => cases h
  | some n =>
      rw [buildEnvironment] at h
      split at h
      · cases h
      · rename_i program hBuild
        cases h
        exact Material.Program.built_of_build hBuild

end Context

/-! ### Functions of programs -/

namespace Shader

/-- Built materials have functions, one each. -/
theorem exists_materialFunctions {materials : List Material.Program}
    (h : ∀ m ∈ materials, m.Built .surface) :
    ∃ functions, materialFunctions materials = .ok functions := by
  induction materials with
  | nil => exact ⟨[], rfl⟩
  | cons m rest ih =>
      obtain ⟨f, hFunction⟩ := (h m List.mem_cons_self).exists_function
      obtain ⟨more, hMore⟩ := ih fun other hOther => h other (List.mem_cons_of_mem m hOther)
      rw [materialFunctions, hFunction, hMore]
      exact ⟨_, rfl⟩

/-- There is a program for whatever was built. Generating asks for nothing but the functions
of materials, which bodies that passed have. -/
theorem Program.exists_generate {materials : List Material.Program}
    {environment : Option Material.Program} (scene : List Stmt)
    (hMaterials : ∀ m ∈ materials, m.Built .surface)
    (hEnvironment : ∀ e, environment = some e → e.Built .environment) :
    ∃ p, generate materials environment scene = .ok p := by
  obtain ⟨functions, hFunctions⟩ := exists_materialFunctions hMaterials
  have hSome : ∃ f, environment.elim (.ok defaultEnvironment) Material.Program.function = .ok f := by
    cases environment with
    | none => exact ⟨_, rfl⟩
    | some e => exact (hEnvironment e rfl).exists_function
  obtain ⟨f, hFunction⟩ := hSome
  rw [generate, generatedFunctions, hFunctions, hFunction]
  exact ⟨_, rfl⟩

end Shader

namespace Context

/-- Whatever materials and environment were built, code is generated for them. -/
theorem exists_generate_of_built (c : Context) (definitions : List Definition)
    (node : Option Node) (statements : List Shader.Stmt) :
    let (materials, built) := c.buildMaterials definitions
    ∃ program, Shader.Program.generate materials (built.buildEnvironment node).1 statements =
      .ok program :=
  Shader.Program.exists_generate statements (fun _ hMember => built_of_mem_buildMaterials hMember)
    fun _ hFound => built_of_buildEnvironment hFound

/-- A walk whose program is generated fails to finish for what it reported, for want
of a camera, or for the options of the render node. -/
theorem finish_eq_error_iff {c : Context} {render : Node} {materials : List Material.Program}
    {environment : Option Material.Program} {statements : List Shader.Stmt}
    {program : Shader.Program}
    (h : Shader.Program.generate materials environment statements = .ok program)
    (e : CompileError) :
    c.finish render materials environment statements = .error e ↔
      c.errors.head? = some e ∨ c.errors = [] ∧
        (c.entities.camera = none ∧ e = ⟨.missingCamera, render.line⟩ ∨
          c.entities.camera.isSome = true ∧ render.renderOptions = .error e) := by
  unfold finish
  cases hErrors : c.errors with
  | cons first more => simp
  | nil =>
      cases hCamera : c.entities.camera with
      | none => simp [eq_comm]
      | some camera => cases hOptions : render.renderOptions <;> simp [h]

end Context

/-- An expression has code in a scope if and only if it has a type there, which then is the
type of the code, and both report the same fault. So every program whose body passed its
checks has a function, and compiling a graph generates code whenever it gets there: it fails
for what it has reported before, for want of a camera, or for the options of the render
node. So no fault is found by the generator, and a graph is never refused for code that
could not be written. -/
theorem SceneGraph.lower_iff_infer_and_generates :
    (∀ (scope : Expression.LowerScope) (e : Expression),
      (∀ type, (∃ code, e.lower scope = .ok (code, type)) ↔ e.infer scope.types = .ok type) ∧
        ∀ d, e.lower scope = .error d ↔ e.infer scope.types = .error d) ∧
    (∀ (name : String) (index : Nat) (role : MaterialRole) (body : List Statement)
        (p : Material.Program), Material.Program.build name index role body = .ok p →
      ∃ f, p.function = .ok f) ∧
    ∀ (g : SceneGraph) (time : Float32) (render : Node) (definitions : List Definition)
        (node : Option Node), g.findRender = .ok render → g.definitions = .ok definitions →
      g.findEnvironment = .ok node →
      let (materials, c) := (Context.start time).buildMaterials definitions
      let (environment, c) := c.buildEnvironment node
      let (statements, c) := render.compile c
      ∃ program, Shader.Program.generate materials environment statements = .ok program ∧
        ∀ e, g.compileAt time = .error e ↔
          c.errors.head? = some e ∨ c.errors = [] ∧
            (c.entities.camera = none ∧ e = ⟨.missingCamera, render.line⟩ ∨
              c.entities.camera.isSome = true ∧ render.renderOptions = .error e) := by
  refine ⟨fun scope e => ⟨e.lower_eq_ok_iff scope, e.lower_eq_error_iff scope⟩,
    fun name index role body p hBuild => (Material.Program.built_of_build hBuild).exists_function,
    fun g time render definitions node hRender hDefinitions hEnvironment => ?_⟩
  obtain ⟨program, hProgram⟩ := (Context.start time).exists_generate_of_built definitions node
    (render.compile (((Context.start time).buildMaterials definitions).2.buildEnvironment node).2).1
  refine ⟨program, hProgram, fun e => ?_⟩
  unfold compileAt
  rw [hRender, hDefinitions, hEnvironment]
  exact Context.finish_eq_error_iff hProgram e

/-- A material whose body assigns a local before it assigns a field. -/
theorem SceneGraph.lower_iff_infer_and_generates_local :
    let body : List Statement := [⟨"shine", "2", 2⟩, ⟨"roughness", "1", 3⟩]
    let g : SceneGraph := ⟨[.new (.material .surface body) ⟨[("name", .text "A")]⟩ 1 [],
      .new .render .empty 4 [.new (.camera .perspective) .empty 5 []]]⟩
    (∃ p f, Material.Program.build "A" 0 .surface body = .ok p ∧ p.function = .ok f) ∧
      ∀ e, g.compileAt 0.0 ≠ .error e := by
  intro body g
  have hOne : Expression.tokenize "1" = .ok [.number 1.0] := by decide +kernel
  have hTwo : Expression.tokenize "2" = .ok [.number 2.0] := by decide +kernel
  have hBuild : Material.Program.build "A" 0 .surface body =
      .ok ⟨"A", 0, .surface, [⟨.variable "shine" .float1 true, .const (.float1 2.0), 2⟩,
        ⟨.field .roughness, .const (.float1 1.0), 3⟩]⟩ := by
    simp only [body, Material.Program.build, Material.checkBody, Material.checkStatement,
      Expression.parse_of_number hOne, Expression.parse_of_number hTwo]
    rfl
  obtain ⟨_, hFunction, hGenerate⟩ := SceneGraph.lower_iff_infer_and_generates
  obtain ⟨f, hCode⟩ := hFunction _ _ _ _ _ hBuild
  refine ⟨⟨_, f, hBuild, hCode⟩, fun e hError => ?_⟩
  have hIndex : (((Context.start 0.0).registerMaterial "A").materialIndex? "A").getD 0 = 0 := rfl
  have hFinal := hGenerate g 0.0 _ [⟨"A", 1, body⟩] none rfl rfl rfl
  simp only [Context.buildMaterials, hIndex, hBuild] at hFinal
  obtain ⟨_, _, hFails⟩ := hFinal
  rcases (hFails e).mp hError with hReported | ⟨_, ⟨hCamera, _⟩ | ⟨_, hOptions⟩⟩
  · cases hReported
  · cases hCamera
  · cases hOptions

end PathTracer
