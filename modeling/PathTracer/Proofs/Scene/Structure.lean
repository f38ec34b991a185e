import PathTracer.Proofs.Material.Naming
import PathTracer.Proofs.Scene.Freezing
import PathTracer.Proofs.Scene.Indexing

/-! What the program of a scene depends on. Graphs of one structure under different
names have programs that differ in comments alone. -/
namespace PathTracer

/-! ### Materials -/

namespace Context

variable {r : Renaming}

theorem withName_map (r : Renaming) (names : List String) (name : String) :
    withName (names.map r.material) (r.material name) = (withName names name).map r.material := by
  unfold withName
  rw [r.findIdx?_map]
  split
  · rfl
  · rw [List.map_append]
    rfl

theorem registered_map {definitions definitions' : List Definition}
    (h : List.Forall₂ (Definition.Renamed r) definitions definitions') (names : List String) :
    registered (names.map r.material) definitions' = (registered names definitions).map r.material := by
  induction h generalizing names with
  | nil => rfl
  | cons hFirst _ ih =>
      unfold registered at ih ⊢
      rw [List.foldl_cons, List.foldl_cons, hFirst.name, withName_map, ih]

/-- Compiling starts to walk where the materials are known by their names. -/
theorem registerAll_renamed {definitions definitions' : List Definition}
    (h : List.Forall₂ (Definition.Renamed r) definitions definitions') (s t : Float32) :
    SameLayout (((start s).registerAll definitions).renamed r) ((start t).registerAll definitions') := by
  rw [registerAll_eq, registerAll_eq]
  exact ⟨⟨rfl, rfl⟩, (registered_map h []).symm, rfl, rfl, rfl, rfl⟩

/-- Materials of one body have one index, wherever their names are known as such. Indices
are given in the order of definitions, which renaming does not change. -/
theorem buildMaterials_relabelled {definitions definitions' : List Definition}
    (h : List.Forall₂ (Definition.Renamed r) definitions definitions')
    (hFaults : ∀ d ∈ definitions, d.fault? = none) (hFaults' : ∀ d ∈ definitions', d.fault? = none)
    {c c' : Context} (hNames : c'.materials = c.materials.map r.material) :
    List.Forall₂ (Material.Program.Relabelled r.allows) (c.buildMaterials definitions).1
      (c'.buildMaterials definitions').1 := by
  induction h generalizing c c' with
  | nil => exact .nil
  | @cons d d' rest rest' hFirst _ ih =>
      obtain ⟨hHere, hRest⟩ := List.forall_mem_cons.mp hFaults
      obtain ⟨hHere', hRest'⟩ := List.forall_mem_cons.mp hFaults'
      have hKnown : (c'.registerMaterial d'.name).materials =
          (c.registerMaterial d.name).materials.map r.material := by
        rw [registerMaterial_eq, registerMaterial_eq, hFirst.name]
        change withName c'.materials _ = _
        rw [hNames, withName_map]
      have hIndex : (c'.registerMaterial d'.name).materialIndex? d'.name =
          (c.registerMaterial d.name).materialIndex? d.name := by
        rw [materialIndex?, hKnown, hFirst.name, r.findIdx?_map]
        rfl
      obtain ⟨p, hBuild, -⟩ | ⟨e, -, hFault⟩ := Material.Program.build_cases d.name
        (((c.registerMaterial d.name).materialIndex? d.name).getD 0) .surface d.body
      · obtain ⟨p', hBuild', -⟩ | ⟨e, -, hFault⟩ := Material.Program.build_cases d'.name
          (((c'.registerMaterial d'.name).materialIndex? d'.name).getD 0) .surface d'.body
        · have hProgram := Material.Program.relabelled_of_build hFirst.label hFirst.body hBuild
            (hIndex ▸ hBuild')
          simp only [buildMaterials, hBuild, hBuild']
          exact .cons hProgram (ih hRest hRest' hKnown)
        · cases hHere'.symm.trans hFault
      · cases hHere.symm.trans hFault

end Context

/-! ### Names on one line -/

theorem NodeKind.name_onOneLine (kind : NodeKind) : '\n' ∉ kind.name.toList := by
  cases kind with
  | object kind => cases kind <;> decide
  | material role body =>
      cases role with
      | surface => exact (by decide : '\n' ∉ "Material".toList)
      | environment => exact (by decide : '\n' ∉ "Environment".toList)
  | render => decide
  | light kind => cases kind <;> decide
  | camera kind => cases kind <;> decide
  | primitive kind => cases kind <;> decide

/-- All names stay, and comments tell only those that have no line break. -/
def Renaming.onOneLine : Renaming where
  material := id
  injective := Function.injective_id
  allows _ name := '\n' ∉ name.toList
  allows_quoted kind := by
    intro _ name hFree
    simp only [toString, String.toList_append, List.mem_append, not_or]
    exact ⟨⟨⟨kind.name_onOneLine, by decide⟩, hFree⟩, by decide⟩

/-! ### Environments -/

/-- The environment of a scene was built for the only environment node of the graph. -/
theorem SceneGraph.environment_of_compileAt {g : SceneGraph} {time : Float32} {s : Scene}
    (h : g.compileAt time = .ok s) : ∃ node, g.findEnvironment = .ok node ∧
      Option.Rel (fun n p => Material.Program.build n.givenName 0 .environment
        (n.environmentBody?.getD []) = .ok p) node s.environment := by
  obtain ⟨render, definitions, node, hRender, hDefinitions, hEnvironment⟩ := compileAt_parts h
  refine ⟨node, hEnvironment, ?_⟩
  simp only [compileAt, hRender, hDefinitions, hEnvironment] at h
  obtain ⟨hErrors, _, options, program, _, _, rfl⟩ := Context.finish_eq_ok.mp h
  generalize (Context.start time).buildMaterials definitions = built at hErrors
  have hPrefix := (render.compile_extends (built.2.buildEnvironment node).2).errors
  rw [hErrors, Context.errors_buildEnvironment] at hPrefix
  have hFault := (List.append_eq_nil_iff.mp (List.prefix_nil.mp hPrefix)).2
  cases node with
  | none => exact .none
  | some n =>
      obtain ⟨p, hBuild, -⟩ | ⟨e, hBuild, hFound⟩ := Material.Program.build_cases n.givenName 0
        .environment (n.environmentBody?.getD [])
      · change Option.Rel _ _ (built.2.buildEnvironment (some n)).1
        rw [Context.buildEnvironment, hBuild]
        exact .some hBuild
      · rw [Option.bind_some, show n.environmentFault? = some e from hFound] at hFault
        cases hFault

namespace SceneGraph

variable {r : Renaming} {g g' : SceneGraph} {s s' : Scene} {time time' : Float32}

/-- The environments of a graph and a renamed one differ in names and lines only. -/
theorem Renamed.environment (h : g.Renamed r g') (hScene : g.compileAt time = .ok s)
    (hScene' : g'.compileAt time' = .ok s') :
    Option.Rel (Material.Program.Relabelled r.allows) s.environment s'.environment := by
  obtain ⟨node, hNode, hBuilt⟩ := environment_of_compileAt hScene
  obtain ⟨node', hNode', hBuilt'⟩ := environment_of_compileAt hScene'
  have hFound := h.findEnvironment hNode hNode'
  generalize s.environment = environment at hBuilt
  generalize s'.environment = environment' at hBuilt'
  cases hFound with
  | none =>
      cases hBuilt
      cases hBuilt'
      exact .none
  | @some n n' hRenamed =>
      have hBody : (n'.environmentBody?.getD []).map Statement.unplaced =
          (n.environmentBody?.getD []).map Statement.unplaced := by
        rw [← Option.getD_map (List.map Statement.unplaced), hRenamed.environmentBody?,
          Option.getD_map]
      cases hBuilt with
      | some hBuild =>
          cases hBuilt' with
          | some hBuild' =>
              exact .some (Material.Program.relabelled_of_build hRenamed.label hBody hBuild hBuild')

/-- Graphs of one structure under different names compile to programs that differ in
comments alone, whatever the values of their options and the times are. -/
theorem Renamed.program (h : g.Renamed r g') (hScene : g.compileAt time = .ok s)
    (hScene' : g'.compileAt time' = .ok s') : s.program.Relabelled r.allows s'.program := by
  have hEnvironment := h.environment hScene hScene'
  obtain ⟨render, definitions, hRender, hDefinitions, hFaults, hMaterials, -, -, -, hGenerate⟩ :=
    compileAt_walked hScene
  obtain ⟨render', definitions', hRender', hDefinitions', hFaults', hMaterials', -, -, -, hGenerate'⟩ :=
    compileAt_walked hScene'
  have hNamed := h.definitions hDefinitions hDefinitions'
  obtain ⟨hStatements, -⟩ := (h.findRender hRender hRender').compile_uniform
    (Context.registerAll_renamed hNamed time time')
  have hBuilt := Context.buildMaterials_relabelled hNamed hFaults hFaults'
    (show (Context.start time').materials = (Context.start time).materials.map r.material from rfl)
  rw [← hMaterials, ← hMaterials'] at hBuilt
  exact Shader.Program.generate_relabelled hBuilt hEnvironment hStatements hGenerate hGenerate'

/-! ### Options and times -/

/-- Graphs of one structure with the same names that refer to the same materials. All
other options may differ. In graphs whose nodes are as they were made the options tell
the names, otherwise the names that nodes have kept are the same too. -/
def SameShape (g g' : SceneGraph) : Prop :=
  Node.AllPaired Node.SameShape g.nodes g'.nodes

theorem SameShape.renamed (h : g.SameShape g') : g.Renamed .same g' :=
  Node.AllPaired.mono (fun hNode => hNode.renamed) _ _ h

theorem SameShape.program (h : g.SameShape g') (hScene : g.compileAt time = .ok s)
    (hScene' : g'.compileAt time' = .ok s') : s'.program = s.program :=
  Shader.Program.eq_of_relabelled (h.renamed.program hScene hScene')

/-- A camera and an object whose options were exchanged after it was made. -/
def ofExchanged (made exchanged : Options) : SceneGraph :=
  let n : Node := .new (.object .marched) made 3 []
  ⟨[.new .render .empty 1
    [.new (.camera .perspective) .empty 2 [], { n with options := exchanged }]]⟩

/-- Options alone do not do where they were exchanged: two objects of one name, one of
which was made under another, are told apart by the comments of the programs. -/
theorem source_ne_of_exchanged :
    let ball : Options := ⟨[("name", .text "Ball")]⟩
    let cube : Options := ⟨[("name", .text "Cube")]⟩
    ∃ s s', (ofExchanged ball ball).compileAt 0.0 = .ok s ∧
      (ofExchanged cube ball).compileAt 0.0 = .ok s' ∧ s'.program.source ≠ s.program.source := by
  intro ball cube
  have hDiffer : ((ofExchanged cube ball).compileAt 0.0).toOption.map (·.program.generatedText) ≠
      ((ofExchanged ball ball).compileAt 0.0).toOption.map (·.program.generatedText) := by
    decide +kernel
  obtain ⟨s, hScene⟩ : ∃ s, (ofExchanged ball ball).compileAt 0.0 = .ok s :=
    exists_ok_of_isOk (by decide)
  obtain ⟨s', hScene'⟩ : ∃ s', (ofExchanged cube ball).compileAt 0.0 = .ok s' :=
    exists_ok_of_isOk (by decide)
  refine ⟨s, s', hScene, hScene', fun hSame => hDiffer ?_⟩
  rw [hScene, hScene']
  exact congrArg some (Shader.Program.generatedText_of_source hSame)

/-! ### Names -/

/-- Names that are on one line each are in comments on one line each. -/
theorem relabelled_of_names (hNames : ∀ n ∈ g.walk, '\n' ∉ n.givenName.toList)
    (hScene : g.compileAt time = .ok s) :
    s.program.Relabelled (fun _ text => '\n' ∉ text.toList) s.program := by
  have hRenamed : g.Renamed .onOneLine g := by
    refine Node.AllPaired.refl g.nodes fun n hn => ⟨rfl, ?_, fun _ _ => rfl, hNames n hn⟩
    exact (congrFun Option.map_id _).symm
  exact hRenamed.program hScene hScene

/-- Such comments leak nothing. -/
theorem leaks_of_names (hNames : ∀ n ∈ g.walk, '\n' ∉ n.givenName.toList)
    (hScene : g.compileAt time = .ok s) : s.program.leaks = [] :=
  (relabelled_of_names hNames hScene).leaks_eq_nil fun _ => Shader.leaks_of_not_mem

/-- The code stays under other names of materials and other nodes where all of them are on
one line. Where the first comments leak nothing, it stays if and only if the others leak
nothing. A line is code unless it starts as a comment. Names stand in comments with their
line breaks, and nothing is said of names with breaks on both sides. -/
theorem codeLines_eq_iff_of_renamed {material : String → String}
    {hInjective : Function.Injective material} (h : g.Renamed (.ofMaterials material hInjective) g')
    (hScene : g.compileAt time = .ok s) (hScene' : g'.compileAt time' = .ok s') :
    ((∀ n ∈ g.walk ++ g'.walk, '\n' ∉ n.givenName.toList) →
      Shader.codeLines s'.program.generatedText = Shader.codeLines s.program.generatedText) ∧
    (s.program.leaks = [] →
      (Shader.codeLines s'.program.generatedText = Shader.codeLines s.program.generatedText ↔
        s'.program.leaks = [])) := by
  have hProgram := h.program hScene hScene'
  refine ⟨fun hNames => ?_, hProgram.codeLines_eq_iff⟩
  obtain ⟨hFirst, hSecond⟩ := List.forall_mem_append.mp hNames
  exact (hProgram.codeLines_eq_iff (leaks_of_names hFirst hScene)).mpr
    (leaks_of_names hSecond hScene')

/-- A material and a camera. -/
def ofMaterialName (name : String) : SceneGraph :=
  ⟨[.new (.material .surface []) ⟨[("name", .text name)]⟩ 1 [],
    .new .render .empty 2 [.new (.camera .perspective) .empty 3 []]]⟩

theorem append_injective (more : String) : Function.Injective (· ++ more) := by
  intro name other h
  rw [← String.toList_inj] at h ⊢
  simpa using h

theorem ofMaterialName_renamed (name more : String) :
    (ofMaterialName name).Renamed (.ofMaterials (· ++ more) (append_injective more))
      (ofMaterialName (name ++ more)) :=
  .cons (.node ⟨rfl, rfl, fun _ _ => rfl, trivial⟩ .nil)
    (.cons (.node ⟨rfl, rfl, nofun, trivial⟩
      (.cons (.node ⟨rfl, rfl, nofun, trivial⟩ .nil) .nil)) .nil)

/-- What a graph of one material leaks, if it compiles. -/
def leaksOf (name : String) : Option (List (List Char)) :=
  ((ofMaterialName name).compileAt 0.0).toOption.map fun s => s.program.leaks

theorem exists_of_leaksOf (name : String) (leaked : List (List Char))
    (h : leaksOf name = some leaked) :
    ∃ s, (ofMaterialName name).compileAt 0.0 = .ok s ∧ s.program.leaks = leaked :=
  exists_ok_of_map h

/-- A longer name on one line changes no code. -/
theorem codeLines_eq_iff_of_renamed_longer :
    ∃ s s', (ofMaterialName "A").compileAt 0.0 = .ok s ∧
      (ofMaterialName "AB").compileAt 0.0 = .ok s' ∧
      (ofMaterialName "A").Renamed (.ofMaterials (· ++ "B") (append_injective "B"))
        (ofMaterialName "AB") ∧
      Shader.codeLines s'.program.generatedText = Shader.codeLines s.program.generatedText := by
  obtain ⟨s, hScene, -⟩ := exists_of_leaksOf "A" [] (by decide)
  obtain ⟨s', hScene', -⟩ := exists_of_leaksOf "AB" [] (by decide)
  have hRenamed := ofMaterialName_renamed "A" "B"
  have hNames : ∀ n ∈ (ofMaterialName "A").walk ++ (ofMaterialName "AB").walk,
      '\n' ∉ n.givenName.toList := by decide
  exact ⟨s, s', hScene, hScene', hRenamed,
    (codeLines_eq_iff_of_renamed hRenamed hScene hScene').1 hNames⟩

/-- What stands behind a line break in a name is code. -/
theorem codeLines_of_broken_name :
    ∃ s s', (ofMaterialName "A").compileAt 0.0 = .ok s ∧
      (ofMaterialName "A\nB").compileAt 0.0 = .ok s' ∧
      (ofMaterialName "A").Renamed (.ofMaterials (· ++ "\nB") (append_injective "\nB"))
        (ofMaterialName "A\nB") ∧
      Shader.codeLines s'.program.generatedText ≠ Shader.codeLines s.program.generatedText := by
  obtain ⟨s, hScene, hQuiet⟩ := exists_of_leaksOf "A" [] (by decide)
  obtain ⟨s', hScene', hLeaks⟩ := exists_of_leaksOf "A\nB" [['B']] (by decide)
  have hRenamed := ofMaterialName_renamed "A" "\nB"
  refine ⟨s, s', hScene, hScene', hRenamed, fun hSame => ?_⟩
  rw [(hRenamed.program hScene hScene').codeLines_eq_iff hQuiet, hLeaks] at hSame
  cases hSame

end SceneGraph

end PathTracer
