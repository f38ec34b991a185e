import PathTracer.Proofs.Material.Bodies
import PathTracer.Proofs.Scene.Acceptance
import PathTracer.Proofs.Scene.Faults
import PathTracer.Proofs.Scene.Indexing

/-! Which graphs compile, and what the others are blamed for. A graph is sound by
conditions on its nodes and statements alone. It compiles if and only if it is sound,
and otherwise the node or the statement on the line of the error has the defect that is
reported. -/
namespace PathTracer

/-! ### Parts of graphs -/

/-- What an error can be blamed on. -/
inductive Part where
  | node (n : Node)
  | statement (s : Statement)

def Part.line : Part → Nat
  | node n => n.line
  | statement s => s.line

/-- The statements of a material or an environment. -/
def Node.body (n : Node) : List Statement :=
  match n.kind with
  | .material _ body => body
  | _ => []

/-- The options of a render node that compiling reads itself. -/
def Node.renderReads : List (String × ValueType) :=
  [("Background", .float3), ("Samples", .float1), ("Depth", .float1)]

namespace SceneGraph

/-- All nodes with their statements. -/
def parts (g : SceneGraph) : List Part :=
  g.walk.flatMap fun n => .node n :: n.body.map .statement

def renders (g : SceneGraph) : List Node :=
  g.nodes.filter fun n => n.kind = .render

def environments (g : SceneGraph) : List Node :=
  g.walk.filter fun n => n.environmentBody?.isSome

/-- The nodes that define surface materials. -/
def definers (g : SceneGraph) : List Node :=
  g.nodes.flatMap Node.definers

/-- The first node that defines a material of a name. That is the name which the node was
made with, whatever its options have become. -/
def definer? (g : SceneGraph) (name : String) : Option Node :=
  g.definers.find? fun n => n.givenName == name

/-- The names of the materials that are defined. -/
def materialNames (g : SceneGraph) : List String :=
  g.definers.map Node.givenName

/-- The nodes that a walk of the render nodes comes to. -/
def reached (g : SceneGraph) : List Node :=
  g.renders.flatMap Node.reached

/-- The conditions under which a graph compiles at a time. -/
structure Sound (g : SceneGraph) (time : Float32) : Prop where
  render : g.renders.length = 1
  named : ∀ n ∈ g.definers, n.explicitName?.isSome = true
  environments : g.environments.length ≤ 1
  definitions : ∀ name n, g.definer? name = some n →
    ∃ after, Material.AllPass .surface [] n.body after
  environment : ∀ n ∈ g.environments, ∃ after, Material.AllPass .environment [] n.body after
  options : ∀ n ∈ g.reached, ∀ read ∈ n.reads, n.options.Fits read.1 read.2 time
  renderOptions : ∀ n ∈ g.renders, ∀ read ∈ Node.renderReads, n.options.Fits read.1 read.2 0.0
  directions : ∀ n ∈ g.reached, n.kind = .light .sun → n.Aims time
  references : ∀ n ∈ g.reached, ∀ name, n.materialName? = some name → name ∈ g.materialNames
  lights : ∀ n ∈ g.reached, n.kind = .light .sphere → n.materialName?.isSome = true
  camera : ∃ n ∈ g.reached, ∃ kind, n.kind = .camera kind

/-- A part of a graph has a defect at a time. -/
inductive Exhibits (g : SceneGraph) (time : Float32) : Part → Defect → Prop where
  | secondRender {first n : Node} (hSecond : [first, n].Sublist g.renders) :
      Exhibits g time (.node n) .duplicateRender
  | secondEnvironment {first n : Node} (hSecond : [first, n].Sublist g.environments) :
      Exhibits g time (.node n) .duplicateEnvironment
  | unnamed {n : Node} (hDefines : n ∈ g.definers) (hName : n.explicitName? = none) :
      Exhibits g time (.node n) (.missingName "Material")
  | definition {name : String} {n : Node} {s : Statement} {d : Defect}
      (hFirst : g.definer? name = some n) (hBlamed : Material.Blamed .surface n.body s d) :
      Exhibits g time (.statement s) d
  | environment {n : Node} {s : Statement} {d : Defect} (hMem : n ∈ g.environments)
      (hBlamed : Material.Blamed .environment n.body s d) : Exhibits g time (.statement s) d
  | reached {n : Node} {d : Defect} (hReached : n ∈ g.reached)
      (hExhibits : n.Exhibits g.materialNames time d) : Exhibits g time (.node n) d
  | renderOption {n : Node} {name : String} {want : ValueType} {d : Defect}
      (hRender : n ∈ g.renders) (hRead : (name, want) ∈ Node.renderReads)
      (hMisfits : n.options.Misfits name want 0.0 d) : Exhibits g time (.node n) d
  | filmless {n : Node} (hRender : n ∈ g.renders)
      (hNone : ∀ m ∈ n.reached, ∀ kind, m.kind ≠ .camera kind) :
      Exhibits g time (.node n) .missingCamera

end SceneGraph

/-! ### Places of parts -/

namespace Node

mutual

/-- Nodes that are reached are in the walk. -/
theorem mem_walk_of_mem_reached : (n : Node) → ∀ m ∈ reached n, m ∈ walk n
  | ⟨.object kind, options, name, line, leaves⟩, m, hm
  | ⟨.render, options, name, line, leaves⟩, m, hm => by
      rw [reached] at hm
      rw [walk]
      exact List.mem_cons.mpr ((List.mem_cons.mp hm).imp_right (mem_walkAll_of_mem_reachedAll leaves m))
  | ⟨.material role body, options, name, line, leaves⟩, m, hm
  | ⟨.light kind, options, name, line, leaves⟩, m, hm
  | ⟨.camera kind, options, name, line, leaves⟩, m, hm
  | ⟨.primitive kind, options, name, line, leaves⟩, m, hm => by
      rw [reached] at hm
      rw [walk, List.mem_singleton.mp hm]
      exact List.mem_cons_self

/-- What is reached from siblings is in their walks. -/
theorem mem_walkAll_of_mem_reachedAll : (nodes : List Node) → ∀ m ∈ reachedAll nodes, m ∈ walkAll nodes
  | [], m, hm => by
      rw [reachedAll] at hm
      cases hm
  | n :: rest, m, hm => by
      rw [reachedAll] at hm
      rw [walkAll]
      exact List.mem_append.mpr ((List.mem_append.mp hm).imp (mem_walk_of_mem_reached n m)
        (mem_walkAll_of_mem_reachedAll rest m))

end

mutual

/-- A walk comes to a camera exactly where there is one among the nodes that it comes to. A
camera below a light counts for nothing, since nothing visits it. -/
theorem placesCamera_iff : (n : Node) →
    (n.placesCamera = true ↔ ∃ m ∈ n.reached, ∃ kind, m.kind = .camera kind)
  | ⟨.object kind, options, name, line, leaves⟩ | ⟨.render, options, name, line, leaves⟩ => by
      rw [placesCamera, reached, anyPlacesCamera_iff leaves]
      simp
  | ⟨.material role body, options, name, line, leaves⟩ | ⟨.light kind, options, name, line, leaves⟩
  | ⟨.primitive kind, options, name, line, leaves⟩ => by
      rw [placesCamera, reached]
      simp
  | ⟨.camera kind, options, name, line, leaves⟩ => by
      rw [placesCamera, reached]
      simp

/-- Siblings place a camera exactly if one is reached from them. -/
theorem anyPlacesCamera_iff : (nodes : List Node) →
    (anyPlacesCamera nodes = true ↔ ∃ m ∈ reachedAll nodes, ∃ kind, m.kind = .camera kind)
  | [] => by
      rw [anyPlacesCamera, reachedAll]
      simp
  | n :: rest => by
      rw [anyPlacesCamera, reachedAll, Bool.or_eq_true, placesCamera_iff n, anyPlacesCamera_iff rest]
      simp only [List.mem_append, or_and_right, exists_or]

end

/-- The walk of siblings has the walk of each. -/
theorem mem_walkAll {nodes : List Node} {n m : Node} (hn : n ∈ nodes) (hm : m ∈ walk n) :
    m ∈ walkAll nodes := by
  induction nodes with
  | nil => cases hn
  | cons first rest ih =>
      rw [walkAll, List.mem_append]
      rcases List.mem_cons.mp hn with rfl | hRest
      · exact .inl hm
      · exact .inr (ih hRest)

/-- A node is in its own walk. -/
theorem self_mem_walk (n : Node) : n ∈ walk n := by
  obtain ⟨kind, options, name, line, leaves⟩ := n
  rw [walk]
  exact List.mem_cons_self

/-- The statements of a surface are those of its node. -/
theorem body_of_surface {n : Node} (h : n.surfaceBody?.isSome = true) :
    n.surfaceBody?.getD [] = n.body := by
  unfold surfaceBody? body at *
  cases hKind : n.kind with
  | material role body => cases role <;> simp_all
  | _ => simp [hKind] at h

/-- The statements of the environment are those of its node. -/
theorem body_of_environment {n : Node} (h : n.environmentBody?.isSome = true) :
    n.environmentBody?.getD [] = n.body := by
  unfold environmentBody? body at *
  cases hKind : n.kind with
  | material role body => cases role <;> simp_all
  | _ => simp [hKind] at h

/-- Nodes that define materials are in the walk. -/
theorem mem_walk_of_mem_definers {root n : Node} (h : n ∈ root.definers) : n ∈ walk root := by
  obtain ⟨kind, options, name, line, leaves⟩ := root
  rw [walk]
  rcases List.mem_append.mp h with hRoot | hBelow
  · split at hRoot
    · rw [List.mem_singleton.mp hRoot]
      exact List.mem_cons_self
    · cases hRoot
  · exact List.mem_cons_of_mem _ (List.mem_filter.mp hBelow).1

end Node

/-! ### Faults of bodies and of render options -/

namespace Material

variable {role : MaterialRole} {body : List Statement}

/-- The fault of a body is that of one of its statements, on the line of that statement. -/
theorem blamed_of_bodyFault? {e : CompileError} (h : bodyFault? role body = some e) :
    ∃ s d, Blamed role body s d ∧ e = ⟨d, s.line⟩ := by
  unfold bodyFault? at h
  obtain ⟨after, hPass⟩ | ⟨s, d, hBlamed⟩ := allPass_or_blamed role body
  · obtain ⟨typed, hTyped⟩ := hPass.exists_checked
    rw [hTyped] at h
    cases h
  · rw [hBlamed.checkBody_eq] at h
    cases h
    exact ⟨s, d, hBlamed, rfl⟩

/-- A body without a fault passes all checks. -/
theorem allPass_of_bodyFault? (h : bodyFault? role body = none) :
    ∃ after, AllPass role [] body after := by
  refine (allPass_or_blamed role body).resolve_right ?_
  rintro ⟨s, d, hBlamed⟩
  rw [bodyFault?, hBlamed.checkBody_eq] at h
  cases h

end Material

namespace Node

/-- An option that is not set fits any type, since its default is taken. -/
theorem fits_of_not_contains {o : Options} {name : String} (h : o.contains name = false)
    (want : ValueType) (time : Float32) : o.Fits name want time := by
  have hNone : o.get? name = none := by simpa [Options.contains] using h
  exact .absent (by rw [Options.value, hNone])

/-- A count is read, or it is reported with the defect of its option at time zero. -/
theorem countOption_cases (n : Node) (name : String) :
    (n.options.Fits name .float1 0.0 ∧ ∃ x, n.countOption name = .ok x) ∨
      ∃ d, n.options.Misfits name .float1 0.0 d ∧ n.countOption name = .error ⟨d, n.line⟩ := by
  unfold countOption
  cases hContains : n.options.contains name with
  | false => exact .inl ⟨fits_of_not_contains hContains _ _, none, rfl⟩
  | true =>
      cases hRead : n.options.float1 name 0.0 0.0 with
      | error d => exact .inr ⟨d, (Options.float1_eq_error_iff _).mp hRead, rfl⟩
      | ok x =>
          refine .inl ⟨Options.fits_iff.mpr fun d hMisfits => ?_, _, rfl⟩
          cases hRead.symm.trans ((Options.float1_eq_error_iff _).mpr hMisfits)

/-- The background is read, or it is reported with the defect of its option at time zero. -/
theorem backgroundOption_cases (n : Node) :
    (n.options.Fits "Background" .float3 0.0 ∧ ∃ v, n.backgroundOption = .ok v) ∨
      ∃ d, n.options.Misfits "Background" .float3 0.0 d ∧
        n.backgroundOption = .error ⟨d, n.line⟩ := by
  unfold backgroundOption
  cases hContains : n.options.contains "Background" with
  | false => exact .inl ⟨fits_of_not_contains hContains _ _, none, rfl⟩
  | true =>
      cases hRead : n.options.float3 "Background" .zero 0.0 with
      | error d => exact .inr ⟨d, (Options.float3_eq_error_iff _).mp hRead, rfl⟩
      | ok v =>
          refine .inl ⟨Options.fits_iff.mpr fun d hMisfits => ?_, _, rfl⟩
          cases hRead.symm.trans ((Options.float3_eq_error_iff _).mpr hMisfits)

/-- The options of a render node are read, or what is wrong with one of them is reported
at its line. -/
theorem renderOptions_cases (n : Node) :
    ((∀ read ∈ renderReads, n.options.Fits read.1 read.2 0.0) ∧
      ∃ options, n.renderOptions = .ok options) ∨
    ∃ read ∈ renderReads, ∃ d, n.options.Misfits read.1 read.2 0.0 d ∧
      n.renderOptions = .error ⟨d, n.line⟩ := by
  unfold renderOptions renderReads
  obtain ⟨hBackground, v, hRead⟩ | ⟨d, hMisfits, hRead⟩ := n.backgroundOption_cases
  · obtain ⟨hSamples, samples, hReadSamples⟩ | ⟨d, hMisfits, hReadSamples⟩ :=
      n.countOption_cases "Samples"
    · obtain ⟨hDepth, depth, hReadDepth⟩ | ⟨d, hMisfits, hReadDepth⟩ := n.countOption_cases "Depth"
      · simp only [hRead, hReadSamples, hReadDepth]
        exact .inl ⟨by simp [hBackground, hSamples, hDepth], _, rfl⟩
      · simp only [hRead, hReadSamples, hReadDepth]
        exact .inr ⟨("Depth", .float1), by simp, d, hMisfits, rfl⟩
    · simp only [hRead, hReadSamples]
      exact .inr ⟨("Samples", .float1), by simp, d, hMisfits, rfl⟩
  · simp only [hRead]
    exact .inr ⟨("Background", .float3), by simp, d, hMisfits, rfl⟩

end Node

namespace SceneGraph

variable {g : SceneGraph} {time : Float32} {n : Node}

/-- Every node of the walk is a part of the graph. -/
theorem mem_parts_node (h : n ∈ g.walk) : Part.node n ∈ g.parts :=
  List.mem_flatMap.mpr ⟨n, h, List.mem_cons_self⟩

/-- Every statement of a node of the walk is a part of the graph. -/
theorem mem_parts_statement {s : Statement} (h : n ∈ g.walk) (hBody : s ∈ n.body) :
    Part.statement s ∈ g.parts :=
  List.mem_flatMap.mpr ⟨n, h, List.mem_cons_of_mem _ (List.mem_map_of_mem hBody)⟩

/-- The nodes at the top are in the walk. -/
theorem mem_walk_of_mem_nodes (h : n ∈ g.nodes) : n ∈ g.walk :=
  Node.mem_walkAll h n.self_mem_walk

/-- Render nodes are in the walk. -/
theorem mem_walk_of_mem_renders (h : n ∈ g.renders) : n ∈ g.walk :=
  mem_walk_of_mem_nodes (List.mem_filter.mp h).1

theorem mem_walk_of_mem_definers (h : n ∈ g.definers) : n ∈ g.walk := by
  obtain ⟨root, hRoot, hDefines⟩ := List.mem_flatMap.mp h
  exact Node.mem_walkAll hRoot (Node.mem_walk_of_mem_definers hDefines)

theorem mem_walk_of_mem_reached (h : n ∈ g.reached) : n ∈ g.walk := by
  obtain ⟨render, hRender, hReached⟩ := List.mem_flatMap.mp h
  exact Node.mem_walkAll (List.mem_filter.mp hRender).1 (render.mem_walk_of_mem_reached n hReached)

/-- The body of a definition is that of its node. -/
theorem body_of_mem_definers (h : n ∈ g.definers) : n.surfaceBody?.getD [] = n.body := by
  obtain ⟨root, -, hDefines⟩ := List.mem_flatMap.mp h
  exact Node.body_of_surface (Node.surfaceBody?_of_mem_definers hDefines)

/-- The body of the environment is that of its node. -/
theorem body_of_mem_environments (h : n ∈ g.environments) :
    n.environmentBody?.getD [] = n.body :=
  Node.body_of_environment (List.mem_filter.mp h).2

/-- Whatever exhibits a defect is a part of the graph. -/
theorem Exhibits.mem_parts {part : Part} {d : Defect} (h : g.Exhibits time part d) :
    part ∈ g.parts := by
  cases h with
  | secondRender hSecond =>
      exact mem_parts_node (mem_walk_of_mem_renders (hSecond.subset (by simp)))
  | secondEnvironment hSecond =>
      exact mem_parts_node (List.mem_filter.mp (hSecond.subset (by simp))).1
  | unnamed hDefines _ => exact mem_parts_node (mem_walk_of_mem_definers hDefines)
  | definition hFirst hBlamed =>
      exact mem_parts_statement (mem_walk_of_mem_definers (List.mem_of_find?_eq_some hFirst))
        hBlamed.mem
  | environment hMem hBlamed => exact mem_parts_statement (List.mem_filter.mp hMem).1 hBlamed.mem
  | reached hReached _ => exact mem_parts_node (mem_walk_of_mem_reached hReached)
  | renderOption hRender _ _ => exact mem_parts_node (mem_walk_of_mem_renders hRender)
  | filmless hRender _ => exact mem_parts_node (mem_walk_of_mem_renders hRender)

/-! ### Render nodes and environments -/

/-- Where there is one render node, the nodes that are reached are those below it. -/
theorem reached_of_renders {render : Node} (h : g.renders = [render]) :
    g.reached = render.reached := by
  rw [reached, h, List.flatMap_singleton]

/-- The render node is found exactly if it is the only one. -/
theorem findRender_eq_ok_iff : g.findRender = .ok n ↔ g.renders = [n] := by
  unfold findRender renders
  generalize g.nodes.filter (fun n => n.kind = .render) = found
  rcases found with _ | ⟨first, _ | ⟨second, rest⟩⟩ <;> simp

/-- A missing render node has no line to blame. Of several ones the second is blamed. -/
theorem findRender_error {e : CompileError} (h : g.findRender = .error e) :
    e.defect = .missingRender ∧ g.renders = [] ∨
      ∃ first second, [first, second].Sublist g.renders ∧ e = ⟨.duplicateRender, second.line⟩ := by
  unfold findRender at h
  unfold renders
  generalize g.nodes.filter (fun n => n.kind = .render) = found at h ⊢
  rcases found with _ | ⟨first, _ | ⟨second, rest⟩⟩
  · cases h
    exact .inl ⟨rfl, rfl⟩
  · cases h
  · cases h
    exact .inr ⟨first, second, List.prefix_append [first, second] rest |>.sublist, rfl⟩

/-- The environment is found exactly if there is at most one. -/
theorem findEnvironment_eq_ok_iff {node : Option Node} :
    g.findEnvironment = .ok node ↔ g.environments = node.toList := by
  unfold findEnvironment environments
  generalize g.walk.filter (fun n => n.environmentBody?.isSome) = found
  rcases found with _ | ⟨first, _ | ⟨second, rest⟩⟩ <;> cases node <;> simp [eq_comm]

/-- Of several environments the second is blamed. -/
theorem findEnvironment_error {e : CompileError} (h : g.findEnvironment = .error e) :
    ∃ first second, [first, second].Sublist g.environments ∧
      e = ⟨.duplicateEnvironment, second.line⟩ := by
  unfold findEnvironment at h
  unfold environments
  generalize g.walk.filter (fun n => n.environmentBody?.isSome) = found at h ⊢
  rcases found with _ | ⟨first, _ | ⟨second, rest⟩⟩
  · cases h
  · cases h
  · cases h
    exact ⟨first, second, List.prefix_append [first, second] rest |>.sublist, rfl⟩

/-! ### Definitions -/

/-- Definitions are found unless a node that defines one has no name, which is then
reported at its line. -/
theorem definitionsAfter_cases (taken : List String) (nodes : List Node) :
    ((∀ n ∈ nodes, n.explicitName?.isSome = true) ∧
      ∃ definitions, definitionsAfter taken nodes = .ok definitions) ∨
    ∃ n ∈ nodes, n.explicitName? = none ∧
      definitionsAfter taken nodes = .error ⟨.missingName "Material", n.line⟩ := by
  induction nodes generalizing taken with
  | nil => exact .inl ⟨List.forall_mem_nil _, [], rfl⟩
  | cons n rest ih =>
      cases hName : n.explicitName? with
      | none => exact .inr ⟨n, List.mem_cons_self, hName, by rw [definitionsAfter, hName]⟩
      | some name =>
          have hSome : n.explicitName?.isSome = true := by rw [hName, Option.isSome_some]
          cases hTaken : taken.contains n.givenName with
          | true =>
              have hRest : definitionsAfter taken (n :: rest) = definitionsAfter taken rest := by
                simp only [definitionsAfter, hName, hTaken, if_true]
              rw [hRest]
              obtain ⟨hNamed, hFound⟩ | ⟨m, hm, hNone, hError⟩ := ih taken
              · exact .inl ⟨List.forall_mem_cons.mpr ⟨hSome, hNamed⟩, hFound⟩
              · exact .inr ⟨m, List.mem_cons_of_mem n hm, hNone, hError⟩
          | false =>
              obtain ⟨hNamed, more, hMore⟩ | ⟨m, hm, hNone, hError⟩ := ih (n.givenName :: taken)
              · refine .inl ⟨List.forall_mem_cons.mpr ⟨hSome, hNamed⟩,
                  ⟨n.givenName, n.line, n.surfaceBody?.getD []⟩ :: more, ?_⟩
                simp only [definitionsAfter, hName, hTaken, hMore, Bool.false_eq_true, if_false]
              · refine .inr ⟨m, List.mem_cons_of_mem n hm, hNone, ?_⟩
                simp only [definitionsAfter, hName, hTaken, hError, Bool.false_eq_true, if_false]

/-- A definition is made for the first node of its name, if that is not taken. Later nodes
of the name are left out without a fault. -/
theorem mem_definitionsAfter {taken : List String} {nodes : List Node}
    {definitions : List Definition} (h : definitionsAfter taken nodes = .ok definitions)
    (d : Definition) : d ∈ definitions ↔ d.name ∉ taken ∧ ∃ n,
      nodes.find? (fun n => n.givenName == d.name) = some n ∧
        d.line = n.line ∧ d.body = n.surfaceBody?.getD [] := by
  induction nodes generalizing taken definitions with
  | nil =>
      cases h
      simp
  | cons n rest ih =>
      unfold definitionsAfter at h
      split at h
      · cases h
      · rename_i name hName
        by_cases hSame : d.name = n.givenName
        · have hFound : (n :: rest).find? (fun n => n.givenName == d.name) = some n := by
            simp [hSame]
          rw [hFound]
          split at h
          · rename_i hTaken
            have hMem : d.name ∈ taken := hSame ▸ List.contains_iff_mem.mp hTaken
            rw [ih h]
            simp [hMem]
          · rename_i hFree
            split at h
            · cases h
            · rename_i more hMore
              cases h
              have hOther : d ∉ more := fun hMem => ((ih hMore).mp hMem).1 (hSame ▸ List.mem_cons_self)
              have hUntaken : d.name ∉ taken := fun hMem =>
                hFree (List.contains_iff_mem.mpr (hSame ▸ hMem))
              obtain ⟨own, line, body⟩ := d
              simp_all
        · have hLater : (n :: rest).find? (fun n => n.givenName == d.name) =
              rest.find? fun n => n.givenName == d.name := by
            simp [Ne.symm hSame]
          rw [hLater]
          split at h
          · exact ih h
          · split at h
            · cases h
            · rename_i more hMore
              cases h
              have hHead : d ≠ ⟨n.givenName, n.line, n.surfaceBody?.getD []⟩ := fun hEq =>
                hSame (congrArg Definition.name hEq)
              rw [List.mem_cons, or_iff_right hHead, ih hMore, List.mem_cons, not_or]
              simp [hSame]

variable {definitions : List Definition}

/-- The definitions of a graph are those of the first nodes of each name. -/
theorem mem_definitions (h : g.definitions = .ok definitions) (d : Definition) :
    d ∈ definitions ↔ ∃ n, g.definer? d.name = some n ∧ d.line = n.line ∧ d.body = n.body := by
  rw [mem_definitionsAfter h d, and_iff_right (by simp)]
  refine exists_congr fun n => and_congr_right fun hFirst => ?_
  rw [body_of_mem_definers (List.mem_of_find?_eq_some hFirst)]

/-- Names of materials are the names with a node that defines them. -/
theorem exists_definer?_iff {name : String} :
    (∃ n, g.definer? name = some n) ↔ name ∈ g.materialNames := by
  rw [← Option.isSome_iff_exists, definer?, List.find?_isSome, materialNames, List.mem_map]
  simp

/-- The materials that are registered are those of the nodes that define any. -/
theorem mem_names_definitions (h : g.definitions = .ok definitions) (name : String) :
    name ∈ definitions.map Definition.name ↔ name ∈ g.materialNames := by
  rw [← exists_definer?_iff, List.mem_map]
  constructor
  · rintro ⟨d, hMem, rfl⟩
    obtain ⟨n, hFirst, -⟩ := (mem_definitions h d).mp hMem
    exact ⟨n, hFirst⟩
  · rintro ⟨n, hFirst⟩
    exact ⟨⟨name, n.line, n.body⟩, (mem_definitions h _).mpr ⟨n, hFirst, rfl, rfl⟩, rfl⟩

/-! ### Bodies -/

/-- The faults of bodies are those of the statements that are blamed. Bodies of definitions
that were left out are not checked. -/
theorem exhibits_of_mem_bodyFaults (h : g.definitions = .ok definitions) {node : Option Node}
    (hEnvironment : g.findEnvironment = .ok node) {e : CompileError}
    (he : e ∈ bodyFaults definitions node) :
    ∃ s, s.line = e.line ∧ g.Exhibits time (.statement s) e.defect := by
  rcases List.mem_append.mp he with hDefinition | hNode
  · obtain ⟨d, hMem, hFault⟩ := List.mem_filterMap.mp hDefinition
    obtain ⟨n, hFirst, -, hBody⟩ := (mem_definitions h d).mp hMem
    obtain ⟨s, found, hBlamed, rfl⟩ := Material.blamed_of_bodyFault? hFault
    exact ⟨s, rfl, .definition hFirst (hBody ▸ hBlamed)⟩
  · cases node with
    | none => cases hNode
    | some n =>
        have hMem : n ∈ g.environments := by
          rw [findEnvironment_eq_ok_iff.mp hEnvironment]
          exact List.mem_singleton_self n
        obtain ⟨s, found, hBlamed, rfl⟩ :=
          Material.blamed_of_bodyFault? (Option.mem_toList.mp hNode)
        rw [body_of_mem_environments hMem] at hBlamed
        exact ⟨s, rfl, .environment hMem hBlamed⟩

/-- Where no body has a fault, all statements that count pass. Statements of definitions
that were left out do not count. -/
theorem allPass_of_bodyFaults (h : g.definitions = .ok definitions) {node : Option Node}
    (hEnvironment : g.findEnvironment = .ok node) (hNone : bodyFaults definitions node = []) :
    (∀ name n, g.definer? name = some n → ∃ after, Material.AllPass .surface [] n.body after) ∧
      ∀ n ∈ g.environments, ∃ after, Material.AllPass .environment [] n.body after := by
  obtain ⟨hDefinitions, hNode⟩ := bodyFaults_eq_nil_iff.mp hNone
  refine ⟨fun name n hFirst => ?_, fun n hMem => ?_⟩
  · exact Material.allPass_of_bodyFault? <| hDefinitions ⟨name, n.line, n.body⟩ <|
      (mem_definitions h _).mpr ⟨n, hFirst, rfl, rfl⟩
  · have hBody := body_of_mem_environments hMem
    rw [findEnvironment_eq_ok_iff.mp hEnvironment, Option.mem_toList] at hMem
    rw [hMem, Option.bind_some, Node.environmentFault?, hBody] at hNode
    exact Material.allPass_of_bodyFault? hNode

/-! ### Walks -/

/-- What the nodes that a walk comes to are blamed for is what they exhibit. -/
theorem exhibits_of_reachedFaults (h : g.definitions = .ok definitions) {e : CompileError} :
    Node.reachedFaults g.reached (definitions.map Definition.name) time e ↔
      ∃ n ∈ g.reached, n.line = e.line ∧ n.Exhibits g.materialNames time e.defect := by
  unfold Node.reachedFaults Node.faults
  simp only [Node.exhibits_congr (mem_names_definitions h), eq_comm]

/-- Registered are the names of the definitions, in their order. -/
theorem materials_registerAll (h : g.definitions = .ok definitions) (time : Float32) :
    ((Context.start time).registerAll definitions).materials = definitions.map Definition.name := by
  rw [Context.registerAll_of_nodup (c := .start time) (nodup_of_definitions h)]
  rfl

/-- Why the end of a traversal fails. Which of the reasons comes first is not said. -/
theorem finish_error {c : Context} {render : Node} {materials : List Material.Program}
    {environment : Option Material.Program} {statements : List Shader.Stmt} {e : CompileError}
    (h : c.finish render materials environment statements = .error e) :
    e ∈ c.errors ∨ c.entities.camera.isSome = false ∧ e = ⟨.missingCamera, render.line⟩ ∨
      render.renderOptions = .error e ∨
      Shader.Program.generate materials environment statements = .error e := by
  unfold Context.finish at h
  split at h
  · rename_i first rest hErrors
    cases h
    exact .inl (hErrors ▸ List.mem_cons_self)
  · split at h
    · rename_i hCamera
      cases h
      exact .inr (.inl ⟨by simpa using hCamera, rfl⟩)
    · split at h
      · rename_i found hOptions
        cases h
        exact .inr (.inr (.inl hOptions))
      · split at h
        · rename_i found hGenerate
          cases h
          exact .inr (.inr (.inr hGenerate))
        · cases h

/-- Why compiling fails where the structure of the graph is right. Generating code is never
the reason. -/
theorem compileAt_error {render : Node} {node : Option Node} {e : CompileError}
    (hRender : g.findRender = .ok render) (hDefinitions : g.definitions = .ok definitions)
    (hEnvironment : g.findEnvironment = .ok node) (h : g.compileAt time = .error e) :
    e ∈ bodyFaults definitions node ∨
      Node.reachedFaults render.reached (definitions.map Definition.name) time e ∨
      render.placesCamera = false ∧ e = ⟨.missingCamera, render.line⟩ ∨
      render.renderOptions = .error e := by
  obtain ⟨programs, environment, hPrograms, hProgram, hCompile⟩ :=
    compileAt_walk hRender hDefinitions hEnvironment
  let start : Context := { (Context.start time).registerAll definitions with
    errors := bodyFaults definitions node }
  have hMaterials : start.materials = definitions.map Definition.name :=
    materials_registerAll hDefinitions time
  have hTime : start.time = time := by
    simp only [start, Context.registerAll_eq]
    rfl
  have hCamera : (render.compile start).2.entities.camera.isSome = render.placesCamera := by
    have hStart : start.entities.camera = none := by
      simp only [start, Context.registerAll_eq]
      rfl
    have hWalk := render.visit_films (some []) start
    rwa [hStart, Option.isSome_none, Bool.false_or] at hWalk
  rw [hCompile time] at h
  obtain hError | ⟨hNone, rfl⟩ | hOptions | hGenerate := finish_error h
  · have hWalk := ((render.visit_reports (some [])).errors start e).mp hError
    rw [hMaterials, hTime] at hWalk
    exact hWalk.imp_right .inl
  · exact .inr (.inr (.inl ⟨hCamera ▸ hNone, rfl⟩))
  · exact .inr (.inr (.inr hOptions))
  · obtain ⟨program, hFound⟩ :=
      Shader.Program.exists_generate (render.compile start).1 hPrograms hProgram
    cases hFound.symm.trans hGenerate

/-! ### The verdict -/

/-- An error behind the checks of the structure is about a part on its line. It may be a
node or a statement, and the error has its defect. -/
theorem exhibits_of_compileAt_structured {render : Node} {node : Option Node} {e : CompileError}
    (hRender : g.findRender = .ok render) (hDefinitions : g.definitions = .ok definitions)
    (hEnvironment : g.findEnvironment = .ok node) (h : g.compileAt time = .error e) :
    ∃ part, part.line = e.line ∧ g.Exhibits time part e.defect := by
  have hRenders : g.renders = [render] := findRender_eq_ok_iff.mp hRender
  have hMem : render ∈ g.renders := hRenders ▸ List.mem_singleton_self render
  obtain hBody | hWalk | ⟨hCamera, rfl⟩ | hOptions :=
    compileAt_error hRender hDefinitions hEnvironment h
  · obtain ⟨s, hLine, hExhibits⟩ := exhibits_of_mem_bodyFaults hDefinitions hEnvironment hBody
    exact ⟨.statement s, hLine, hExhibits⟩
  · rw [← reached_of_renders hRenders, exhibits_of_reachedFaults hDefinitions] at hWalk
    obtain ⟨n, hn, hLine, hExhibits⟩ := hWalk
    exact ⟨.node n, hLine, .reached hn hExhibits⟩
  · refine ⟨.node render, rfl, .filmless hMem fun m hm kind hKind => ?_⟩
    rw [render.placesCamera_iff.mpr ⟨m, hm, kind, hKind⟩] at hCamera
    cases hCamera
  · obtain ⟨-, options, hRead⟩ | ⟨read, hRead, d, hMisfits, hError⟩ := render.renderOptions_cases
    · cases hRead.symm.trans hOptions
    · cases hError.symm.trans hOptions
      exact ⟨.node render, rfl, .renderOption hMem hRead hMisfits⟩

/-- Compiling fails where there is no render node, or with what a part on the line of the
error exhibits. -/
theorem exhibits_of_compileAt {e : CompileError} (h : g.compileAt time = .error e) :
    e.defect = .missingRender ∧ g.renders = [] ∨
      ∃ part, part.line = e.line ∧ g.Exhibits time part e.defect := by
  cases hRender : g.findRender with
  | error found =>
      simp only [compileAt, hRender] at h
      cases h
      obtain hMissing | ⟨first, second, hSecond, rfl⟩ := findRender_error hRender
      · exact .inl hMissing
      · exact .inr ⟨.node second, rfl, .secondRender hSecond⟩
  | ok render =>
      obtain ⟨-, definitions, hDefinitions⟩ | ⟨n, hMem, hName, hError⟩ :=
        definitionsAfter_cases [] g.definers
      · replace hDefinitions : g.definitions = .ok definitions := hDefinitions
        cases hEnvironment : g.findEnvironment with
        | error found =>
            simp only [compileAt, hRender, hDefinitions, hEnvironment] at h
            cases h
            obtain ⟨first, second, hSecond, rfl⟩ := findEnvironment_error hEnvironment
            exact .inr ⟨.node second, rfl, .secondEnvironment hSecond⟩
        | ok node =>
            exact .inr (exhibits_of_compileAt_structured hRender hDefinitions hEnvironment h)
      · replace hError : g.definitions = .error ⟨.missingName "Material", n.line⟩ := hError
        simp only [compileAt, hRender, hError] at h
        cases h
        exact .inr ⟨.node n, rfl, .unnamed hMem hName⟩

/-- No part of a sound graph has a defect. -/
theorem Sound.not_exhibits (h : g.Sound time) (part : Part) (d : Defect) :
    ¬ g.Exhibits time part d := by
  intro hExhibits
  cases hExhibits with
  | secondRender hSecond =>
      have hLength := hSecond.length_le
      rw [h.render] at hLength
      simp at hLength
  | secondEnvironment hSecond =>
      have hLength := hSecond.length_le.trans h.environments
      simp at hLength
  | unnamed hDefines hName =>
      have hSome := h.named _ hDefines
      rw [hName] at hSome
      cases hSome
  | definition hFirst hBlamed =>
      obtain ⟨after, hPass⟩ := h.definitions _ _ hFirst
      exact hBlamed.not_allPass hPass
  | environment hMem hBlamed =>
      obtain ⟨after, hPass⟩ := h.environment _ hMem
      exact hBlamed.not_allPass hPass
  | reached hReached hNode =>
      cases hNode with
      | option hRead hMisfits => exact Options.fits_iff.mp (h.options _ hReached _ hRead) _ hMisfits
      | direction hKind hGiven hZero =>
          obtain ⟨given, direction, hFound, hUnit⟩ := h.directions _ hReached hKind
          cases hGiven.symm.trans hFound
          cases hZero.symm.trans hUnit
      | reference hName hUnknown => exact hUnknown (h.references _ hReached _ hName)
      | unlit hKind hNone =>
          have hSome := h.lights _ hReached hKind
          rw [hNone] at hSome
          cases hSome
  | renderOption hRender hRead hMisfits =>
      exact Options.fits_iff.mp (h.renderOptions _ hRender _ hRead) _ hMisfits
  | @filmless render hRender hNone =>
      obtain ⟨only, hRenders⟩ := List.length_eq_one_iff.mp h.render
      obtain ⟨n, hReached, kind, hKind⟩ := h.camera
      rw [hRenders] at hRender
      rw [reached_of_renders hRenders, ← List.mem_singleton.mp hRender] at hReached
      exact hNone n hReached kind hKind

/-- Where a walk meets no fault, the nodes that it comes to exhibit none. This is the other
direction: no defect of a node that is reached goes unreported. -/
theorem not_exhibits_of_walkedAt {render : Node} (hRenders : g.renders = [render])
    (hDefinitions : g.definitions = .ok definitions)
    (hErrors : (walkedAt render definitions time).errors = []) (hReached : n ∈ g.reached)
    (d : Defect) : ¬ n.Exhibits g.materialNames time d := by
  intro hExhibits
  have hFaults : Node.reachedFaults g.reached (definitions.map Definition.name) time ⟨d, n.line⟩ :=
    (exhibits_of_reachedFaults hDefinitions).mpr ⟨n, hReached, rfl, hExhibits⟩
  rw [reached_of_renders hRenders] at hFaults
  have hWalk := (render.visit_reports none).errors ((Context.start time).registerAll definitions)
    ⟨d, n.line⟩
  have hTime : ((Context.start time).registerAll definitions).time = time := by
    rw [Context.registerAll_eq]
    rfl
  rw [materials_registerAll hDefinitions, hTime] at hWalk
  have hMem : (⟨d, n.line⟩ : CompileError) ∈ (walkedAt render definitions time).errors :=
    hWalk.mpr (.inr hFaults)
  rw [hErrors] at hMem
  cases hMem

/-- A graph that compiles is sound. -/
theorem sound_of_compileAt {s : Scene} (h : g.compileAt time = .ok s) : g.Sound time := by
  obtain ⟨render, definitions, node, hRender, hDefinitions, hEnvironment⟩ := compileAt_parts h
  obtain ⟨hBodies, hErrors, hCamera, options, hOptions⟩ :=
    (compileAt_ok_iff hRender hDefinitions hEnvironment time).mp ⟨s, h⟩
  have hRenders : g.renders = [render] := findRender_eq_ok_iff.mp hRender
  have hClean {n : Node} (hn : n ∈ g.reached) (d : Defect) : ¬ n.Exhibits g.materialNames time d :=
    not_exhibits_of_walkedAt hRenders hDefinitions hErrors hn d
  obtain ⟨hSurfaces, hEnvironments⟩ := allPass_of_bodyFaults hDefinitions hEnvironment hBodies
  have hFits {n : Node} (hn : n ∈ g.reached) {read : String × ValueType} (hRead : read ∈ n.reads) :
      n.options.Fits read.1 read.2 time :=
    Options.fits_iff.mpr fun d hMisfits => hClean hn d (.option hRead hMisfits)
  constructor
  case render => rw [hRenders, List.length_singleton]
  case named =>
    obtain ⟨hNamed, -⟩ | ⟨n, -, -, hError⟩ := definitionsAfter_cases [] g.definers
    · exact hNamed
    · cases hDefinitions.symm.trans hError
  case environments =>
    rw [findEnvironment_eq_ok_iff.mp hEnvironment]
    cases node <;> simp
  case definitions => exact hSurfaces
  case environment => exact hEnvironments
  case options => exact fun n hn read hRead => hFits hn hRead
  case renderOptions =>
    obtain ⟨hRead, -⟩ | ⟨read, -, d, -, hError⟩ := render.renderOptions_cases
    · rwa [hRenders, List.forall_mem_singleton]
    · cases hOptions.symm.trans hError
  case directions =>
    intro n hn hKind
    have hRead : (n.directionOption, ValueType.float3) ∈ n.reads := by
      rw [Node.reads, hKind]
      exact List.mem_cons_self
    cases hGiven : n.options.float3 n.directionOption ⟨0.0, 1.0, -1.0⟩ time with
    | error d =>
        exact absurd ((Options.float3_eq_error_iff _).mp hGiven)
          (Options.fits_iff.mp (hFits hn hRead) d)
    | ok given =>
        cases hUnit : given.normalize? with
        | none => exact absurd (.direction hKind hGiven hUnit) (hClean hn _)
        | some direction => exact ⟨given, direction, hGiven, hUnit⟩
  case references =>
    exact fun n hn name hName => by_contra fun hUnknown => hClean hn _ (.reference hName hUnknown)
  case lights =>
    intro n hn hKind
    rw [Option.isSome_iff_ne_none]
    exact fun hNone => hClean hn _ (.unlit hKind hNone)
  case camera =>
    rw [reached_of_renders hRenders]
    exact render.placesCamera_iff.mp hCamera

/-- A graph compiles exactly if it is sound. This is the half of the verdict that does not
speak of lines. -/
theorem compiles_iff_sound : (∃ s, g.compileAt time = .ok s) ↔ g.Sound time := by
  refine ⟨fun ⟨s, h⟩ => sound_of_compileAt h, fun hSound => ?_⟩
  cases h : g.compileAt time with
  | ok s => exact ⟨s, rfl⟩
  | error e =>
      obtain ⟨-, hNone⟩ | ⟨part, -, hExhibits⟩ := exhibits_of_compileAt h
      · have hLength := hSound.render
        rw [hNone] at hLength
        cases hLength
      · exact absurd hExhibits (hSound.not_exhibits part _)

/-- A graph compiles if and only if it is sound. Where its nodes and statements are on lines
of their own, any other error than that of a missing render node is on the line of exactly
one of them, and that one has the defect. Soundness is told from the graph without running
the compiler. Which of several defects is reported is not said. -/
theorem compileAt_verdict (g : SceneGraph) (hLines : (g.parts.map Part.line).Nodup)
    (time : Float32) :
    ((∃ s, g.compileAt time = .ok s) ↔ g.Sound time) ∧
      ∀ e, g.compileAt time = .error e → e.defect ≠ .missingRender →
        ∃ part ∈ g.parts, part.line = e.line ∧ g.Exhibits time part e.defect ∧
          ∀ other ∈ g.parts, other.line = e.line → other = part := by
  refine ⟨compiles_iff_sound, fun e h hRender => ?_⟩
  obtain ⟨part, hLine, hExhibits⟩ :=
    (exhibits_of_compileAt h).resolve_left fun hMissing => hRender hMissing.1
  have hMem := hExhibits.mem_parts
  refine ⟨part, hMem, hLine, hExhibits, fun other hOther hSame => ?_⟩
  exact List.inj_on_of_nodup_map hLines hOther hMem (hSame.trans hLine.symm)

/-- A camera and a sphere light without a material. -/
theorem compileAt_verdict_unlit :
    let light : Node := .new (.light .sphere) .empty 3 []
    let g : SceneGraph := ⟨[.new .render .empty 1 [.new (.camera .perspective) .empty 2 [], light]]⟩
    g.compileAt 0.0 = .error ⟨.missingLightMaterial, 3⟩ ∧ ¬ g.Sound 0.0 ∧
      g.Exhibits 0.0 (.node light) .missingLightMaterial := by
  intro light g
  have hLines : (g.parts.map Part.line).Nodup := by decide
  have hError : g.compileAt 0.0 = .error ⟨.missingLightMaterial, 3⟩ := rfl
  obtain ⟨hSound, hBlame⟩ := compileAt_verdict g hLines 0.0
  obtain ⟨part, -, -, hExhibits, hOnly⟩ := hBlame _ hError (by decide)
  have hMem : light ∈ g.walk := .tail _ (.tail _ (.head _))
  have hLight : Part.node light = part := hOnly _ (mem_parts_node hMem) rfl
  refine ⟨hError, fun h => ?_, hLight ▸ hExhibits⟩
  obtain ⟨s, hScene⟩ := hSound.mpr h
  cases hError.symm.trans hScene

end SceneGraph

end PathTracer
