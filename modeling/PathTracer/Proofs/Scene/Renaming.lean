import Mathlib.Data.List.Forall2
import PathTracer.Scene.Compile

/-! Graphs of one structure under different names. What a graph says apart from
its names, its lines and the values of its options is the same in both. -/
namespace PathTracer

/-! ### Lines -/

/-- A statement wherever it stands. -/
def Statement.unplaced (s : Statement) : Statement :=
  { s with line := 0 }

/-- A kind of node wherever its statements stand. -/
def NodeKind.unplaced : NodeKind → NodeKind
  | material role body => material role (body.map Statement.unplaced)
  | kind => kind

/-- Kinds that differ in lines alone are the same, but for the bodies of materials. -/
theorem NodeKind.cases_of_unplaced {k k' : NodeKind} (h : k'.unplaced = k.unplaced) :
    k' = k ∨ ∃ role body body', k = .material role body ∧ k' = .material role body' ∧
      body'.map Statement.unplaced = body.map Statement.unplaced := by
  cases k with
  | material role body =>
      cases k' with
      | material role' body' =>
          obtain ⟨rfl, hBody⟩ := NodeKind.material.inj h
          exact .inr ⟨role', body, body', rfl, rfl, hBody⟩
      | _ => cases h
  | _ =>
      cases k' with
      | material role' body' => cases h
      | _ => exact .inl h

/-- Kinds that are the same up to lines are the same, unless they have statements. -/
theorem NodeKind.eq_of_unplaced {k k' : NodeKind} (h : k'.unplaced = k.unplaced)
    (hOther : ∀ role body, k ≠ .material role body) : k' = k := by
  obtain hSame | ⟨role, body, _, hKind, _⟩ := cases_of_unplaced h
  · exact hSame
  · exact absurd hKind (hOther role body)

/-- What is a material up to lines is a material with the same role. -/
theorem NodeKind.exists_material_of_unplaced {role : MaterialRole} {body : List Statement}
    {k' : NodeKind} (h : k'.unplaced = (material role body).unplaced) :
    ∃ body', k' = .material role body' := by
  obtain hSame | ⟨_, _, body', hKind, hKind', _⟩ := cases_of_unplaced h
  · exact ⟨body, hSame⟩
  · cases hKind
    exact ⟨body', hKind'⟩

/-- Kinds that are the same up to lines have one name. -/
theorem NodeKind.name_of_unplaced {k k' : NodeKind} (h : k'.unplaced = k.unplaced) :
    k'.name = k.name := by
  obtain rfl | ⟨role, body, body', rfl, rfl, _⟩ := cases_of_unplaced h
  · rfl
  · cases role <;> rfl

/-! ### Names -/

/-- Other names for materials, none of which two of them share, and what a comment
may say in place of what another one says. -/
structure Renaming where
  material : String → String
  injective : Function.Injective material
  allows : String → String → Prop
  allows_quoted (kind : NodeKind) {x y : String} :
    allows x y → allows s!"{kind.name} '{x}'" s!"{kind.name} '{y}'"

namespace Renaming

/-- All names stay. -/
def same : Renaming where
  material := id
  injective := Function.injective_id
  allows := Eq
  allows_quoted kind := by
    rintro x _ rfl
    rfl

/-- Materials get other names, and so may anything else. -/
def ofMaterials (material : String → String) (injective : Function.Injective material) :
    Renaming where
  material := material
  injective := injective
  allows _ _ := True
  allows_quoted _ _ _ _ := trivial

variable (r : Renaming)

/-- A renaming does not put two names together. -/
theorem eq_iff {x y : String} : r.material x = r.material y ↔ x = y :=
  r.injective.eq_iff

/-- Where a name stands in a list is where its new name stands among the new names. -/
theorem findIdx?_map (names : List String) (name : String) :
    (names.map r.material).findIdx? (· == r.material name) = names.findIdx? (· == name) := by
  rw [List.findIdx?_map]
  apply congrArg (List.findIdx? · names)
  funext x
  exact decide_eq_decide.mpr r.eq_iff

/-- A name is among names exactly if it is among them renamed. -/
theorem contains_map (names : List String) (name : String) :
    (names.map r.material).contains (r.material name) = names.contains name := by
  rw [Bool.eq_iff_iff, List.contains_iff_mem, List.contains_iff_mem,
    List.mem_map_of_injective r.injective]

end Renaming

/-! ### Nodes -/

namespace Node

/-- The material that a node names: the one that it is, or makes active, or emits
with. Other nodes name none. -/
def materialName? (n : Node) : Option String :=
  match n.kind with
  | .material .surface _ => n.explicitName?
  | .object _ => n.options.text? "Material"
  | .light .sphere => n.options.text? "Material"
  | _ => none

/-- Nodes of one kind under different names. Their lines, their leaves and their
other options may be any. A material is known by the name that it was made with and
refers to the one that its options give, and both of them are renamed. -/
structure Renamed (r : Renaming) (n n' : Node) : Prop where
  kind : n'.kind.unplaced = n.kind.unplaced
  material : n'.materialName? = n.materialName?.map r.material
  known : n.surfaceBody?.isSome = true → n.explicitName?.isSome = true →
    n'.givenName = r.material n.givenName
  label : r.allows n.givenName n'.givenName

/-- A node that is a material names itself. -/
theorem materialName?_of_surface {n : Node} (h : n.surfaceBody?.isSome = true) :
    n.materialName? = n.explicitName? := by
  unfold surfaceBody? at h
  unfold materialName?
  split at h
  · rename_i hKind
    rw [hKind]
  · cases h

/-- Whether a node is a surface does not depend on lines. -/
theorem surfaceBody?_isSome_of_unplaced {n n' : Node}
    (h : n'.kind.unplaced = n.kind.unplaced) :
    n'.surfaceBody?.isSome = n.surfaceBody?.isSome := by
  unfold surfaceBody?
  obtain hKind | ⟨role, body, body', hKind, hKind', _⟩ := NodeKind.cases_of_unplaced h
  · rw [hKind]
  · rw [hKind, hKind']
    cases role <;> rfl

/-- Nodes with the names that their options give are renamed where the options are. -/
theorem Renamed.of_isNamed {r : Renaming} {n n' : Node} (hNamed : n.IsNamed)
    (hNamed' : n'.IsNamed) (hKind : n'.kind.unplaced = n.kind.unplaced)
    (hMaterial : n'.materialName? = n.materialName?.map r.material)
    (hLabel : r.allows n.givenName n'.givenName) : n.Renamed r n' := by
  refine ⟨hKind, hMaterial, fun hSurface hName => ?_, hLabel⟩
  have hSurface' : n'.surfaceBody?.isSome = true := by
    rw [surfaceBody?_isSome_of_unplaced hKind, hSurface]
  rw [materialName?_of_surface hSurface, materialName?_of_surface hSurface'] at hMaterial
  obtain ⟨name, hSome⟩ := Option.isSome_iff_exists.mp hName
  rw [IsNamed, hSome] at hNamed
  rw [IsNamed, hMaterial, hSome] at hNamed'
  rw [hNamed, hNamed']
  rfl

/-- Nodes of one kind with one name that refer to one material. Their lines, their
leaves and their other options may be any. Options that agree on the name give one name
to nodes that are as they were made. Where options were exchanged since then, the names
that the nodes have kept are to be the same as well. -/
structure SameShape (n n' : Node) : Prop where
  kind : n'.kind.unplaced = n.kind.unplaced
  name : n'.options.get? "Name" = n.options.get? "Name"
  material : n'.options.get? "Material" = n.options.get? "Material"
  kept : n.IsNamed ∧ n'.IsNamed ∨ n'.givenName = n.givenName

theorem SameShape.refl (n : Node) : n.SameShape n :=
  ⟨rfl, rfl, rfl, .inr rfl⟩

/-- Nodes of one shape are named alike. -/
theorem SameShape.explicitName? {n n' : Node} (h : n.SameShape n') :
    n'.explicitName? = n.explicitName? := by
  rw [Node.explicitName?, Node.explicitName?, Options.text?, Options.text?, h.name]

/-- Nodes of one shape keep one given name, whatever is set as an option later. -/
theorem SameShape.givenName {n n' : Node} (h : n.SameShape n') : n'.givenName = n.givenName := by
  obtain ⟨hNamed, hNamed'⟩ | hSame := h.kept
  · rw [hNamed, hNamed', h.explicitName?, NodeKind.name_of_unplaced h.kind]
  · exact hSame

/-- Nodes of one shape are renamed by nothing. -/
theorem SameShape.renamed {n n' : Node} (h : n.SameShape n') : n.Renamed .same n' := by
  have hMaterial : n'.options.text? "Material" = n.options.text? "Material" := by
    rw [Options.text?, Options.text?, h.material]
  refine ⟨h.kind, ?_, fun _ _ => h.givenName, h.givenName.symm⟩
  · show n'.materialName? = n.materialName?.map id
    rw [Option.map_id_fun, id]
    unfold materialName?
    obtain hKind | ⟨role, body, body', hKind, hKind', _⟩ := NodeKind.cases_of_unplaced h.kind
    · rw [hKind, h.explicitName?, hMaterial]
    · rw [hKind, hKind', h.explicitName?]
      cases role <;> rfl

namespace Renamed

variable {r : Renaming} {n n' : Node}

/-- Renaming leaves the statements of a surface, up to their lines. -/
theorem surfaceBody? (h : n.Renamed r n') :
    n'.surfaceBody?.map (List.map Statement.unplaced) =
      n.surfaceBody?.map (List.map Statement.unplaced) := by
  unfold Node.surfaceBody?
  obtain hKind | ⟨role, body, body', hKind, hKind', hBody⟩ := NodeKind.cases_of_unplaced h.kind
  · rw [hKind]
  · rw [hKind, hKind']
    cases role with
    | surface => exact congrArg some hBody
    | environment => rfl

/-- Renaming leaves the statements of an environment, up to their lines. -/
theorem environmentBody? (h : n.Renamed r n') :
    n'.environmentBody?.map (List.map Statement.unplaced) =
      n.environmentBody?.map (List.map Statement.unplaced) := by
  unfold Node.environmentBody?
  obtain hKind | ⟨role, body, body', hKind, hKind', hBody⟩ := NodeKind.cases_of_unplaced h.kind
  · rw [hKind]
  · rw [hKind, hKind']
    cases role with
    | surface => rfl
    | environment => exact congrArg some hBody

/-- A renamed node has statements where the node has some. -/
theorem hasSurfaceBody (h : n.Renamed r n') : n'.hasSurfaceBody = n.hasSurfaceBody := by
  have hBody := h.surfaceBody?
  unfold Node.hasSurfaceBody
  cases hFirst : n.surfaceBody? with
  | none =>
      rw [hFirst, Option.map_none, Option.map_eq_none_iff] at hBody
      rw [hBody]
  | some body =>
      rw [hFirst, Option.map_some, Option.map_eq_some_iff] at hBody
      obtain ⟨body', hSecond, hSame⟩ := hBody
      have hEmpty : body'.isEmpty = body.isEmpty := by
        rw [← List.isEmpty_map, hSame, List.isEmpty_map]
      rw [hSecond]
      exact congrArg not hEmpty

/-- The name of a surface is the renamed one. Names of other nodes are free. -/
theorem explicitName? (h : n.Renamed r n') (hSurface : n.surfaceBody?.isSome = true) :
    n'.explicitName? = n.explicitName?.map r.material := by
  have hSurface' : n'.surfaceBody?.isSome = true := by
    rw [surfaceBody?_isSome_of_unplaced h.kind, hSurface]
  rw [← materialName?_of_surface hSurface', h.material, materialName?_of_surface hSurface]

end Renamed

/-! ### Trees -/

mutual

/-- Trees of one form whose nodes are in a relation, each with the one in its place. -/
inductive Paired (R : Node → Node → Prop) : Node → Node → Prop where
  | node {n n' : Node} (hNode : R n n') (hLeaves : AllPaired R n.leaves n'.leaves) : Paired R n n'

inductive AllPaired (R : Node → Node → Prop) : List Node → List Node → Prop where
  | nil : AllPaired R [] []
  | cons {n n' : Node} {rest rest' : List Node} (hFirst : Paired R n n')
      (hRest : AllPaired R rest rest') : AllPaired R (n :: rest) (n' :: rest')

end

section Paired

variable {R S : Node → Node → Prop}

/-- Nodes that are paired are related. -/
theorem Paired.related {n n' : Node} (h : Paired R n n') : R n n' := by
  obtain ⟨hNode, _⟩ := h
  exact hNode

/-- Children of paired nodes are paired in their order. -/
theorem Paired.leaves {n n' : Node} (h : Paired R n n') : AllPaired R n.leaves n'.leaves := by
  obtain ⟨_, hLeaves⟩ := h
  exact hLeaves

/-- Paired siblings correspond one to one. -/
theorem AllPaired.forall₂ : {nodes nodes' : List Node} → AllPaired R nodes nodes' →
    List.Forall₂ (Paired R) nodes nodes'
  | [], _, h => by
      cases h
      exact .nil
  | _ :: _, _, h => by
      obtain _ | ⟨hFirst, hRest⟩ := h
      exact .cons hFirst hRest.forall₂

mutual

/-- What is paired by a relation is paired by any weaker one. -/
theorem Paired.mono (hMono : ∀ {n n'}, R n n' → S n n') :
    (n n' : Node) → Paired R n n' → Paired S n n'
  | ⟨_, _, _, _, leaves⟩, _, h => .node (hMono h.related) (AllPaired.mono hMono leaves _ h.leaves)

/-- Siblings that are paired by a relation are paired by any weaker one. -/
theorem AllPaired.mono (hMono : ∀ {n n'}, R n n' → S n n') :
    (nodes nodes' : List Node) → AllPaired R nodes nodes' → AllPaired S nodes nodes'
  | [], _, h => by
      cases h
      exact .nil
  | n :: rest, _, h => by
      obtain _ | ⟨hFirst, hRest⟩ := h
      exact .cons (Paired.mono hMono n _ hFirst) (AllPaired.mono hMono rest _ hRest)

end

mutual

/-- A tree is paired with itself where all its nodes are in relation to themselves. -/
theorem Paired.refl : (n : Node) → (∀ m ∈ walk n, R m m) → Paired R n n
  | ⟨kind, options, name, line, leaves⟩, h => by
      rw [walk] at h
      obtain ⟨hNode, hLeaves⟩ := List.forall_mem_cons.mp h
      exact .node hNode (AllPaired.refl leaves hLeaves)

/-- Siblings are paired with themselves where the relation holds of each node with itself.
-/
theorem AllPaired.refl : (nodes : List Node) → (∀ m ∈ walkAll nodes, R m m) →
    AllPaired R nodes nodes
  | [], _ => .nil
  | n :: rest, h => by
      rw [walkAll, List.forall_mem_append] at h
      exact .cons (Paired.refl n h.1) (AllPaired.refl rest h.2)

end

mutual

/-- Walks of paired nodes correspond place by place. The induction is on the first node,
with its children. -/
theorem Paired.walk : (n n' : Node) → Paired R n n' → List.Forall₂ R (walk n) (walk n')
  | ⟨_, _, _, _, _⟩, ⟨_, _, _, _, _⟩, h => by
      rw [Node.walk, Node.walk]
      exact .cons h.related (AllPaired.walkAll _ _ h.leaves)

/-- Walks of paired siblings correspond place by place. -/
theorem AllPaired.walkAll : (nodes nodes' : List Node) → AllPaired R nodes nodes' →
    List.Forall₂ R (walkAll nodes) (walkAll nodes')
  | [], _, h => by
      cases h
      rw [Node.walkAll]
      exact .nil
  | n :: rest, _, h => by
      obtain _ | ⟨hFirst, hRest⟩ := h
      rw [Node.walkAll, Node.walkAll]
      exact List.rel_append (Paired.walk n _ hFirst) (AllPaired.walkAll rest _ hRest)

end

end Paired

/-- A search that cannot tell related nodes apart picks related ones. -/
theorem forall₂_filter {R : Node → Node → Prop} {p : Node → Bool}
    (hSame : ∀ n n', R n n' → p n' = p n) {nodes nodes' : List Node}
    (h : List.Forall₂ R nodes nodes') : List.Forall₂ R (nodes.filter p) (nodes'.filter p) := by
  refine List.rel_filter (fun n n' hNode => ?_) h
  change p n = true ↔ p n' = true
  rw [hSame n n' hNode]

/-- Renamed nodes have definers that are renamed, in the same order. -/
theorem Paired.definers {r : Renaming} {n n' : Node} (h : Paired (Renamed r) n n') :
    List.Forall₂ (Renamed r) n.definers n'.definers := by
  unfold Node.definers
  apply List.rel_append
  · rw [surfaceBody?_isSome_of_unplaced h.related.kind]
    split
    · exact .cons h.related .nil
    · exact .nil
  · exact forall₂_filter (fun _ _ hNode => hNode.hasSurfaceBody) (AllPaired.walkAll _ _ h.leaves)

/-- What defines a material has the statements of a surface. -/
theorem surfaceBody?_of_mem_definers {root n : Node} (h : n ∈ root.definers) :
    n.surfaceBody?.isSome = true := by
  unfold definers at h
  rcases List.mem_append.mp h with hRoot | hBelow
  · split at hRoot
    · rename_i hSurface
      rw [List.mem_singleton.mp hRoot]
      exact hSurface
    · cases hRoot
  · have hBody := (List.mem_filter.mp hBelow).2
    unfold Node.hasSurfaceBody at hBody
    split at hBody
    · rename_i hSome
      rw [hSome]
      rfl
    · cases hBody

end Node

/-! ### Graphs -/

/-- Materials of one body under names that a renaming relates. -/
structure Definition.Renamed (r : Renaming) (d d' : Definition) : Prop where
  name : d'.name = r.material d.name
  label : r.allows d.name d'.name
  body : d'.body.map Statement.unplaced = d.body.map Statement.unplaced

/-- The materials that two related nodes define. Lines are left out, as they are no part of
the code. -/
theorem Node.Renamed.definition {r : Renaming} {n n' : Node} (h : n.Renamed r n')
    (hSurface : n.surfaceBody?.isSome = true) (hName : n.explicitName?.isSome = true) :
    Definition.Renamed r ⟨n.givenName, n.line, n.surfaceBody?.getD []⟩
      ⟨n'.givenName, n'.line, n'.surfaceBody?.getD []⟩ := by
  refine ⟨h.known hSurface hName, h.label, ?_⟩
  have hBody := h.surfaceBody?
  obtain ⟨body, hSome⟩ := Option.isSome_iff_exists.mp hSurface
  rw [hSome, Option.map_some, Option.map_eq_some_iff] at hBody
  obtain ⟨body', hSome', hSame⟩ := hBody
  rw [hSome, hSome']
  exact hSame

namespace SceneGraph

variable {r : Renaming} {g g' : SceneGraph}

/-- Graphs of one structure under different names. -/
def Renamed (r : Renaming) (g g' : SceneGraph) : Prop :=
  Node.AllPaired (Node.Renamed r) g.nodes g'.nodes

/-- A name is taken under a renaming where it is taken before, so that the same nodes
define materials. -/
theorem definitionsAfter_renamed {nodes nodes' : List Node}
    (h : List.Forall₂ (Node.Renamed r) nodes nodes')
    (hSurface : ∀ n ∈ nodes, n.surfaceBody?.isSome = true) {taken : List String}
    {definitions definitions' : List Definition}
    (hDefinitions : definitionsAfter taken nodes = .ok definitions)
    (hDefinitions' : definitionsAfter (taken.map r.material) nodes' = .ok definitions') :
    List.Forall₂ (Definition.Renamed r) definitions definitions' := by
  induction h generalizing taken definitions definitions' with
  | nil =>
      cases hDefinitions
      cases hDefinitions'
      exact .nil
  | @cons n n' rest rest' hFirst _ ih =>
      obtain ⟨hHere, hRest⟩ := List.forall_mem_cons.mp hSurface
      have hName' := hFirst.explicitName? hHere
      rw [definitionsAfter] at hDefinitions hDefinitions'
      split at hDefinitions
      · cases hDefinitions
      · rename_i name hName
        rw [hName, Option.map_some] at hName'
        have hSome : n.explicitName?.isSome = true := by rw [hName, Option.isSome_some]
        have hKnown := hFirst.known hHere hSome
        rw [hName'] at hDefinitions'
        dsimp only at hDefinitions'
        rw [hKnown, r.contains_map] at hDefinitions'
        split at hDefinitions
        · rename_i hTaken
          rw [if_pos hTaken] at hDefinitions'
          exact ih hRest hDefinitions hDefinitions'
        · rename_i hTaken
          rw [if_neg hTaken] at hDefinitions'
          split at hDefinitions
          · cases hDefinitions
          · rename_i more hMore
            split at hDefinitions'
            · cases hDefinitions'
            · rename_i more' hMore'
              cases hDefinitions
              cases hDefinitions'
              exact .cons (hKnown ▸ hFirst.definition hHere hSome) (ih hRest hMore hMore')

/-- The definitions of a renamed graph are the renamed definitions, in their order. Names
are taken by the first definition on both sides, since a renaming keeps names apart. -/
theorem Renamed.definitions (h : g.Renamed r g') {definitions definitions' : List Definition}
    (hDefinitions : g.definitions = .ok definitions)
    (hDefinitions' : g'.definitions = .ok definitions') :
    List.Forall₂ (Definition.Renamed r) definitions definitions' := by
  have hDefiners : List.Forall₂ (Node.Renamed r) (g.nodes.flatMap Node.definers)
      (g'.nodes.flatMap Node.definers) :=
    List.rel_flatMap (Node.AllPaired.forall₂ h) fun _ _ hNode => hNode.definers
  refine definitionsAfter_renamed hDefiners (fun n hn => ?_) hDefinitions hDefinitions'
  obtain ⟨root, _, hRoot⟩ := List.mem_flatMap.mp hn
  exact Node.surfaceBody?_of_mem_definers hRoot

/-- The render nodes of a graph and a renamed one are paired. -/
theorem Renamed.findRender (h : g.Renamed r g') {render render' : Node}
    (hRender : g.findRender = .ok render) (hRender' : g'.findRender = .ok render') :
    render.Paired (Node.Renamed r) render' := by
  have hFilter : List.Forall₂ (Node.Paired (Node.Renamed r))
      (g.nodes.filter fun n => n.kind = .render) (g'.nodes.filter fun n => n.kind = .render) := by
    refine Node.forall₂_filter (fun n n' hNode => ?_) (Node.AllPaired.forall₂ h)
    obtain hSame | ⟨_, _, _, hKind, hKind', _⟩ := NodeKind.cases_of_unplaced hNode.related.kind
    · rw [hSame]
    · rw [hKind, hKind']
      rfl
  unfold SceneGraph.findRender at hRender hRender'
  split at hRender
  · cases hRender
  · rename_i hFound
    split at hRender'
    · cases hRender'
    · rename_i hFound'
      cases hRender
      cases hRender'
      rw [hFound, hFound'] at hFilter
      exact (List.forall₂_cons.mp hFilter).1
    · cases hRender'
  · cases hRender

/-- The environments of both graphs, if there are any. -/
theorem Renamed.findEnvironment (h : g.Renamed r g') {node node' : Option Node}
    (hNode : g.findEnvironment = .ok node) (hNode' : g'.findEnvironment = .ok node') :
    Option.Rel (Node.Renamed r) node node' := by
  have hFilter : List.Forall₂ (Node.Renamed r) (g.walk.filter fun n => n.environmentBody?.isSome)
      (g'.walk.filter fun n => n.environmentBody?.isSome) := by
    refine Node.forall₂_filter (fun n n' hRenamed => ?_) (Node.AllPaired.walkAll _ _ h)
    rw [← Option.isSome_map (f := List.map Statement.unplaced), hRenamed.environmentBody?,
      Option.isSome_map]
  unfold SceneGraph.findEnvironment at hNode hNode'
  split at hNode
  · rename_i hFound
    rw [hFound] at hFilter
    rw [List.forall₂_nil_left_iff.mp hFilter] at hNode'
    cases hNode
    cases hNode'
    exact .none
  · rename_i found hFound
    rw [hFound] at hFilter
    obtain ⟨found', _, hFirst, hNone, hFound'⟩ := List.forall₂_cons_left_iff.mp hFilter
    cases hNone
    rw [hFound'] at hNode'
    cases hNode
    cases hNode'
    exact .some hFirst
  · cases hNode

end SceneGraph

end PathTracer
