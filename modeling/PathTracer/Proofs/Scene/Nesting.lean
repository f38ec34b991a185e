import PathTracer.Proofs.Scene.Indexing

/-! What a scene records of its primitives, told from the graph alone. Every primitive
has a trail of ancestors, each with the nodes before the next one. The placements on the
trail add up to that of the primitive, and the last material named on it is its own. -/
namespace PathTracer

/-! ### Trails -/

namespace Node

def isObject (n : Node) : Bool :=
  match n.kind with
  | .object _ => true
  | _ => false

mutual

/-- The materials that a node names for what follows it. What an object names holds in it
only, while a render node passes on what is named in it. -/
def names : Node → List String
  | ⟨.material .surface body, options, name, line, leaves⟩ =>
    (explicitName? ⟨.material .surface body, options, name, line, leaves⟩).toList
  | ⟨.render, _, _, _, leaves⟩ => namesAll leaves
  | ⟨.material .environment _, _, _, _, _⟩ | ⟨.object _, _, _, _, _⟩ | ⟨.light _, _, _, _, _⟩
  | ⟨.camera _, _, _, _, _⟩ | ⟨.primitive _, _, _, _, _⟩ => []

def namesAll : List Node → List String
  | [] => []
  | n :: rest => names n ++ namesAll rest

end

/-- Names along siblings are those along the first ones and then those along the others. -/
theorem namesAll_append (nodes more : List Node) :
    namesAll (nodes ++ more) = namesAll nodes ++ namesAll more := by
  induction nodes with
  | nil => rw [List.nil_append, namesAll, List.nil_append]
  | cons n rest ih => rw [List.cons_append, namesAll, namesAll, ih, List.append_assoc]

end Node

/-- A node on the way down to another, with its leaves before the one that leads there. -/
structure Ancestor where
  node : Node
  before : List Node

/-- The materials that are named in a node before one of its leaves: by its own option, if
it is an object, and by the leaves before. -/
def Ancestor.names (a : Ancestor) : List String :=
  (if a.node.isObject then (a.node.options.text? "Material").toList else []) ++
    Node.namesAll a.before

/-- The ancestors of a node, the outermost first. -/
abbrev Trail : Type := List Ancestor

namespace Trail

/-- The objects around a node. -/
def objects (t : Trail) : List Node :=
  (t.map Ancestor.node).filter Node.isObject

/-- The materials that are named before a node in its own scope and in those around it. -/
def names (t : Trail) : List String :=
  t.flatMap Ancestor.names

/-- The trail of a leaf behind those before it. -/
def below (t : Trail) (parent : Node) (before : List Node) : Trail :=
  t ++ [⟨parent, before⟩]

variable (t : Trail) (parent : Node) (before : List Node)

/-- A trail goes through one more object below an object, and through none below a render
node. -/
theorem objects_below : (t.below parent before).objects =
    t.objects ++ if parent.isObject then [parent] else [] := by
  simp [below, objects, List.filter_singleton]

/-- Below a node further names are those of its own option and of the leaves that come
before. -/
theorem names_below : (t.below parent before).names =
    t.names ++ (Ancestor.names ⟨parent, []⟩ ++ Node.namesAll before) := by
  simp [below, names, Ancestor.names, Node.namesAll]

/-- Passing a leaf adds what it names. -/
theorem names_below_append (n : Node) :
    (t.below parent (before ++ [n])).names = (t.below parent before).names ++ n.names := by
  simp [names_below, Node.namesAll_append, Node.namesAll]

end Trail

/-- A primitive node where a walk comes to it. -/
structure Occurrence where
  node : Node
  trail : Trail

namespace Node

mutual

/-- The primitive nodes that are reached through render nodes and objects, each before
those that follow it. -/
def occurrences (trail : Trail) : Node → List Occurrence
  | ⟨.primitive kind, options, name, line, leaves⟩ =>
    [⟨⟨.primitive kind, options, name, line, leaves⟩, trail⟩]
  | ⟨.object kind, options, name, line, leaves⟩ =>
    occurrencesAll trail ⟨.object kind, options, name, line, leaves⟩ [] leaves
  | ⟨.render, options, name, line, leaves⟩ =>
    occurrencesAll trail ⟨.render, options, name, line, leaves⟩ [] leaves
  | ⟨.material _ _, _, _, _, _⟩ | ⟨.light _, _, _, _, _⟩ | ⟨.camera _, _, _, _, _⟩ => []

/-- Those below the remaining leaves of a parent. -/
def occurrencesAll (trail : Trail) (parent : Node) (before : List Node) :
    List Node → List Occurrence
  | [] => []
  | n :: rest =>
    occurrences (trail.below parent before) n ++ occurrencesAll trail parent (before ++ [n]) rest

end

mutual

/-- A walk over all nodes comes to these primitives in the same order. -/
theorem occurrences_sublist_walk (trail : Trail) :
    (n : Node) → ((n.occurrences trail).map Occurrence.node).Sublist n.walk
  | ⟨.primitive kind, options, name, line, leaves⟩ => by
      rw [occurrences, walk]
      exact (List.nil_sublist _).cons_cons _
  | ⟨.object kind, options, name, line, leaves⟩ => by
      rw [occurrences, walk]
      exact (occurrencesAll_sublist_walkAll trail _ [] leaves).cons _
  | ⟨.render, options, name, line, leaves⟩ => by
      rw [occurrences, walk]
      exact (occurrencesAll_sublist_walkAll trail _ [] leaves).cons _
  | ⟨.material role body, options, name, line, leaves⟩
  | ⟨.light kind, options, name, line, leaves⟩
  | ⟨.camera kind, options, name, line, leaves⟩ => List.nil_sublist _

/-- What the walk of primitives finds is found by the whole walk, in the same order. -/
theorem occurrencesAll_sublist_walkAll (trail : Trail) (parent : Node) :
    (before nodes : List Node) →
      ((occurrencesAll trail parent before nodes).map Occurrence.node).Sublist (walkAll nodes)
  | before, [] => List.nil_sublist _
  | before, n :: rest => by
      rw [occurrencesAll, walkAll, List.map_append]
      exact (occurrences_sublist_walk _ n).append
        (occurrencesAll_sublist_walkAll trail parent (before ++ [n]) rest)

end

/-- A node whose leaves are visited. -/
def opens (n : Node) : Bool :=
  match n.kind with
  | .object _ => true
  | .render => true
  | _ => false

/-- A trail leads from a node down to another where each ancestor on it is visited, and the
next one is its leaf behind those before. -/
inductive LeadsTo : Node → Trail → Node → Prop
  | here (n : Node) : LeadsTo n [] n
  | leaf {n m target : Node} {before after : List Node} {trail : Trail} (hOpens : n.opens = true)
      (hLeaves : n.leaves = before ++ m :: after) (hRest : LeadsTo m trail target) :
      LeadsTo n (⟨n, before⟩ :: trail) target

/-- A trail ends at a node whose leaves are not visited. -/
theorem LeadsTo.eq_of_not_opens {n target : Node} {trail : Trail} (h : n.LeadsTo trail target)
    (hClosed : n.opens = false) : trail = [] ∧ target = n := by
  cases h with
  | here => exact ⟨rfl, rfl⟩
  | leaf hOpens => simp [hClosed] at hOpens

variable {trail : Trail} {o : Occurrence}

/-- A trail from a visited node to a primitive goes through one of its leaves. The leaves
before that one are the ones that have been passed. -/
theorem leadsTo_iff_leaf {n : Node} (hOpens : n.opens = true) :
    (∃ before m after rest kind, n.leaves = before ++ m :: after ∧
      o.trail = trail.below n before ++ rest ∧ o.node.kind = .primitive kind ∧
        m.LeadsTo rest o.node) ↔
    ∃ rest kind, o.trail = trail ++ rest ∧ o.node.kind = .primitive kind ∧
      n.LeadsTo rest o.node := by
  constructor
  · rintro ⟨before, m, after, rest, kind, hLeaves, hTrail, hKind, hRest⟩
    refine ⟨⟨n, before⟩ :: rest, kind, ?_, hKind, .leaf hOpens hLeaves hRest⟩
    rw [hTrail, Trail.below, List.append_assoc, List.singleton_append]
  · rintro ⟨_, kind, hTrail, hKind, hLeads⟩
    cases hLeads with
    | here => simp [opens, hKind] at hOpens
    | leaf _ hLeaves hRest =>
        refine ⟨_, _, _, _, kind, hLeaves, ?_, hKind, hRest⟩
        rw [hTrail, Trail.below, List.append_assoc, List.singleton_append]

/-- No trail leads through another node. -/
theorem not_leadsTo_primitive {n : Node} (hClosed : n.opens = false)
    (hKind : ∀ kind, n.kind ≠ .primitive kind) :
    ¬∃ rest kind, o.trail = trail ++ rest ∧ o.node.kind = .primitive kind ∧
      n.LeadsTo rest o.node := by
  rintro ⟨rest, kind, -, hPrimitive, hLeads⟩
  obtain ⟨-, hNode⟩ := hLeads.eq_of_not_opens hClosed
  exact hKind kind (hNode ▸ hPrimitive)

mutual

/-- Exactly the primitives that trails lead to are reached. A primitive below a light or a
camera is not reached, since their leaves are not visited. -/
theorem mem_occurrences (trail : Trail) (o : Occurrence) : (n : Node) →
    (o ∈ n.occurrences trail ↔ ∃ rest kind, o.trail = trail ++ rest ∧
      o.node.kind = .primitive kind ∧ n.LeadsTo rest o.node)
  | ⟨.primitive kind, options, name, line, leaves⟩ => by
      rw [occurrences, List.mem_singleton]
      constructor
      · rintro rfl
        exact ⟨[], kind, (List.append_nil _).symm, rfl, .here _⟩
      · rintro ⟨rest, _, hTrail, -, hLeads⟩
        obtain ⟨rfl, hNode⟩ := hLeads.eq_of_not_opens rfl
        rw [List.append_nil] at hTrail
        rw [← hNode, ← hTrail]
  | ⟨.object kind, options, name, line, leaves⟩ => by
      rw [occurrences, mem_occurrencesAll trail _ o [] leaves, ← leadsTo_iff_leaf rfl]
      rfl
  | ⟨.render, options, name, line, leaves⟩ => by
      rw [occurrences, mem_occurrencesAll trail _ o [] leaves, ← leadsTo_iff_leaf rfl]
      rfl
  | ⟨.material role body, options, name, line, leaves⟩
  | ⟨.light kind, options, name, line, leaves⟩
  | ⟨.camera kind, options, name, line, leaves⟩ =>
      iff_of_false List.not_mem_nil (not_leadsTo_primitive rfl nofun)

/-- A primitive is found below siblings exactly if a trail through one of them leads to it.
The induction is on the siblings, with the ones that have been passed. -/
theorem mem_occurrencesAll (trail : Trail) (parent : Node) (o : Occurrence) :
    (passed nodes : List Node) → (o ∈ occurrencesAll trail parent passed nodes ↔
      ∃ before m after rest kind, nodes = before ++ m :: after ∧
        o.trail = trail.below parent (passed ++ before) ++ rest ∧
        o.node.kind = .primitive kind ∧ m.LeadsTo rest o.node)
  | passed, [] => by
      rw [occurrencesAll]
      exact iff_of_false List.not_mem_nil fun ⟨_, _, _, _, _, hNodes, _⟩ =>
        List.append_ne_nil_of_right_ne_nil _ (List.cons_ne_nil _ _) hNodes.symm
  | passed, n :: nodes => by
      rw [occurrencesAll, List.mem_append, mem_occurrences _ o n,
        mem_occurrencesAll trail parent o (passed ++ [n]) nodes]
      constructor
      · rintro (⟨rest, kind, hTrail, hFound⟩ | ⟨before, m, after, rest, kind, rfl, hTrail, hFound⟩)
        · exact ⟨[], n, nodes, rest, kind, rfl, by rwa [List.append_nil], hFound⟩
        · refine ⟨n :: before, m, after, rest, kind, rfl, ?_, hFound⟩
          rwa [List.append_assoc, List.singleton_append] at hTrail
      · rintro ⟨before, m, after, rest, kind, hNodes, hTrail, hFound⟩
        obtain _ | ⟨first, before⟩ := before
        · obtain ⟨rfl, rfl⟩ := List.cons.inj hNodes
          exact .inl ⟨rest, kind, by rwa [List.append_nil] at hTrail, hFound⟩
        · obtain ⟨rfl, rfl⟩ := List.cons.inj hNodes
          refine .inr ⟨before, m, after, rest, kind, rfl, ?_, hFound⟩
          rwa [List.append_assoc, List.singleton_append]

end

/-! ### What is to be recorded -/

/-- The placement that the options of an object give at a time. -/
structure PlacedAt (time : Float32) (n : Node) (p : Placement Float32) : Prop where
  position : n.options.float3 "Position" .zero time = .ok p.position
  rotation : n.options.float3 "Rotation" .zero time = .ok p.rotation
  scale : n.options.float1 "Scale" 1.0 time = .ok p.scale

/-- The vectors of the parameters that the options of a primitive give at a time. -/
def HasParameters (time : Float32) (n : Node) : PrimitiveKind → List (Vec4 Float32) → Prop
  | .sphere, slots => ∃ position radius, n.options.float3 "Position" .zero time = .ok position ∧
      n.options.float1 "Radius" 1.0 time = .ok radius ∧ slots = [position.extend radius]
  | .box, slots => ∃ position size, n.options.float3 "Position" .zero time = .ok position ∧
      n.options.float3 "Size" .one time = .ok size ∧
      slots = [position.extend 0.0, (size.map Float32.abs).extend 0.0]
  | .plane, slots => ∃ normal offset, n.options.float3 "Normal" .axisY time = .ok normal ∧
      n.options.float1 "Offset" 0.0 time = .ok offset ∧
      slots = [(normal.normalize?.getD .axisY).extend offset]

end Node

/-- The vectors of a placement. -/
def Placement.slots (p : Placement Float32) : List (Vec4 Float32) :=
  [p.position.extend 0.0, p.rotation.extend 0.0, ⟨p.scale, 0.0, 0.0, 0.0⟩]

/-- Placements within each other: positions and rotations are added and scales are
multiplied from the outermost on. -/
def Placement.total (placements : List (Placement Float32)) : Placement Float32 where
  position := (placements.map Placement.position).foldl (· + ·) .zero
  rotation := (placements.map Placement.rotation).foldl (· + ·) .zero
  scale := (placements.map Placement.scale).foldl (· * ·) 1.0

/-- One more placement inside of others is composed with their total. -/
theorem Placement.total_append_singleton (placements : List (Placement Float32))
    (p : Placement Float32) : total (placements ++ [p]) = (total placements).compose p := by
  simp [total, compose]

/-- What is recorded of a primitive, where materials have indices by their names: its
kind, the total of the placements around it, its parameters and the material that is
named last. -/
structure Occurrence.RecordedAs (o : Occurrence) (index? : String → Option Nat) (time : Float32)
    (data : List (Vec4 Float32)) (p : Primitive) : Prop where
  kind : o.node.kind = .primitive p.kind
  placement : ∃ placements, List.Forall₂ (Node.PlacedAt time) o.trail.objects placements ∧
    (Placement.total placements).slots <+: data.drop p.object
  root : o.trail.objects = [] → p.object = 0
  parameters : ∃ slots, o.node.HasParameters time p.kind slots ∧ slots <+: data.drop p.data
  resolved : ∀ name ∈ o.trail.names, (index? name).isSome = true
  material : p.material =
    ((o.trail.names.getLast?.bind index?).map Context.wrapIndex).getD (-1)

/-! ### Steps without faults -/

open Context (Extends)

/-- What a step does where it ends without a fault. It only adds to what is recorded, so
no step before it had one. -/
structure Performs {α : Type} (m : StateM Context α) (Q : Context → α → Context → Prop) :
    Prop where
  additions : Moves Extends m
  result : ∀ c, (m.run c).2.errors = [] → Q c (m.run c).1 (m.run c).2

namespace Performs

variable {α β : Type} {m : StateM Context α} {f : α → StateM Context β}
  {Q : Context → α → Context → Prop} {R : α → Context → β → Context → Prop}

/-- A step does what is weaker than what it does. -/
theorem mono {S : Context → α → Context → Prop} (h : Performs m Q)
    (hWeaker : ∀ c x d, Q c x d → S c x d) : Performs m S :=
  ⟨h.additions, fun c hErrors => hWeaker _ _ _ (h.result c hErrors)⟩

/-- Parts one after the other do what the first and then the second does. -/
theorem bind (h : Performs m Q) (hNext : ∀ x, Performs (f x) (R x)) :
    Performs (m >>= f) fun c y e => ∃ x d, Q c x d ∧ R x d y e where
  additions := h.additions.bind fun x => (hNext x).additions
  result c hErrors := by
    have hSecond := (hNext (m.run c).1).additions (m.run c).2
    have hNone : (m.run c).2.errors = [] := by
      have hPrefix := hSecond.errors
      rw [show ((f (m.run c).1).run (m.run c).2).2.errors = [] from hErrors] at hPrefix
      exact List.prefix_nil.mp hPrefix
    exact ⟨_, _, h.result c hNone, (hNext _).result _ hErrors⟩

/-- After a step that only looks, the next one starts from the same context. -/
theorem read {A : Context → α → Prop} (h : Performs m fun c x d => A c x ∧ d = c)
    (hNext : ∀ x, Performs (f x) (R x)) :
    Performs (m >>= f) fun c y e => ∃ x, A c x ∧ R x c y e :=
  (h.bind hNext).mono fun _ _ _ ⟨x, _, ⟨hA, hSame⟩, hR⟩ => ⟨x, hA, hSame ▸ hR⟩

/-- What is recorded is continued. -/
theorem extended (h : Performs m Q) : Performs m fun c x d => Q c x d ∧ c.Extends d :=
  ⟨h.additions, fun c hErrors => ⟨h.result c hErrors, h.additions c⟩⟩

/-- Returning a value does nothing. -/
theorem pure (x : α) : Performs (Pure.pure x : StateM Context α) fun c y d => y = x ∧ d = c :=
  ⟨.pure x, fun _ _ => ⟨rfl, rfl⟩⟩

/-- Reading the context does nothing. -/
theorem get : Performs (MonadState.get : StateM Context Context) fun c x d => x = c ∧ d = c :=
  ⟨.get, fun _ _ => ⟨rfl, rfl⟩⟩

/-- A step that only ever does one thing does that. -/
theorem of_eq (hExtends : Moves Extends m) (h : ∀ c, Q c (m.run c).1 (m.run c).2) :
    Performs m Q :=
  ⟨hExtends, fun c _ => h c⟩

end Performs

namespace Node

/-- A number that was read without a fault is the number of the option, and nothing else has
changed. -/
theorem performs_readFloat1 (n : Node) (name : String) (default : Float32) :
    Performs (n.readFloat1 name default) fun c x d =>
      n.options.float1 name default c.time = .ok x ∧ d = c where
  additions := n.moves_readFloat1 name default
  result c hErrors := by
    change (n.readFloat1 name default c).2.errors = [] at hErrors
    change _ = Except.ok (n.readFloat1 name default c).1 ∧ (n.readFloat1 name default c).2 = c
    unfold readFloat1 at hErrors ⊢
    cases hRead : n.options.float1 name default c.time with
    | ok x => exact ⟨rfl, rfl⟩
    | error d =>
        rw [hRead] at hErrors
        exact absurd hErrors (List.append_ne_nil_of_right_ne_nil _ nofun)

/-- A vector that was read without a fault is that of the option, and nothing else has
changed. -/
theorem performs_readFloat3 (n : Node) (name : String) (default : Vec3 Float32) :
    Performs (n.readFloat3 name default) fun c v d =>
      n.options.float3 name default c.time = .ok v ∧ d = c where
  additions := n.moves_readFloat3 name default
  result c hErrors := by
    change (n.readFloat3 name default c).2.errors = [] at hErrors
    change _ = Except.ok (n.readFloat3 name default c).1 ∧ (n.readFloat3 name default c).2 = c
    unfold readFloat3 at hErrors ⊢
    cases hRead : n.options.float3 name default c.time with
    | ok v => exact ⟨rfl, rfl⟩
    | error d =>
        rw [hRead] at hErrors
        exact absurd hErrors (List.append_ne_nil_of_right_ne_nil _ nofun)

/-- A placement that was read without a fault is that of the options. -/
theorem performs_readPlacement (n : Node) :
    Performs n.readPlacement fun c p d => n.PlacedAt c.time p ∧ d = c := by
  refine ((n.performs_readFloat3 _ _).read fun position => (n.performs_readFloat3 _ _).read
    fun rotation => (n.performs_readFloat1 _ _).read fun scale => .pure _).mono ?_
  rintro c p d ⟨position, hPosition, rotation, hRotation, scale, hScale, rfl, rfl⟩
  exact ⟨⟨hPosition, hRotation, hScale⟩, rfl⟩

/-- Adding a vector to the data is adding it to the list of data. -/
theorem performs_allocate (v : Vec4 Float32) :
    Performs (allocate v) fun c slot d => slot = c.data.size ∧
      d = { c with data := ⟨c.data.toList ++ [v]⟩ } := by
  refine .of_eq (moves_allocate v) fun c => ⟨rfl, ?_⟩
  change c.pushSlot v = _
  rw [Context.pushSlot, ← Array.toList_push]

/-- The parameters of a primitive are added to the data from its slot on. Their number
depends on the kind only. -/
theorem performs_allocatePrimitive (n : Node) (kind : PrimitiveKind) :
    Performs (n.allocatePrimitive kind) fun c slot d => ∃ slots,
      n.HasParameters c.time kind slots ∧ slot = c.data.size ∧
        d = { c with data := ⟨c.data.toList ++ slots⟩ } := by
  cases kind with
  | sphere =>
      refine ((n.performs_readFloat3 _ _).read fun position => (n.performs_readFloat1 _ _).read
        fun radius => performs_allocate _).mono ?_
      rintro c slot d ⟨position, hPosition, radius, hRadius, rfl, rfl⟩
      exact ⟨_, ⟨position, radius, hPosition, hRadius, rfl⟩, rfl, rfl⟩
  | box =>
      refine ((n.performs_readFloat3 _ _).read fun position => (n.performs_readFloat3 _ _).read
        fun size => (performs_allocate _).bind fun slot => (performs_allocate _).bind
          fun _ => .pure slot).mono ?_
      rintro c slot d
        ⟨position, hPosition, size, hSize, _, _, ⟨rfl, rfl⟩, _, _, ⟨rfl, rfl⟩, rfl, rfl⟩
      exact ⟨_, ⟨position, size, hPosition, hSize, rfl⟩, rfl, by simp⟩
  | plane =>
      refine ((n.performs_readFloat3 _ _).read fun normal => (n.performs_readFloat1 _ _).read
        fun offset => performs_allocate _).mono ?_
      rintro c slot d ⟨normal, hNormal, offset, hOffset, rfl, rfl⟩
      exact ⟨_, ⟨normal, offset, hNormal, hOffset, rfl⟩, rfl, rfl⟩

/-- Recording changes the records only. -/
theorem performs_addEntities {f : Entities → Entities} (h : ∀ e : Entities, e.Extends (f e)) :
    Performs (addEntities f) fun c _ d => d = { c with entities := f c.entities } :=
  .of_eq (fun c => .ofEntities c (h c.entities)) fun _ => rfl

/-- A primitive is recorded with the slot of its object and the active material. Nothing
else of the context has changed but the data, which has its parameters at the end. -/
theorem performs_visitPrimitive (n : Node) (kind : PrimitiveKind) (out : Output) :
    Performs (n.visitPrimitive kind out) fun c _ d => ∃ slots,
      n.HasParameters c.time kind slots ∧
        d = { c with
          data := ⟨c.data.toList ++ slots⟩
          entities := { c.entities with primitives := c.entities.primitives ++
            [⟨kind, c.scope.object, c.data.size, c.activeMaterial⟩] } } := by
  have hRecord : ∀ (p : Primitive) (e : Entities),
      e.Extends { e with primitives := e.primitives ++ [p] } := fun p e =>
    ⟨List.prefix_refl _, List.prefix_append _ _, List.prefix_refl _, id⟩
  refine (Performs.get.read fun c => (n.performs_allocatePrimitive kind).bind fun data =>
    (performs_addEntities (hRecord ⟨kind, c.scope.object, data, c.activeMaterial⟩)).bind
      fun _ => .pure _).mono ?_
  rintro c _ d ⟨_, rfl, _, _, ⟨slots, hSlots, rfl, rfl⟩, _, _, rfl, _, rfl⟩
  exact ⟨slots, hSlots, rfl⟩

/-- A named material exists and becomes the active one. Without a name nothing happens. -/
def Activates (name? : Option String) (c d : Context) : Prop :=
  match name? with
  | some name => ∃ index, c.materialIndex? name = some index ∧ d = c.activate index
  | none => d = c

/-- Nothing is recorded for a material that becomes active. -/
theorem Activates.entities {name? : Option String} {c d : Context} (h : Activates name? c d) :
    d.entities = c.entities := by
  cases name? with
  | none => exact congrArg Context.entities h
  | some name =>
      obtain ⟨index, -, rfl⟩ := h
      rfl

/-- A material that was activated without a fault exists, and is the active one. -/
theorem performs_activate (n : Node) (name : String) :
    Performs (n.activate name) fun c _ d => Activates (some name) c d where
  additions := n.moves_activate name
  result c hErrors := by
    change (n.activate name c).2.errors = [] at hErrors
    change ∃ index, _ ∧ (n.activate name c).2 = _
    unfold activate Context.resolve at hErrors ⊢
    cases hIndex : c.materialIndex? name with
    | some index => exact ⟨index, rfl, rfl⟩
    | none =>
        rw [hIndex] at hErrors
        exact absurd hErrors (List.append_ne_nil_of_right_ne_nil _ nofun)

/-- An object without the option leaves the active material as it is. -/
theorem performs_activateOption (n : Node) :
    Performs n.activateOption fun c _ d => Activates (n.options.text? "Material") c d := by
  unfold activateOption
  split
  · rename_i name hName
    rw [hName]
    exact n.performs_activate name
  · rename_i hNone
    rw [hNone]
    exact (Performs.pure ()).mono fun c _ d h => h.2

/-- A definition activates its own material. -/
theorem performs_visitMaterial (n : Node) :
    Performs n.visitMaterial fun c _ d => Activates n.explicitName? c d := by
  unfold visitMaterial
  split
  · rename_i name hName
    rw [hName]
    exact n.performs_activate name
  · rename_i hNone
    rw [hNone]
    exact (Performs.pure ()).mono fun c _ d h => h.2

end Node

/-! ### Places -/

namespace Context

/-- More records, but of no primitive, and the scope from before. -/
structure Passes (c d : Context) : Prop where
  additions : c.Extends d
  scope : d.scope = c.scope
  primitives : d.entities.primitives = c.entities.primitives

instance : Appending Passes where
  refl c := ⟨Tolerant.refl c, rfl, rfl⟩
  trans hFirst hSecond := ⟨Tolerant.trans hFirst.additions hSecond.additions,
    hSecond.scope.trans hFirst.scope, hSecond.primitives.trans hFirst.primitives⟩
  report c defect line := ⟨Tolerant.report c defect line, rfl, rfl⟩
  slot c v := ⟨Appending.slot c v, rfl, rfl⟩
  object c o := ⟨Appending.object c o, rfl, rfl⟩
  sun c v emission := ⟨Appending.sun c v emission, rfl, rfl⟩

/-- A context at a place below some objects, where materials have been named. -/
structure At (c : Context) (objects : List Node) (names : List String) : Prop where
  placement : ∃ placements, List.Forall₂ (Node.PlacedAt c.time) objects placements ∧
    c.scope.placement = Placement.total placements
  slots : c.scope.placement.slots <+: c.data.toList.drop c.scope.object
  root : objects = [] → c.scope.object = 0
  resolved : ∀ name ∈ names, (c.materialIndex? name).isSome = true
  material : c.scope.material = (names.getLast?.bind c.materialIndex?).map wrapIndex

variable {c d : Context} {objects : List Node} {names : List String}

/-- A place is not changed by more records. -/
theorem At.extend (h : c.At objects names) (hExtends : c.Extends d) (hScope : d.scope = c.scope) :
    d.At objects names := by
  have hIndex : d.materialIndex? = c.materialIndex? := by
    funext name
    rw [materialIndex?, hExtends.materials, ← materialIndex?]
  refine ⟨?_, ?_, ?_, ?_, ?_⟩
  · rw [hExtends.time, hScope]
    exact h.placement
  · rw [hScope]
    exact h.slots.trans (hExtends.data.drop _)
  · rw [hScope]
    exact h.root
  · rw [hIndex]
    exact h.resolved
  · rw [hIndex, hScope]
    exact h.material

/-- A material that is named becomes the latest. -/
theorem At.activates (h : c.At objects names) {name? : Option String}
    (hActivates : Node.Activates name? c d) : d.At objects (names ++ name?.toList) := by
  cases name? with
  | none =>
      obtain rfl : d = c := hActivates
      rwa [Option.toList_none, List.append_nil]
  | some name =>
      obtain ⟨index, hIndex, rfl⟩ := hActivates
      refine ⟨h.placement, h.slots, h.root, fun other hOther => ?_, ?_⟩
      · obtain hOld | hNew := List.mem_append.mp hOther
        · exact h.resolved other hOld
        · obtain rfl := List.mem_singleton.mp hNew
          exact Option.isSome_of_eq_some hIndex
      · rw [Option.toList_some, List.getLast?_concat, Option.bind_some]
        exact (congrArg (Option.map wrapIndex) hIndex).symm

/-- Below one more object, the placements that are recorded are those at its slot. -/
theorem At.checkIn (h : c.At objects names) {n : Node} {p : Placement Float32}
    (hPlaced : n.PlacedAt c.time p) : (c.checkIn p).At (objects ++ [n]) names := by
  obtain ⟨placements, hPlacements, hTotal⟩ := h.placement
  refine ⟨⟨placements ++ [p], ?_, ?_⟩, ?_, ?_, h.resolved, h.material⟩
  · exact List.rel_append hPlacements (.cons hPlaced .nil)
  · rw [Placement.total_append_singleton, ← hTotal]
    rfl
  · change (c.scope.placement.compose p).slots <+: List.drop c.data.size (Array.toList
      (((c.data.push _).push _).push _))
    simp [Placement.slots]
  · exact fun hNone => absurd hNone (List.append_ne_nil_of_right_ne_nil _ nofun)

end Context

namespace Node

open Context (At Passes)

/-- A raymarched object is recorded and is no primitive. -/
theorem performs_addMarched (n : Node) : Performs n.addMarched fun c _ d => c.Passes d :=
  .of_eq n.moves_addMarched n.moves_addMarched

/-- Entering an object leads to a place below it, where its material is named. No primitive
is recorded with it, and what it returns is the scope from before. -/
theorem performs_enterObject (n : Node) (kind : ObjectKind) :
    Performs (n.enterObject kind) fun c saved d =>
      saved = c.scope ∧ d.entities.primitives = c.entities.primitives ∧
        ∀ objects names, c.At objects names →
          d.At (objects ++ [n]) (names ++ (n.options.text? "Material").toList) := by
  have hCheckIn (p : Placement Float32) :
      Performs (modify fun c => c.checkIn p : StateM Context PUnit) fun c _ d =>
        d = c.checkIn p :=
    .of_eq (fun c => Entering.checkIn c p) fun _ => rfl
  have hMarch (saved : Scope) :
      Performs (if kind = .marched then do n.addMarched; return saved else return saved)
        fun c x d => x = saved ∧ c.Passes d := by
    split
    · refine (n.performs_addMarched.bind fun _ => .pure saved).mono ?_
      rintro c x d ⟨_, _, hPasses, rfl, rfl⟩
      exact ⟨rfl, hPasses⟩
    · refine (Performs.pure saved).mono ?_
      rintro c x d ⟨rfl, rfl⟩
      exact ⟨rfl, Tolerant.refl _⟩
  refine (n.performs_readPlacement.read fun p => Performs.get.read fun c => (hCheckIn p).bind
    fun _ => n.performs_activateOption.bind fun _ => hMarch c.scope).mono ?_
  rintro c saved d ⟨p, hPlaced, _, rfl, _, _, rfl, _, e, hActivates, rfl, hPasses⟩
  refine ⟨rfl, ?_, fun objects names hAt => ?_⟩
  · rw [hPasses.primitives, hActivates.entities]
    rfl
  · exact ((hAt.checkIn hPlaced).activates hActivates).extend hPasses.additions hPasses.scope

end Node

/-! ### Walks -/

namespace Context

/-- Whether the data and the materials of a context agree with the record of a primitive. -/
def Holds (c : Context) (o : Occurrence) (p : Primitive) : Prop :=
  o.RecordedAs c.materialIndex? c.time c.data.toList p

/-- From one context to another the primitives are recorded, and the other one is at a
place. -/
structure Records (occurrences : List Occurrence) (objects : List Node) (names : List String)
    (c d : Context) : Prop where
  primitives : ∃ more, d.entities.primitives = c.entities.primitives ++ more ∧
    List.Forall₂ d.Holds occurrences more
  place : d.At objects names

variable {b c d : Context} {objects laterObjects : List Node} {names laterNames : List String}
  {first second : List Occurrence}

/-- What agrees with the record of a primitive agrees with it when more is recorded. -/
theorem Holds.extend {o : Occurrence} {p : Primitive} (h : c.Holds o p) (hExtends : c.Extends d) :
    d.Holds o p := by
  have hIndex : d.materialIndex? = c.materialIndex? := by
    funext name
    rw [materialIndex?, hExtends.materials, ← materialIndex?]
  obtain ⟨placements, hPlacements, hSlots⟩ := h.placement
  obtain ⟨slots, hParameters, hData⟩ := h.parameters
  unfold Holds
  rw [hIndex, hExtends.time]
  exact ⟨h.kind, ⟨placements, hPlacements, hSlots.trans (hExtends.data.drop _)⟩, h.root,
    ⟨slots, hParameters, hData.trans (hExtends.data.drop _)⟩, h.resolved, h.material⟩

/-- What two steps record one after the other they record together, since the second leaves
the data of the first. -/
theorem Records.trans (h : Records first objects names b c)
    (hNext : Records second laterObjects laterNames c d) (hExtends : c.Extends d) :
    Records (first ++ second) laterObjects laterNames b d := by
  obtain ⟨firstPrimitives, hFirst, hHolds⟩ := h.primitives
  obtain ⟨secondPrimitives, hSecond, hMore⟩ := hNext.primitives
  refine ⟨⟨firstPrimitives ++ secondPrimitives, ?_, ?_⟩, hNext.place⟩
  · rw [hSecond, hFirst, List.append_assoc]
  · exact List.rel_append (hHolds.imp fun o p hHeld => hHeld.extend hExtends) hMore

/-- What passes records no primitive and stays at its place. -/
theorem Passes.records (h : c.Passes d) (hAt : c.At objects names) :
    Records [] objects names c d :=
  ⟨⟨[], by rw [h.primitives, List.append_nil], .nil⟩, hAt.extend h.additions h.scope⟩

/-- A primitive is recorded as it should be with the object and the material of the place
that it is at. -/
theorem At.holds {o : Occurrence} (hAt : c.At o.trail.objects o.trail.names)
    {kind : PrimitiveKind} (hKind : o.node.kind = .primitive kind) {slot : Nat}
    {slots : List (Vec4 Float32)} (hParameters : o.node.HasParameters c.time kind slots)
    (hData : slots <+: c.data.toList.drop slot) :
    c.Holds o ⟨kind, c.scope.object, slot, c.activeMaterial⟩ := by
  obtain ⟨placements, hPlacements, hTotal⟩ := hAt.placement
  refine ⟨hKind, ⟨placements, hPlacements, hTotal ▸ hAt.slots⟩, hAt.root,
    ⟨slots, hParameters, hData⟩, hAt.resolved, ?_⟩
  rw [← hAt.material]
  rfl

end Context

namespace Node

open Context (Passes Records)

/-- A visit that records no primitive and names nothing. -/
theorem performs_of_passes {m : StateM Context Output} (h : Moves Passes m) :
    Performs m fun c _ d => ∀ objects names, c.At objects names →
      Records [] objects (names ++ []) c d :=
  .of_eq (fun c => (h c).additions) fun c _ names hAt =>
    (h c).records (names.append_nil.symm ▸ hAt)

/-- A primitive that was visited without a fault is recorded as its trail has it. -/
theorem performs_primitive (trail : Trail) {n : Node} {kind : PrimitiveKind}
    (hKind : n.kind = .primitive kind) (out : Output) :
    Performs (n.visitPrimitive kind out) fun c _ d => c.At trail.objects trail.names →
      Records [⟨n, trail⟩] trail.objects (trail.names ++ []) c d := by
  refine (n.performs_visitPrimitive kind out).extended.mono ?_
  rintro c out d ⟨⟨slots, hParameters, rfl⟩, hExtends⟩ hAt
  replace hAt := hAt.extend hExtends rfl
  refine ⟨⟨_, rfl, .cons (hAt.holds (o := ⟨n, trail⟩) hKind hParameters ?_) .nil⟩, ?_⟩
  · simp
  · rwa [List.append_nil]

/-- What is inside an object is visited at the place below it, and its end leads back. The
names of materials inside are forgotten behind it. -/
theorem performs_object (n : Node) (kind : ObjectKind) {inner : StateM Context Output}
    {objects finalObjects : List Node} {names finalNames : List String} {below : List Occurrence}
    (h : Performs inner fun c _ d =>
      c.At (objects ++ [n]) (names ++ (n.options.text? "Material").toList) →
        Records below finalObjects finalNames c d) :
    Performs (do
        let saved ← n.enterObject kind
        let out ← inner
        modify fun c => c.checkOut saved
        return out)
      fun c _ d => c.At objects names → Records below objects (names ++ []) c d := by
  have hCheckOut (saved : Scope) :
      Performs (modify fun c => c.checkOut saved : StateM Context PUnit) fun c _ d =>
        d = c.checkOut saved :=
    .of_eq (moves_checkOut saved) fun _ => rfl
  refine ((n.performs_enterObject kind).bind fun saved => h.bind fun out =>
    (hCheckOut saved).bind fun _ => .pure out).extended.mono ?_
  rintro c out d ⟨⟨_, e, ⟨rfl, hSame, hBelow⟩, _, f, hInner, _, _, rfl, rfl, rfl⟩, hExtends⟩ hAt
  obtain ⟨more, hMore, hHolds⟩ := (hInner (hBelow _ _ hAt)).primitives
  refine ⟨⟨more, ?_, hHolds⟩, ?_⟩
  · rw [← hSame]
    exact hMore
  · rw [List.append_nil]
    exact hAt.extend hExtends rfl

mutual

/-- A visit without a fault records the primitives it comes to, each as its trail has it. -/
theorem performs_visit (trail : Trail) : (n : Node) → (out : Output) →
    Performs (n.visit out) fun c _ d => c.At trail.objects trail.names →
      Records (n.occurrences trail) trail.objects (trail.names ++ n.names) c d
  | ⟨.object kind, options, name, line, leaves⟩, out => by
      rw [visit, occurrences, names]
      refine performs_object _ kind
        ((performs_visitAll trail ⟨.object kind, options, name, line, leaves⟩ [] leaves _).mono
          fun c _ d hLeaves hAt => hLeaves ?_)
      rw [Trail.objects_below, Trail.names_below]
      simpa [Ancestor.names, isObject, namesAll] using hAt
  | ⟨.material .surface body, options, name, line, leaves⟩, out => by
      rw [visit, occurrences, names]
      refine ((performs_visitMaterial _).bind fun _ => .pure out).mono ?_
      rintro c _ d ⟨_, _, hActivates, rfl, rfl⟩ hAt
      exact ⟨⟨[], by rw [hActivates.entities, List.append_nil], .nil⟩, hAt.activates hActivates⟩
  | ⟨.material .environment body, options, name, line, leaves⟩, out => by
      rw [visit, occurrences, names]
      exact (performs_of_passes (.pure out)).mono fun c x d h => h _ _
  | ⟨.render, options, name, line, leaves⟩, out => by
      rw [visit, occurrences, names]
      refine (performs_visitAll trail ⟨.render, options, name, line, leaves⟩ [] leaves out).mono ?_
      intro c _ d hLeaves
      rw [Trail.objects_below, Trail.names_below] at hLeaves
      simpa [Ancestor.names, isObject, namesAll] using hLeaves
  | ⟨.light .sun, options, name, line, leaves⟩, out => by
      rw [visit, occurrences, names]
      exact (performs_of_passes ((moves_visitSun _).bind fun _ => .pure out)).mono
        fun c x d h => h _ _
  | ⟨.light .sphere, options, name, line, leaves⟩, out => by
      rw [visit, occurrences, names]
      exact (performs_of_passes (moves_visitSphereLight _ out fun c l =>
        ⟨.light c l, rfl, rfl⟩)).mono fun c x d h => h _ _
  | ⟨.camera kind, options, name, line, leaves⟩, out => by
      rw [visit, occurrences, names]
      exact (performs_of_passes ((moves_visitCamera _ kind fun c camera =>
        ⟨.camera c camera, rfl, rfl⟩).bind fun _ => .pure out)).mono fun c x d h => h _ _
  | ⟨.primitive kind, options, name, line, leaves⟩, out => by
      rw [visit, occurrences, names]
      exact performs_primitive trail rfl out

/-- Siblings that were visited without a fault are recorded as their trails have them. Each
is visited where those before it have led: in the scope of the parent, with the names of the
earlier ones. -/
theorem performs_visitAll (trail : Trail) (parent : Node) : (before nodes : List Node) →
    (out : Output) → Performs (visitAll nodes out) fun c _ d =>
      c.At (trail.below parent before).objects (trail.below parent before).names →
        Records (occurrencesAll trail parent before nodes) (trail.below parent before).objects
          ((trail.below parent before).names ++ namesAll nodes) c d
  | before, [], out => by
      rw [visitAll, occurrencesAll, namesAll]
      exact (performs_of_passes (.pure out)).mono fun c x d h => h _ _
  | before, n :: rest, out => by
      rw [visitAll, occurrencesAll, namesAll]
      refine ((performs_visit (trail.below parent before) n out).bind fun found =>
        (performs_visitAll trail parent (before ++ [n]) rest found).extended).mono ?_
      rintro c _ e ⟨_, d, hFirst, hRest, hExtends⟩ hAt
      -- Behind the node, the place is that of the next one.
      rw [trail.objects_below parent (before ++ [n]), ← trail.objects_below parent before,
        Trail.names_below_append, List.append_assoc] at hRest
      exact (hFirst hAt).trans (hRest (hFirst hAt).place) hExtends

end

end Node

/-! ### Compiled scenes -/

/-- The root of a scene is a place without objects where no material is named. -/
theorem Context.at_start (time : Float32) (names : List String) :
    At { Context.start time with materials := names } [] [] :=
  ⟨⟨[], .nil, rfl⟩, List.prefix_refl _, fun _ => rfl, nofun, rfl⟩

namespace Scene

variable {s : Scene} {g : SceneGraph} {time : Float32}

/-- Every primitive is recorded as one that the render node leads to. The records are in the
order of the walk. -/
theorem recorded {render : Node} (h : g.compileAt time = .ok s)
    (hRender : g.findRender = .ok render) :
    List.Forall₂ (fun o p => o.RecordedAs s.materialIndex? time s.data.toList p)
      (render.occurrences []) s.entities.primitives := by
  obtain ⟨-, other, hOther, hErrors, hEntities, hData, -⟩ := walked_of_compileAt h
  obtain rfl : render = other := Except.ok.inj (hRender.symm.trans hOther)
  let start : Context :=
    { Context.start time with materials := s.materials.map Material.Program.name }
  have hExtends : start.Extends (render.compile start).2 := render.compile_extends start
  obtain ⟨more, hMore, hHolds⟩ := ((Node.performs_visit [] render (some [])).result start hErrors
    (Context.at_start time _)).primitives
  obtain rfl : s.entities.primitives = more := hEntities ▸ hMore
  have hIndex : (render.compile start).2.materialIndex? = s.materialIndex? := by
    funext name
    rw [Context.materialIndex?, hExtends.materials]
    exact List.findIdx?_map
  have hTime : (render.compile start).2.time = time := hExtends.time
  refine hHolds.imp fun o p hHeld => ?_
  rw [← hIndex, ← hTime, ← hData]
  exact hHeld

/-- The primitives of an accepted graph are those that trails from its render node lead to,
in the order of a walk, and each is recorded as its trail has it. Positions and rotations
are sums and scales are products in the order of nesting, as floats are added and
multiplied. A primitive without a named material on its trail has the index minus one. -/
theorem primitives_recorded (h : g.compileAt time = .ok s) :
    ∃ render, g.findRender = .ok render ∧
      (∀ o, o ∈ render.occurrences [] ↔
        ∃ kind, o.node.kind = .primitive kind ∧ render.LeadsTo o.trail o.node) ∧
      ((render.occurrences []).map Occurrence.node).Sublist render.walk ∧
      List.Forall₂ (fun o p => o.RecordedAs s.materialIndex? time s.data.toList p)
        (render.occurrences []) s.entities.primitives := by
  obtain ⟨-, render, hRender, -⟩ := walked_of_compileAt h
  refine ⟨render, hRender, fun o => ?_, render.occurrences_sublist_walk [], recorded h hRender⟩
  rw [Node.mem_occurrences]
  simp

/-- A sphere in an object with its own material, and one behind that object. -/
theorem primitives_recorded_nested :
    let material (name : String) (line : Nat) : Node :=
      .new (.material .surface []) ⟨[("name", .text name)]⟩ line []
    let sphere (line : Nat) : Node := .new (.primitive .sphere) .empty line []
    let g : SceneGraph := ⟨[material "A" 1, material "B" 2,
      .new .render .empty 3 [.new (.camera .perspective) .empty 4 [],
        .new (.object .analytical) ⟨[("material", .text "A")]⟩ 5
          [.new (.object .analytical) .empty 6 [material "B" 7, sphere 8], sphere 9]]]⟩
    ∃ s p q, g.compileAt 0.0 = .ok s ∧ s.entities.primitives = [p, q] ∧
      p.material = 1 ∧ q.material = 0 := by
  intro material sphere g
  have hCompiles : (g.compileAt 0.0).toOption.map (fun s => s.materials.map (·.name)) =
      some ["A", "B"] := by
    decide
  obtain ⟨s, hScene, hNames⟩ := exists_ok_of_map hCompiles
  have hIndex (name : String) : s.materialIndex? name = ["A", "B"].findIdx? (· == name) := by
    rw [← hNames, List.findIdx?_map]
    rfl
  obtain ⟨render, hRender, -, -, hRecorded⟩ := primitives_recorded hScene
  obtain rfl := Except.ok.inj hRender
  generalize hPrimitives : s.entities.primitives = primitives at hRecorded
  obtain _ | ⟨hFirst, _ | ⟨hSecond, _ | _⟩⟩ := hRecorded
  refine ⟨s, _, _, hScene, hPrimitives, ?_, ?_⟩
  · rw [hFirst.material, funext hIndex]
    decide
  · rw [hSecond.material, funext hIndex]
    decide

end Scene

end PathTracer
