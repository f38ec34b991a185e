import PathTracer.Proofs.Containers
import PathTracer.Scene.Compile

/-! What a walk does to its context. A relation of contexts holds along every walk as soon
as it does not mind the steps of a walk one by one. The first such relation is that a walk
only adds to what its context has recorded. -/
namespace PathTracer

/-! ### Steps of a walk -/

/-- A preorder of contexts that does not mind a recorded fault. -/
class Tolerant (R : Context → Context → Prop) : Prop where
  refl (c : Context) : R c c
  trans {a b c : Context} : R a b → R b c → R a c
  report (c : Context) (defect : Defect) (line : Nat) : R c (c.report defect line)

/-- A step that takes every context to one in a relation with it. -/
def Moves {α : Type} (R : Context → Context → Prop) (m : StateM Context α) : Prop :=
  ∀ c, R c (m.run c).2

section Moves

variable {α β : Type} {R : Context → Context → Prop} [Tolerant R]

/-- Returning a value does not move the context. -/
theorem Moves.pure (x : α) : Moves R (Pure.pure x : StateM Context α) :=
  fun c => Tolerant.refl c

/-- Reading the context does not move it. -/
theorem Moves.get : Moves R (MonadState.get : StateM Context Context) :=
  fun c => Tolerant.refl c

/-- Parts that move along a relation one after the other move along it, since it is
transitive. -/
theorem Moves.bind {m : StateM Context α} {f : α → StateM Context β} (h : Moves R m)
    (hNext : ∀ x, Moves R (f x)) : Moves R (m >>= f) :=
  fun c => Tolerant.trans (h c) (hNext _ _)

/-- Two steps from one context, where the second only has to be known for what the first
found there. -/
theorem Moves.bind_at {m : StateM Context α} {f : α → StateM Context β} {c : Context}
    (h : R c (m.run c).2) (hNext : R (m.run c).2 ((f (m.run c).1).run (m.run c).2).2) :
    R c ((m >>= f).run c).2 :=
  Tolerant.trans h hNext

namespace Node

/-- Errors are tolerated by the relation. -/
theorem moves_report (n : Node) (defect : Defect) : Moves R (n.report defect) :=
  fun c => Tolerant.report c defect n.line

/-- Reading a number moves nothing but the list of errors. -/
theorem moves_readFloat1 (n : Node) (name : String) (default : Float32) :
    Moves R (n.readFloat1 name default) := by
  intro c
  change R c (n.readFloat1 name default c).2
  unfold readFloat1
  split
  · exact Tolerant.refl c
  · exact Tolerant.report c _ n.line

/-- Reading a vector moves nothing but the list of errors. -/
theorem moves_readFloat3 (n : Node) (name : String) (default : Vec3 Float32) :
    Moves R (n.readFloat3 name default) := by
  intro c
  change R c (n.readFloat3 name default c).2
  unfold readFloat3
  split
  · exact Tolerant.refl c
  · exact Tolerant.report c _ n.line

/-- Reading bounds moves nothing but the list of errors. -/
theorem moves_readBounds (n : Node) : Moves R n.readBounds := by
  intro c
  change R c (n.readBounds c).2
  unfold readBounds
  split
  · exact Tolerant.refl c
  · exact Tolerant.report c _ n.line

/-- Reading a placement moves nothing but the list of errors. -/
theorem moves_readPlacement (n : Node) : Moves R n.readPlacement :=
  (n.moves_readFloat3 _ _).bind fun _ => (n.moves_readFloat3 _ _).bind fun _ =>
    (n.moves_readFloat1 _ _).bind fun _ => .pure _

/-- Reading a direction moves nothing but the list of errors. -/
theorem moves_readDirection (n : Node) : Moves R n.readDirection := by
  refine (n.moves_readFloat3 _ _).bind fun given => ?_
  split
  · exact .pure _
  · exact (n.moves_report _).bind fun _ => .pure _

end Node

end Moves

/-! ### What a walk records -/

/-- A preorder of contexts that also does not mind that a known material becomes active. -/
class Activating (R : Context → Context → Prop) : Prop extends Tolerant R where
  activate {c : Context} {name : String} {index : Nat} (h : c.materialIndex? name = some index) :
    R c (c.activate index)

/-- A preorder of contexts that also does not mind a new slot of data, a marched object,
or a sun with the slot that was added for it. -/
class Appending (R : Context → Context → Prop) : Prop extends Tolerant R where
  slot (c : Context) (v : Vec4 Float32) : R c (c.pushSlot v)
  object (c : Context) (o : MarchedObject) :
    R c { c with entities := { c.entities with objects := c.entities.objects ++ [o] } }
  sun (c : Context) (v : Vec4 Float32) (emission : Vec3 Float32) :
    R c { c.pushSlot v with entities := { c.entities with
      lights := c.entities.lights ++ [⟨.sun, c.nextSlot, -1, 0.0, emission⟩] } }

/-- One that does not mind entering an object either. Leaving it is another matter, since
the scope from before is one of the contexts before. -/
class Entering (R : Context → Context → Prop) : Prop extends Appending R, Activating R where
  checkIn (c : Context) (inner : Placement Float32) : R c (c.checkIn inner)

/-- One that does not mind any new scope. -/
class Recording (R : Context → Context → Prop) : Prop extends Appending R where
  scope (c : Context) (scope : Scope) : R c { c with scope := scope }

instance {R : Context → Context → Prop} [Recording R] : Entering R where
  activate _ := Recording.scope _ _
  checkIn c _ :=
    Tolerant.trans (Recording.scope c _) (Tolerant.trans (Appending.slot _ _)
      (Tolerant.trans (Appending.slot _ _) (Tolerant.trans (Appending.slot _ _)
        (Recording.scope _ _))))

/-- Resolving a name moves nothing but the list of errors. -/
theorem Context.moves_resolve {R : Context → Context → Prop} [Tolerant R] (c : Context)
    (name : String) (line : Nat) : R c (c.resolve name line).2 := by
  unfold resolve
  split
  · exact Tolerant.refl c
  · exact Tolerant.report c _ line

namespace Node

variable {R : Context → Context → Prop}

/-- Finding the material of a light moves nothing but the list of errors. -/
theorem moves_lightMaterial [Tolerant R] (n : Node) : Moves R n.lightMaterial := by
  unfold lightMaterial
  split
  · exact fun c => c.moves_resolve _ n.line
  · exact (n.moves_report _).bind fun _ => .pure _

/-- Where another camera does not matter, neither does a camera node. -/
theorem moves_visitCamera [Tolerant R] (n : Node) (kind : CameraKind)
    (hCamera : ∀ (c : Context) (camera : Camera),
      R c { c with entities := { c.entities with camera := some camera } }) :
    Moves R (n.visitCamera kind) := by
  refine (n.moves_readFloat3 _ _).bind fun _ => (n.moves_readFloat3 _ _).bind fun _ => ?_
  exact (n.moves_readFloat1 _ _).bind fun _ c => hCamera c _

section Activating

variable [Activating R]

/-- Making a material the one in use is a move of an activating relation. -/
theorem moves_activate (n : Node) (name : String) : Moves R (n.activate name) := by
  intro c
  change R c (n.activate name c).2
  unfold activate Context.resolve
  cases h : c.materialIndex? name with
  | some index => exact Activating.activate h
  | none => exact Tolerant.report c _ n.line

/-- The material of an object is made the one in use, if it has one. -/
theorem moves_activateOption (n : Node) : Moves R n.activateOption := by
  unfold activateOption
  split
  · exact n.moves_activate _
  · exact .pure _

/-- A definition makes its own material the one in use. -/
theorem moves_visitMaterial (n : Node) : Moves R n.visitMaterial := by
  unfold visitMaterial
  split
  · exact n.moves_activate _
  · exact .pure _

end Activating

section Appending

variable [Appending R]

/-- A slot that is appended is a move of an appending relation. -/
theorem moves_allocate (v : Vec4 Float32) : Moves R (allocate v) :=
  fun c => Appending.slot c v

/-- A raymarched object that is appended is one. -/
theorem moves_addMarched (n : Node) : Moves R n.addMarched := by
  refine (n.moves_readFloat1 _ _).bind fun _ => (n.moves_readFloat1 _ _).bind fun _ => ?_
  refine n.moves_readBounds.bind fun _ => Moves.get.bind fun _ => ?_
  exact fun c => Appending.object c _

/-- A sun that is appended is one. -/
theorem moves_visitSun (n : Node) : Moves R n.visitSun :=
  n.moves_readDirection.bind fun direction => (n.moves_readFloat3 _ _).bind fun emission c =>
    Appending.sun c (direction.extend 0.0) emission

/-- So are the slots of a primitive. Its record is not among them, since what may be
recorded depends on the relation. -/
theorem moves_allocatePrimitive (n : Node) (kind : PrimitiveKind) :
    Moves R (n.allocatePrimitive kind) := by
  cases kind with
  | sphere =>
      exact (n.moves_readFloat3 _ _).bind fun _ => (n.moves_readFloat1 _ _).bind fun _ =>
        moves_allocate _
  | box =>
      exact (n.moves_readFloat3 _ _).bind fun _ => (n.moves_readFloat3 _ _).bind fun _ =>
        (moves_allocate _).bind fun _ => (moves_allocate _).bind fun _ => .pure _
  | plane =>
      exact (n.moves_readFloat3 _ _).bind fun _ => (n.moves_readFloat1 _ _).bind fun _ =>
        moves_allocate _

/-- Where another light does not matter, neither does a sphere light. -/
theorem moves_visitSphereLight (n : Node) (out : Output)
    (hLight : ∀ (c : Context) (l : Light),
      R c { c with entities := { c.entities with lights := c.entities.lights ++ [l] } }) :
    Moves R (n.visitSphereLight out) := by
  refine (n.moves_readFloat3 _ _).bind fun _ => (n.moves_readFloat1 _ _).bind fun _ => ?_
  refine n.moves_lightMaterial.bind fun found => ?_
  cases found with
  | none => exact .pure _
  | some index =>
      refine Moves.get.bind fun _ => (moves_allocate _).bind fun _ => ?_
      exact Moves.bind (fun c => hLight c _) fun _ => .pure _

/-- Where another primitive does not matter, no primitive node does. -/
theorem moves_visitPrimitive (n : Node) (kind : PrimitiveKind) (out : Output)
    (hPrimitive : ∀ (c : Context) (p : Primitive),
      R c { c with entities := { c.entities with primitives := c.entities.primitives ++ [p] } }) :
    Moves R (n.visitPrimitive kind out) := by
  refine Moves.get.bind fun _ => (n.moves_allocatePrimitive kind).bind fun _ => ?_
  exact Moves.bind (fun c => hPrimitive c _) fun _ => .pure _

end Appending

/-- Entering an object is reading, checking in and activating. -/
theorem moves_enterObject [Entering R] (n : Node) (kind : ObjectKind) :
    Moves R (n.enterObject kind) := by
  refine n.moves_readPlacement.bind fun p => Moves.get.bind fun _ => ?_
  refine Moves.bind (fun c => Entering.checkIn c p) fun _ => ?_
  refine n.moves_activateOption.bind fun _ => ?_
  split
  · exact n.moves_addMarched.bind fun _ => .pure _
  · exact .pure _

/-- Leaving an object restores the scope. -/
theorem moves_checkOut [Recording R] (saved : Scope) :
    Moves R (modify fun c => c.checkOut saved : StateM Context PUnit) :=
  fun c => Recording.scope c saved

/-! ### Walks -/

/-- A relation that does not mind any node, objects as far as it does not mind what is
inside them. -/
structure Walks (R : Context → Context → Prop) : Prop where
  object (n : Node) (kind : ObjectKind) (leaves : List Node) (out : Output)
    (h : Moves R (visitAll leaves out)) : Moves R (do
      let saved ← n.enterObject kind
      let out ← visitAll leaves out
      modify fun c => c.checkOut saved
      return out)
  material (n : Node) : Moves R n.visitMaterial
  sun (n : Node) : Moves R n.visitSun
  sphereLight (n : Node) (out : Output) : Moves R (n.visitSphereLight out)
  camera (n : Node) (kind : CameraKind) : Moves R (n.visitCamera kind)
  primitive (n : Node) (kind : PrimitiveKind) (out : Output) : Moves R (n.visitPrimitive kind out)

mutual

/-- Such a relation holds of the contexts before and after every walk, whatever faults the
walk meets and whether it emits statements or not. -/
theorem Walks.visit [Tolerant R] (h : Walks R) :
    (n : Node) → (out : Output) → Moves R (n.visit out)
  | ⟨.object kind, options, name, line, leaves⟩, out => by
      rw [Node.visit]
      exact h.object _ kind leaves _ (h.visitAll leaves _)
  | ⟨.material .surface body, options, name, line, leaves⟩, out => by
      rw [Node.visit]
      exact (h.material _).bind fun _ => .pure _
  | ⟨.material .environment _, _, _, _, _⟩, out => by
      rw [Node.visit]
      exact .pure _
  | ⟨.render, _, _, _, leaves⟩, out => by
      rw [Node.visit]
      exact h.visitAll leaves out
  | ⟨.light .sun, options, name, line, leaves⟩, out => by
      rw [Node.visit]
      exact (h.sun _).bind fun _ => .pure _
  | ⟨.light .sphere, options, name, line, leaves⟩, out => by
      rw [Node.visit]
      exact h.sphereLight _ out
  | ⟨.camera kind, options, name, line, leaves⟩, out => by
      rw [Node.visit]
      exact (h.camera _ kind).bind fun _ => .pure _
  | ⟨.primitive kind, options, name, line, leaves⟩, out => by
      rw [Node.visit]
      exact h.primitive _ kind out

/-- What single visits move along, visits of siblings move along. -/
theorem Walks.visitAll [Tolerant R] (h : Walks R) :
    (nodes : List Node) → (out : Output) → Moves R (Node.visitAll nodes out)
  | [], out => by
      rw [Node.visitAll]
      exact .pure _
  | n :: rest, out => by
      rw [Node.visitAll]
      exact (h.visit n out).bind fun found => h.visitAll rest found

end

end Node

/-! ### Additions -/

/-- One record of entities continues another. A later camera replaces an
earlier one. -/
structure Entities.Extends (d e : Entities) : Prop where
  objects : d.objects <+: e.objects
  primitives : d.primitives <+: e.primitives
  lights : d.lights <+: e.lights
  camera : d.camera.isSome = true → e.camera.isSome = true

/-- One context continues another at the same time with the same materials.
Nothing is said about the scope. -/
structure Context.Extends (c d : Context) : Prop where
  materials : d.materials = c.materials
  time : d.time = c.time
  data : c.data.toList <+: d.data.toList
  errors : c.errors <+: d.errors
  entities : c.entities.Extends d.entities

namespace Entities.Extends

theorem refl (e : Entities) : e.Extends e :=
  ⟨List.prefix_refl _, List.prefix_refl _, List.prefix_refl _, id⟩

theorem trans {d e f : Entities} (hFirst : d.Extends e) (hSecond : e.Extends f) : d.Extends f :=
  ⟨hFirst.objects.trans hSecond.objects, hFirst.primitives.trans hSecond.primitives,
    hFirst.lights.trans hSecond.lights, fun h => hSecond.camera (hFirst.camera h)⟩

/-- Lights are added behind those before. -/
theorem light (e : Entities) (l : Light) : e.Extends { e with lights := e.lights ++ [l] } :=
  ⟨List.prefix_refl _, List.prefix_refl _, List.prefix_append _ _, id⟩

end Entities.Extends

namespace Context.Extends

/-- A context is extended where its records are. -/
theorem ofEntities (c : Context) {e : Entities} (h : c.entities.Extends e) :
    c.Extends { c with entities := e } :=
  ⟨rfl, rfl, List.prefix_refl _, List.prefix_refl _, h⟩

instance : Tolerant Context.Extends where
  refl _ := ⟨rfl, rfl, List.prefix_refl _, List.prefix_refl _, .refl _⟩
  trans hFirst hSecond :=
    ⟨hSecond.materials.trans hFirst.materials, hSecond.time.trans hFirst.time,
      hFirst.data.trans hSecond.data, hFirst.errors.trans hSecond.errors,
      hFirst.entities.trans hSecond.entities⟩
  report _ _ _ := ⟨rfl, rfl, List.prefix_refl _, List.prefix_append _ _, .refl _⟩

/-- A further slot extends a context. -/
theorem slot (c : Context) (v : Vec4 Float32) : c.Extends (c.pushSlot v) := by
  refine ⟨rfl, rfl, ?_, List.prefix_refl _, .refl _⟩
  rw [Context.pushSlot, Array.toList_push]
  exact List.prefix_append _ _

/-- A further light extends a context. -/
theorem light (c : Context) (l : Light) :
    c.Extends { c with entities := { c.entities with lights := c.entities.lights ++ [l] } } :=
  ofEntities c (.light _ l)

/-- A camera extends a context, also one that replaces another: of cameras only that there
is one is kept. -/
theorem camera (c : Context) (camera : Camera) :
    c.Extends { c with entities := { c.entities with camera := some camera } } :=
  ofEntities c ⟨List.prefix_refl _, List.prefix_refl _, List.prefix_refl _, fun _ => rfl⟩

instance : Recording Context.Extends where
  scope _ _ := ⟨rfl, rfl, List.prefix_refl _, List.prefix_refl _, .refl _⟩
  slot := slot
  object c _ := ofEntities c
    ⟨List.prefix_append _ _, List.prefix_refl _, List.prefix_refl _, id⟩
  sun c v _ := Tolerant.trans (slot c v) (light _ _)

end Context.Extends

namespace Node

open Context (Extends)

/-- A walk only adds to its context: records go behind those before, and time and
materials stay. It says nothing about the scope, which objects put back. -/
theorem walks_extends : Walks Extends where
  object n kind leaves out h := by
    refine (n.moves_enterObject kind).bind fun saved => h.bind fun _ => ?_
    exact (moves_checkOut saved).bind fun _ => .pure _
  material := moves_visitMaterial
  sun := moves_visitSun
  sphereLight n out := n.moves_visitSphereLight out Extends.light
  camera n kind := n.moves_visitCamera kind Extends.camera
  primitive n kind out := n.moves_visitPrimitive kind out fun c _ => .ofEntities c
    ⟨List.prefix_refl _, List.prefix_append _ _, List.prefix_refl _, id⟩

/-- No visit takes a record, a slot or an error back. -/
theorem visit_extends (n : Node) (out : Output) : Moves Extends (n.visit out) :=
  walks_extends.visit n out

/-- No visit of siblings takes a record, a slot or an error back. -/
theorem visitAll_extends (nodes : List Node) (out : Output) :
    Moves Extends (visitAll nodes out) :=
  walks_extends.visitAll nodes out

/-- Compiling a render node only adds to what was there. -/
theorem compile_extends (n : Node) (c : Context) : c.Extends (n.compile c).2 :=
  n.visit_extends (some []) c

end Node

end PathTracer
