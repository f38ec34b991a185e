import PathTracer.Proofs.Scene.Acceptance
import PathTracer.Proofs.Scene.Indexing

/-! The slots that a walk records. They are slots of the data that it has recorded
before, so that they are in the data at its end. -/
namespace PathTracer

/-! ### Slots in a range -/

/-- All slots of a primitive are below a size: three of the placement, and one or two of
the parameters. -/
structure Primitive.InBounds (p : Primitive) (size : Nat) : Prop where
  object : p.object + 2 < size
  data : p.data < size
  half : p.kind = .box → p.data + 1 < size

/-- All slots of the records are below a size, and there are no more lights than slots. -/
structure Entities.InBounds (e : Entities) (size : Nat) : Prop where
  primitives : ∀ p ∈ e.primitives, p.InBounds size
  lights : ∀ l ∈ e.lights, l.data < size
  count : e.lights.length ≤ size

theorem Primitive.InBounds.mono {p : Primitive} {size more : Nat} (h : p.InBounds size)
    (hMore : size ≤ more) : p.InBounds more := by
  obtain ⟨hObject, hData, hHalf⟩ := h
  exact ⟨by omega, by omega, fun hBox => Nat.lt_of_lt_of_le (hHalf hBox) hMore⟩

namespace Entities.InBounds

variable {e : Entities} {size more : Nat}

theorem mono (h : e.InBounds size) (hMore : size ≤ more) : e.InBounds more :=
  ⟨fun p hp => (h.primitives p hp).mono hMore,
    fun l hl => Nat.lt_of_lt_of_le (h.lights l hl) hMore, Nat.le_trans h.count hMore⟩

theorem primitive (h : e.InBounds size) {p : Primitive} (hp : p.InBounds size) :
    Entities.InBounds { e with primitives := e.primitives ++ [p] } size := by
  refine ⟨fun q hq => ?_, h.lights, h.count⟩
  rcases List.mem_append.mp hq with hOld | hNew
  · exact h.primitives q hOld
  · rw [List.mem_singleton.mp hNew]
    exact hp

/-- A light comes with a slot of its own. -/
theorem light (h : e.InBounds size) {l : Light} (hl : l.data = size) :
    Entities.InBounds { e with lights := e.lights ++ [l] } (size + 1) := by
  have hMore := h.mono (Nat.le_succ size)
  refine ⟨hMore.primitives, fun k hk => ?_, ?_⟩
  · rcases List.mem_append.mp hk with hOld | hNew
    · exact hMore.lights k hOld
    · rw [List.mem_singleton.mp hNew, hl]
      exact Nat.lt_succ_self size
  · rw [List.length_append, List.length_singleton]
    exact Nat.succ_le_succ h.count

end Entities.InBounds

/-! ### Steps -/

namespace Context

/-- The slots that a context has recorded, and those of the object that it is in, are in
its data. -/
structure InBounds (c : Context) : Prop where
  object : c.scope.object + 2 < c.data.size
  entities : c.entities.InBounds c.data.size

/-- A step that leaves slots in their range. -/
def Confines (c d : Context) : Prop :=
  c.InBounds → d.InBounds

variable {c : Context}

theorem InBounds.pushSlot (h : c.InBounds) (v : Vec4 Float32) : (c.pushSlot v).InBounds := by
  have hSize : (c.pushSlot v).data.size = c.data.size + 1 := Array.size_push v
  constructor
  · rw [hSize]
    exact Nat.lt_succ_of_lt h.object
  · rw [hSize]
    exact h.entities.mono (Nat.le_succ _)

/-- A new object stands at three slots of its own. -/
theorem inBounds_pushObject (h : c.entities.InBounds c.data.size) : c.pushObject.InBounds := by
  have hSize : c.pushObject.data.size = c.data.size + 3 := by
    simp [pushObject, Context.pushSlot]
  constructor
  · rw [hSize]
    exact Nat.lt_succ_self _
  · rw [hSize]
    exact h.mono (Nat.le_add_right _ 3)

theorem inBounds_start (time : Float32) : (start time).InBounds := by
  apply inBounds_pushObject
  exact ⟨fun p hp => (List.not_mem_nil hp).elim, fun l hl => (List.not_mem_nil hl).elim,
    Nat.zero_le _⟩

/-- A light is recorded with the slot that was just added for it. -/
theorem InBounds.light (h : c.InBounds) (v : Vec4 Float32) {l : Light} (hl : l.data = c.nextSlot) :
    Context.InBounds { c.pushSlot v with entities :=
      { c.entities with lights := c.entities.lights ++ [l] } } := by
  have hSize : (c.pushSlot v).data.size = c.data.size + 1 := Array.size_push v
  constructor
  · exact (h.pushSlot v).object
  · show Entities.InBounds _ (c.pushSlot v).data.size
    rw [hSize]
    exact h.entities.light hl

instance : Entering Confines where
  refl _ := id
  trans hFirst hSecond := hSecond ∘ hFirst
  report _ _ _ h := ⟨h.object, h.entities⟩
  slot _ v h := h.pushSlot v
  object _ _ h := ⟨h.object, h.entities.primitives, h.entities.lights, h.entities.count⟩
  sun _ v _ h := h.light v rfl
  activate _ h := ⟨h.object, h.entities⟩
  checkIn _ _ h := inBounds_pushObject h.entities

end Context

/-- What is true of the result of a step and of the context after it. -/
def Yields {α : Type} (Q : α → Context → Prop) (m : StateM Context α) : Prop :=
  ∀ c, Q (m.run c).1 (m.run c).2

theorem Yields.after {α β : Type} {Q : β → Context → Prop} {m : StateM Context α}
    {f : α → StateM Context β} (h : ∀ x, Yields Q (f x)) : Yields Q (m >>= f) :=
  fun _ => h _ _

namespace Node

open Context (Confines)

/-- The object from before stands in the data that is left at the end of one inside it.
Slots are only added, so that it need not be put back. -/
theorem confines_object (n : Node) (kind : ObjectKind) {inner : StateM Context Output}
    (hInner : Moves Confines inner) (hAdds : Moves Context.Extends inner) :
    Moves Confines (do
      let saved ← n.enterObject kind
      let out ← inner
      modify fun c => c.checkOut saved
      return out) := by
  intro c h
  have hAfter : ((n.enterObject kind >>= fun _ => inner).run c).2.InBounds :=
    ((n.moves_enterObject kind).bind fun _ => hInner) c h
  have hGrows : c.data.toList <+: ((n.enterObject kind >>= fun _ => inner).run c).2.data.toList :=
    (((n.moves_enterObject kind).bind fun _ => hAdds) c).data
  refine ⟨?_, hAfter.entities⟩
  change ((n.enterObject kind).run c).1.object + 2 <
    ((n.enterObject kind >>= fun _ => inner).run c).2.data.size
  rw [n.saved_of_enterObject kind c]
  exact Nat.lt_of_lt_of_le h.object hGrows.length_le

theorem confines_visitSphereLight (n : Node) (out : Output) :
    Moves Confines (n.visitSphereLight out) := by
  refine (n.moves_readFloat3 _ _).bind fun position => ?_
  refine (n.moves_readFloat1 _ _).bind fun radius => ?_
  refine n.moves_lightMaterial.bind fun found => ?_
  cases found with
  | none => exact .pure _
  | some index =>
      intro c h
      -- Nothing is to be computed of the index.
      dsimp only
      generalize Context.wrapIndex index = material
      exact h.light ((c.toWorld position).extend (radius * c.scope.placement.scale)) rfl

/-- The parameters of a primitive stand in the data from their slot on. -/
theorem yields_allocatePrimitive (n : Node) (kind : PrimitiveKind) :
    Yields (fun slot c => slot < c.data.size ∧ (kind = .box → slot + 1 < c.data.size))
      (n.allocatePrimitive kind) := by
  have hOne (v : Vec4 Float32) : Yields (fun slot c => slot < c.data.size) (allocate v) := by
    intro c
    change c.data.size < (c.data.push v).size
    simp
  cases kind with
  | sphere | plane =>
      apply Yields.after
      intro first
      apply Yields.after
      intro second c
      exact ⟨hOne _ c, fun hBox => by cases hBox⟩
  | box =>
      apply Yields.after
      intro position
      apply Yields.after
      intro size c
      change c.data.size < ((c.data.push _).push _).size ∧
        (_ → c.data.size + 1 < ((c.data.push _).push _).size)
      rw [Array.size_push, Array.size_push]
      omega

theorem confines_visitPrimitive (n : Node) (kind : PrimitiveKind) (out : Output) :
    Moves Confines (n.visitPrimitive kind out) := by
  intro c h
  let d := ((n.allocatePrimitive kind).run c).2
  have hFilled : d.InBounds := n.moves_allocatePrimitive (R := Confines) kind c h
  have hScope : d.scope = c.scope := n.moves_allocatePrimitive (R := Context.SameScope) kind c
  obtain ⟨hData, hHalf⟩ := n.yields_allocatePrimitive kind c
  refine ⟨hFilled.object, hFilled.entities.primitive ⟨?_, hData, hHalf⟩⟩
  change c.scope.object + 2 < d.data.size
  rw [← hScope]
  exact hFilled.object

/-- A walk records slots of the data that it has recorded. -/
theorem walks_confines : Walks Confines where
  object n kind leaves out h := n.confines_object kind h (visitAll_extends leaves out)
  material := moves_visitMaterial
  sun := moves_visitSun
  sphereLight := confines_visitSphereLight
  camera n kind := n.moves_visitCamera kind fun _ _ h =>
    ⟨h.object, h.entities.primitives, h.entities.lights, h.entities.count⟩
  primitive := confines_visitPrimitive

end Node

/-! ### Scenes -/

namespace SceneGraph

theorem inBounds_registerAll (definitions : List Definition) (time : Float32) :
    ((Context.start time).registerAll definitions).InBounds := by
  have hStart := Context.inBounds_start time
  rw [Context.registerAll_eq]
  exact ⟨hStart.object, hStart.entities⟩

/-- All slots that the walk of a refresh records are in its data. -/
theorem inBounds_walkedAt (render : Node) (definitions : List Definition) (time : Float32) :
    (walkedAt render definitions time).InBounds :=
  Node.walks_confines.visit render none _ (inBounds_registerAll definitions time)

end SceneGraph

namespace Scene

/-- All slots of a compiled scene are in its data. -/
theorem inBounds_of_compileAt {g : SceneGraph} {time : Float32} {s : Scene}
    (h : g.compileAt time = .ok s) : s.entities.InBounds s.data.size := by
  obtain ⟨render, definitions, -, -, -, -, -, hEntities, hData, -⟩ := g.compileAt_walked h
  rw [← hEntities, ← hData]
  have hStart := SceneGraph.inBounds_registerAll definitions time
  exact (Node.walks_confines.visit render (some []) _ hStart).entities

/-- All slots of a scene are in its data after a refresh. -/
theorem inBounds_of_refresh {g : SceneGraph} {time : Float32} {s next : Scene}
    (h : s.refresh g time = .ok next) : next.entities.InBounds next.data.size := by
  obtain ⟨render, definitions, -, -, -, hNext⟩ := refresh_eq_ok.mp h
  unfold refreshed at hNext
  split at hNext
  · cases hNext
    exact (SceneGraph.inBounds_walkedAt render definitions time).entities
  · exact inBounds_of_compileAt hNext

end Scene

end PathTracer
