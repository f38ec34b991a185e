import PathTracer.Proofs.Scene.Extension

/-! A walk leaves its context where it was. Objects put back the scope that they
found, whatever happened below them, so nothing is undone by arithmetic. -/
namespace PathTracer

namespace Context

/-- Two contexts at one place. Only the active material may differ. -/
def SamePlace (c d : Context) : Prop :=
  d.scope = { c.scope with material := d.scope.material }

/-- Two contexts with one scope. -/
def SameScope (c d : Context) : Prop :=
  d.scope = c.scope

variable {b c d : Context}

theorem SameScope.samePlace (h : SameScope c d) : SamePlace c d := by
  unfold SamePlace
  rw [show d.scope = c.scope from h]

theorem SamePlace.trans (hFirst : SamePlace b c) (hSecond : SamePlace c d) : SamePlace b d := by
  unfold SamePlace at *
  rw [hSecond, hFirst]

instance : Appending SameScope where
  refl _ := rfl
  trans hFirst hSecond := Eq.trans hSecond hFirst
  report _ _ _ := rfl
  slot _ _ := rfl
  object _ _ := rfl
  sun _ _ _ := rfl

instance : Activating SamePlace where
  refl _ := rfl
  trans := SamePlace.trans
  report _ _ _ := rfl
  activate _ := rfl

end Context

namespace Node

open Context (SameScope SamePlace)

/-- A node that can change the material that is active for what follows it. -/
def setsMaterial : Node → Bool
  | ⟨.material .surface _, _, _, _, _⟩ => true
  | ⟨.render, _, _, _, _⟩ => true
  | _ => false

/-- What is left after a node: the place from before, with the same active material
unless the node can change it, and the records from before with more behind them. -/
structure Balanced (n : Node) (c d : Context) : Prop where
  placement : d.scope.placement = c.scope.placement
  object : d.scope.object = c.scope.object
  depth : d.scope.depth = c.scope.depth
  material : n.setsMaterial = false → d.scope.material = c.scope.material
  additions : c.Extends d

/-- What an object hands to its end is the scope from before it. -/
theorem saved_of_enterObject (n : Node) (kind : ObjectKind) (c : Context) :
    ((n.enterObject kind).run c).1 = c.scope := by
  have hScope : (n.readPlacement.run c).2.scope = c.scope :=
    n.moves_readPlacement (R := SameScope) c
  rw [← hScope]
  cases kind <;> rfl

/-- Whatever is visited inside an object, its end puts the scope back. -/
theorem sameScope_object (n : Node) (kind : ObjectKind) (inner : StateM Context Output) :
    Moves SameScope (do
      let saved ← n.enterObject kind
      let out ← inner
      modify fun c => c.checkOut saved
      return out) :=
  fun c => n.saved_of_enterObject kind c

theorem sameScope_visitSun (n : Node) : Moves SameScope n.visitSun :=
  n.moves_visitSun

theorem sameScope_visitSphereLight (n : Node) (out : Output) :
    Moves SameScope (n.visitSphereLight out) :=
  n.moves_visitSphereLight out fun _ _ => rfl

theorem sameScope_visitCamera (n : Node) (kind : CameraKind) :
    Moves SameScope (n.visitCamera kind) :=
  n.moves_visitCamera kind fun _ _ => rfl

theorem sameScope_visitPrimitive (n : Node) (kind : PrimitiveKind) (out : Output) :
    Moves SameScope (n.visitPrimitive kind out) :=
  n.moves_visitPrimitive kind out fun _ _ => rfl

/-- Only surface materials and render nodes can leave another scope than they found. -/
theorem sameScope_visit (n : Node) (out : Output) (h : n.setsMaterial = false) :
    Moves SameScope (n.visit out) := by
  obtain ⟨kind, options, name, line, leaves⟩ := n
  match kind, h with
  | .object kind, _ =>
      rw [visit]
      exact sameScope_object _ kind _
  | .material .environment _, _ =>
      rw [visit]
      exact .pure _
  | .light .sun, _ =>
      rw [visit]
      exact (sameScope_visitSun _).bind fun _ => .pure _
  | .light .sphere, _ =>
      rw [visit]
      exact sameScope_visitSphereLight _ out
  | .camera kind, _ =>
      rw [visit]
      exact (sameScope_visitCamera _ kind).bind fun _ => .pure _
  | .primitive kind, _ =>
      rw [visit]
      exact sameScope_visitPrimitive _ kind out

/-- No node leaves another place than it found. Only a material leaves another scope. -/
theorem walks_samePlace : Walks SamePlace where
  object n kind leaves out _ c := (n.sameScope_object kind (visitAll leaves out) c).samePlace
  material := moves_visitMaterial
  sun n c := (n.sameScope_visitSun c).samePlace
  sphereLight n out c := (n.sameScope_visitSphereLight out c).samePlace
  camera n kind c := (n.sameScope_visitCamera kind c).samePlace
  primitive n kind out c := (n.sameScope_visitPrimitive kind out c).samePlace

/-- Visiting a node is balanced and only adds to the records, from every context, whether
statements are emitted or not and whatever faults it meets. The scope is put back as it was
saved and not computed back, so that this needs nothing of the arithmetic of placements. -/
theorem visit_balanced (n : Node) (c : Context) :
    (∀ out, n.Balanced c ((n.visit out).run c).2) ∧
      n.Balanced c (n.compile c).2 ∧ n.Balanced c (n.execute c) := by
  have hVisit : ∀ out, n.Balanced c ((n.visit out).run c).2 := fun out => by
    have hPlace : SamePlace c ((n.visit out).run c).2 := walks_samePlace.visit n out c
    refine ⟨?_, ?_, ?_, fun h => ?_, n.visit_extends out c⟩
    · exact (congrArg Scope.placement hPlace :)
    · exact (congrArg Scope.object hPlace :)
    · exact (congrArg Scope.depth hPlace :)
    · exact congrArg Scope.material (n.sameScope_visit out h c)
  exact ⟨hVisit, hVisit (some []), hVisit none⟩

end Node

end PathTracer
