import PathTracer.Proofs.Scene.Extension
import PathTracer.Proofs.Scene.Renaming
import PathTracer.Proofs.Shader.Commenting

/-! The layout of the data that a walk records, and the statements that it
emits. Neither depends on the time at which options are evaluated, on their
values or on names, but for what comments say. -/
namespace PathTracer

/-- Scopes that refer to the same object and the same material. Placements may differ. -/
structure SameReferences (s t : Scope) : Prop where
  object : s.object = t.object
  material : s.material = t.material

/-- A context in which materials have other names. -/
def Context.renamed (r : Renaming) (c : Context) : Context :=
  { c with materials := c.materials.map r.material }

/-- Entering an object and renaming what is known are independent of each other. -/
theorem Context.renamed_checkIn (r : Renaming) (c : Context) (inner : Placement Float32) :
    (c.checkIn inner).renamed r = (c.renamed r).checkIn inner := by
  simp only [renamed, checkIn, pushObject, pushSlot, nextSlot]

/-- Contexts whose records differ in numbers only: not in their order, their
slots or their materials. -/
structure SameLayout (a b : Context) : Prop where
  scope : SameReferences a.scope b.scope
  materials : a.materials = b.materials
  size : a.data.size = b.data.size
  primitives : a.entities.primitives = b.entities.primitives
  lights : a.entities.lights.length = b.entities.lights.length
  camera : a.entities.camera.isSome = b.entities.camera.isSome

namespace SameLayout

theorem refl (c : Context) : SameLayout c c :=
  ⟨⟨rfl, rfl⟩, rfl, rfl, rfl, rfl, rfl⟩

theorem symm {a b : Context} (h : SameLayout a b) : SameLayout b a :=
  ⟨⟨h.scope.object.symm, h.scope.material.symm⟩, h.materials.symm, h.size.symm,
    h.primitives.symm, h.lights.symm, h.camera.symm⟩

theorem trans {a b c : Context} (hFirst : SameLayout a b) (hSecond : SameLayout b c) :
    SameLayout a c :=
  ⟨⟨hFirst.scope.object.trans hSecond.scope.object,
      hFirst.scope.material.trans hSecond.scope.material⟩,
    hFirst.materials.trans hSecond.materials, hFirst.size.trans hSecond.size,
    hFirst.primitives.trans hSecond.primitives, hFirst.lights.trans hSecond.lights,
    hFirst.camera.trans hSecond.camera⟩

/-- Errors are no part of the layout. -/
instance : Tolerant SameLayout where
  refl := refl
  trans := trans
  report _ _ _ := ⟨⟨rfl, rfl⟩, rfl, rfl, rfl, rfl, rfl⟩

/-- The same renaming on both sides keeps the layout. -/
theorem renamed {a b : Context} (h : SameLayout a b) (r : Renaming) :
    SameLayout (a.renamed r) (b.renamed r) :=
  ⟨h.scope, congrArg (List.map r.material) h.materials, h.size, h.primitives, h.lights, h.camera⟩

/-- Entering an object keeps the layout, whatever the placements are. -/
theorem checkIn {a b : Context} (h : SameLayout a b) (p q : Placement Float32) :
    SameLayout (a.checkIn p) (b.checkIn q) := by
  refine ⟨⟨h.size, h.scope.material⟩, h.materials, ?_, h.primitives, h.lights, h.camera⟩
  simp [Context.checkIn, Context.pushObject, Context.pushSlot, h.size]

/-- Leaving an object restores corresponding scopes. -/
theorem checkOut {a b : Context} (h : SameLayout a b) {s t : Scope} (hScope : SameReferences s t) :
    SameLayout (a.checkOut s) (b.checkOut t) :=
  ⟨hScope, h.materials, h.size, h.primitives, h.lights, h.camera⟩

/-- A slot on both sides keeps the layout, whatever the values in it are. -/
theorem pushSlot {a b : Context} (h : SameLayout a b) (v w : Vec4 Float32) :
    SameLayout (a.pushSlot v) (b.pushSlot w) := by
  refine ⟨h.scope, h.materials, ?_, h.primitives, h.lights, h.camera⟩
  simp [Context.pushSlot, h.size]

/-- The same material on both sides keeps the layout. -/
theorem activate {a b : Context} (h : SameLayout a b) (index : Nat) :
    SameLayout (a.activate index) (b.activate index) :=
  ⟨⟨h.scope.object, rfl⟩, h.materials, h.size, h.primitives, h.lights, h.camera⟩

/-- The material of a name has the same index where all have other names, or is
unknown in both. -/
theorem resolve {r : Renaming} {a b : Context} (h : SameLayout (a.renamed r) b) (name : String)
    (line line' : Nat) :
    (a.resolve name line).1 = (b.resolve (r.material name) line').1 ∧
      SameLayout ((a.resolve name line).2.renamed r) (b.resolve (r.material name) line').2 := by
  have hIndex : b.materialIndex? (r.material name) = a.materialIndex? name := by
    rw [Context.materialIndex?, ← h.materials]
    exact r.findIdx?_map a.materials name
  unfold Context.resolve
  rw [hIndex]
  cases a.materialIndex? name with
  | some index => exact ⟨rfl, h⟩
  | none => exact ⟨rfl, h.scope, h.materials, h.size, h.primitives, h.lights, h.camera⟩

end SameLayout

/-! ### Steps of a walk -/

/-- Outputs that differ in comments, as far as those are allowed. -/
def Output.Relabelled (allows : String → String → Prop) : Output → Output → Prop :=
  Option.Rel (List.Forall₂ (Shader.Stmt.Relabelled allows))

/-- Statements that correspond are added to outputs that correspond. -/
theorem Output.Relabelled.emit {allows : String → String → Prop} {out out' : Output}
    {s s' : Shader.Stmt} (h : Output.Relabelled allows out out') (hStmt : s.Relabelled allows s') :
    Output.Relabelled allows (out.emit s) (out'.emit s') := by
  cases h with
  | none => exact .none
  | some hAll => exact .some (List.rel_append hAll (.cons hStmt .nil))

/-- An output that is not written corresponds to one that is not written. -/
theorem Output.Relabelled.getD {allows : String → String → Prop} {out out' : Output}
    (h : Output.Relabelled allows out out') :
    List.Forall₂ (Shader.Stmt.Relabelled allows) (out.getD []) (out'.getD []) := by
  cases h with
  | none => exact .nil
  | some hAll => exact hAll

/-- Two steps that take related contexts to related contexts, with results in
a relation. The second one knows materials by other names. -/
def Uniform {α : Type} (r : Renaming) (R : α → α → Prop) (m m' : StateM Context α) : Prop :=
  ∀ a b, SameLayout (a.renamed r) b →
    R (m.run a).1 (m'.run b).1 ∧ SameLayout ((m.run a).2.renamed r) (m'.run b).2

/-- Of steps that leave the layout as it is nothing is known but that. -/
theorem uniform_of_moves {α : Type} {r : Renaming} {m m' : StateM Context α}
    (h : Moves SameLayout m) (h' : Moves SameLayout m') : Uniform r (fun _ _ => True) m m' :=
  fun a b hLayout => ⟨trivial, ((h a).renamed r).symm.trans (hLayout.trans (h' b))⟩

namespace Uniform

variable {α β : Type} {r : Renaming} {R : α → α → Prop} {S : β → β → Prop}

/-- Results that correspond are returned without moving the layout. -/
theorem pure {x y : α} (h : R x y) : Uniform r R (Pure.pure x) (Pure.pure y) :=
  fun _ _ hLayout => ⟨h, hLayout⟩

/-- Uniform parts one after the other are uniform. -/
theorem bind {m m' : StateM Context α} {f f' : α → StateM Context β} (h : Uniform r R m m')
    (hNext : ∀ x y, R x y → Uniform r S (f x) (f' y)) : Uniform r S (m >>= f) (m' >>= f') :=
  fun a b hLayout => hNext _ _ (h a b hLayout).1 _ _ (h a b hLayout).2

/-- Reading the context finds contexts of one layout. -/
theorem get : Uniform r (fun a b => SameLayout (a.renamed r) b)
    (MonadState.get : StateM Context Context) MonadState.get :=
  fun _ _ hLayout => ⟨hLayout, hLayout⟩

/-- Changes that keep the layout are uniform. -/
theorem modify {f g : Context → Context}
    (h : ∀ {a b}, SameLayout (a.renamed r) b → SameLayout ((f a).renamed r) (g b)) :
    Uniform r (fun _ _ => True) (modify f : StateM Context PUnit) (modify g) :=
  fun _ _ hLayout => ⟨trivial, h hLayout⟩

end Uniform

namespace Node

variable {r : Renaming}

/-- What a number is, or that it cannot be read, is no part of the layout: an error goes to
the list of errors only. -/
theorem readFloat1_uniform (n n' : Node) (name : String) (default : Float32) :
    Uniform r (fun _ _ => True) (n.readFloat1 name default) (n'.readFloat1 name default) :=
  uniform_of_moves (n.moves_readFloat1 name default) (n'.moves_readFloat1 name default)

/-- What a vector is, or that it cannot be read, is no part of the layout. -/
theorem readFloat3_uniform (n n' : Node) (name : String) (default : Vec3 Float32) :
    Uniform r (fun _ _ => True) (n.readFloat3 name default) (n'.readFloat3 name default) :=
  uniform_of_moves (n.moves_readFloat3 name default) (n'.moves_readFloat3 name default)

/-- Objects of a marching pass are no part of the layout. -/
theorem addMarched_sameLayout (n : Node) : Moves SameLayout n.addMarched :=
  (n.moves_readFloat1 _ _).bind fun _ => (n.moves_readFloat1 _ _).bind fun _ =>
    n.moves_readBounds.bind fun _ => Moves.get.bind fun _ _ =>
      ⟨⟨rfl, rfl⟩, rfl, rfl, rfl, rfl, rfl⟩

/-- The new name is resolved where the name is, to the same index. -/
theorem activate_uniform (n n' : Node) (name : String) :
    Uniform r (fun _ _ => True) (n.activate name) (n'.activate (r.material name)) := by
  intro a b hLayout
  have hResolve := hLayout.resolve name n.line n'.line
  refine ⟨trivial, ?_⟩
  change SameLayout ((n.activate name a).2.renamed r) (n'.activate (r.material name) b).2
  unfold activate
  generalize a.resolve name n.line = x at hResolve
  generalize b.resolve (r.material name) n'.line = y at hResolve
  obtain ⟨found, c⟩ := x
  obtain ⟨_, d⟩ := y
  obtain ⟨hFound, hNext⟩ := hResolve
  cases hFound
  cases found with
  | some index => exact hNext.activate index
  | none => exact hNext

/-- Materials that may be named become active under their other names. -/
theorem activate?_uniform (n n' : Node) (name? : Option String) :
    Uniform r (fun _ _ => True)
      (match name? with
        | some name => n.activate name
        | none => pure ())
      (match name?.map r.material with
        | some name => n'.activate name
        | none => pure ()) := by
  cases name? with
  | some name => exact n.activate_uniform n' name
  | none => exact Uniform.pure trivial

/-- Objects are entered alike with any placements. -/
theorem checkIn_uniform (p q : Placement Float32) :
    Uniform r (fun _ _ => True) (modify fun c => c.checkIn p : StateM Context PUnit)
      (modify fun c => c.checkIn q) := by
  refine Uniform.modify fun {a b} hLayout => ?_
  rw [Context.renamed_checkIn]
  exact hLayout.checkIn p q

/-- Objects are left alike. -/
theorem checkOut_uniform {s t : Scope} (h : SameReferences s t) :
    Uniform r (fun _ _ => True) (modify fun c => c.checkOut s : StateM Context PUnit)
      (modify fun c => c.checkOut t) :=
  Uniform.modify fun hLayout => hLayout.checkOut h

/-- Slots are taken in the same places, whatever is put into them. -/
theorem allocate_uniform (v w : Vec4 Float32) : Uniform r Eq (allocate v) (allocate w) :=
  fun _ _ hLayout => ⟨hLayout.size, hLayout.pushSlot v w⟩

/-- The same primitive is recorded on both sides. -/
theorem addPrimitive_uniform (p : Primitive) :
    Uniform r (fun _ _ => True)
      (addEntities fun e => { e with primitives := e.primitives ++ [p] })
      (addEntities fun e => { e with primitives := e.primitives ++ [p] }) := by
  refine Uniform.modify fun hLayout => ?_
  refine ⟨hLayout.scope, hLayout.materials, hLayout.size, ?_, hLayout.lights, hLayout.camera⟩
  exact congrArg (· ++ [p]) hLayout.primitives

/-- Lights count, but what is recorded of them does not. -/
theorem addLight_uniform (l m : Light) :
    Uniform r (fun _ _ => True) (addEntities fun e => { e with lights := e.lights ++ [l] })
      (addEntities fun e => { e with lights := e.lights ++ [m] }) := by
  refine Uniform.modify fun {a b} hLayout => ?_
  refine ⟨hLayout.scope, hLayout.materials, hLayout.size, hLayout.primitives, ?_, hLayout.camera⟩
  have hLights : a.entities.lights.length = b.entities.lights.length := hLayout.lights
  simp [Context.renamed, hLights]

/-- A camera is there on both sides, wherever it stands. -/
theorem setCamera_uniform (x y : Camera) :
    Uniform r (fun _ _ => True) (addEntities fun e => { e with camera := some x })
      (addEntities fun e => { e with camera := some y }) :=
  Uniform.modify fun hLayout =>
    ⟨hLayout.scope, hLayout.materials, hLayout.size, hLayout.primitives, hLayout.lights, rfl⟩

/-- Suns take their place in the list of lights, with any direction. -/
theorem visitSun_uniform (n n' : Node) :
    Uniform r (fun _ _ => True) n.visitSun n'.visitSun := by
  refine (uniform_of_moves n.moves_readDirection n'.moves_readDirection).bind fun _ _ _ => ?_
  refine (n.readFloat3_uniform n' _ _).bind fun _ _ _ => ?_
  refine (allocate_uniform _ _).bind fun data _ hData => ?_
  cases hData
  exact addLight_uniform _ _

/-- Cameras are there, with any position and projection. -/
theorem visitCamera_uniform (n n' : Node) (kind : CameraKind) :
    Uniform r (fun _ _ => True) (n.visitCamera kind) (n'.visitCamera kind) := by
  unfold visitCamera
  refine (n.readFloat3_uniform n' _ _).bind fun _ _ _ => ?_
  refine (n.readFloat3_uniform n' _ _).bind fun _ _ _ => ?_
  refine (n.readFloat1_uniform n' _ _).bind fun _ _ _ => ?_
  exact setCamera_uniform _ _

/-- Primitives of one kind take the same slots. -/
theorem allocatePrimitive_uniform (n n' : Node) (kind : PrimitiveKind) :
    Uniform r Eq (n.allocatePrimitive kind) (n'.allocatePrimitive kind) := by
  cases kind with
  | sphere =>
      refine (n.readFloat3_uniform n' _ _).bind fun _ _ _ => ?_
      refine (n.readFloat1_uniform n' _ _).bind fun _ _ _ => ?_
      exact allocate_uniform _ _
  | box =>
      refine (n.readFloat3_uniform n' _ _).bind fun _ _ _ => ?_
      refine (n.readFloat3_uniform n' _ _).bind fun _ _ _ => ?_
      refine (allocate_uniform _ _).bind fun slot _ hSlot => ?_
      exact (allocate_uniform _ _).bind fun _ _ _ => Uniform.pure hSlot
  | plane =>
      refine (n.readFloat3_uniform n' _ _).bind fun _ _ _ => ?_
      refine (n.readFloat1_uniform n' _ _).bind fun _ _ _ => ?_
      exact allocate_uniform _ _

/-- Primitives of one kind write statements that correspond. -/
theorem visitPrimitive_uniform (n n' : Node) (kind : PrimitiveKind) {out out' : Output}
    (hOut : Output.Relabelled r.allows out out') :
    Uniform r (Output.Relabelled r.allows) (n.visitPrimitive kind out)
      (n'.visitPrimitive kind out') := by
  unfold visitPrimitive
  refine Uniform.get.bind fun c d hLayout => ?_
  refine (n.allocatePrimitive_uniform n' kind).bind fun data _ hData => ?_
  cases hData
  have hObject : c.scope.object = d.scope.object := hLayout.scope.object
  have hScope : c.scope.material = d.scope.material := hLayout.scope.material
  have hMaterial : c.activeMaterial = d.activeMaterial := by
    rw [Context.activeMaterial, Context.activeMaterial, hScope]
  rw [hMaterial, hObject]
  exact (addPrimitive_uniform _).bind fun _ _ _ => Uniform.pure (hOut.emit (.code rfl))

namespace Renamed

variable {n n' : Node}

/-- The material of an object is the renamed one. -/
theorem activateOption_uniform (h : n.Renamed r n') {kind : ObjectKind}
    (hKind : n.kind = .object kind) :
    Uniform r (fun _ _ => True) n.activateOption n'.activateOption := by
  have hSame : n'.kind = .object kind :=
    hKind ▸ NodeKind.eq_of_unplaced h.kind (hKind ▸ nofun)
  have hMaterial := h.material
  rw [materialName?, materialName?, hKind, hSame] at hMaterial
  unfold activateOption
  rw [show n'.options.text? "Material" = _ from hMaterial]
  exact n.activate?_uniform n' _

/-- A definition that is renamed activates the renamed material. -/
theorem visitMaterial_uniform (h : n.Renamed r n') (hSurface : n.surfaceBody?.isSome = true) :
    Uniform r (fun _ _ => True) n.visitMaterial n'.visitMaterial := by
  unfold visitMaterial
  rw [h.explicitName? hSurface]
  exact n.activate?_uniform n' _

/-- The material of a light is renamed and found at the same index. -/
theorem lightMaterial_uniform (h : n.Renamed r n') (hKind : n.kind = .light .sphere) :
    Uniform r Eq n.lightMaterial n'.lightMaterial := by
  have hSame : n'.kind = .light .sphere :=
    hKind ▸ NodeKind.eq_of_unplaced h.kind (hKind ▸ nofun)
  have hMaterial := h.material
  rw [materialName?, materialName?, hKind, hSame] at hMaterial
  unfold lightMaterial
  rw [show n'.options.text? "Material" = _ from hMaterial]
  cases n.options.text? "Material" with
  | some name => exact fun a b hLayout => hLayout.resolve name n.line n'.line
  | none =>
      refine (uniform_of_moves (n.moves_report _) (n'.moves_report _)).bind fun _ _ _ => ?_
      exact Uniform.pure rfl

/-- Sphere lights write statements that correspond, for the same material. -/
theorem visitSphereLight_uniform (h : n.Renamed r n') (hKind : n.kind = .light .sphere)
    {out out' : Output} (hOut : Output.Relabelled r.allows out out') :
    Uniform r (Output.Relabelled r.allows) (n.visitSphereLight out) (n'.visitSphereLight out') := by
  unfold visitSphereLight
  refine (n.readFloat3_uniform n' _ _).bind fun _ _ _ => ?_
  refine (n.readFloat1_uniform n' _ _).bind fun _ _ _ => ?_
  refine (h.lightMaterial_uniform hKind).bind fun found _ hFound => ?_
  cases hFound
  cases found with
  | none => exact Uniform.pure hOut
  | some index =>
      refine Uniform.get.bind fun c d _ => ?_
      refine (allocate_uniform _ _).bind fun data _ hData => ?_
      cases hData
      exact (addLight_uniform _ _).bind fun _ _ _ => Uniform.pure (hOut.emit (.code rfl))

/-- Objects are entered alike, and the frames they leave hold the same references. -/
theorem enterObject_uniform (h : n.Renamed r n') {kind : ObjectKind}
    (hKind : n.kind = .object kind) :
    Uniform r SameReferences (n.enterObject kind) (n'.enterObject kind) := by
  unfold enterObject
  refine (uniform_of_moves n.moves_readPlacement n'.moves_readPlacement).bind fun p q _ => ?_
  refine Uniform.get.bind fun c d hLayout => ?_
  refine (checkIn_uniform p q).bind fun _ _ _ => ?_
  refine (h.activateOption_uniform hKind).bind fun _ _ _ => ?_
  split
  · refine (uniform_of_moves n.addMarched_sameLayout n'.addMarched_sameLayout).bind fun _ _ _ => ?_
    exact Uniform.pure hLayout.scope
  · exact Uniform.pure hLayout.scope

/-- The comment before an object names it, under its other name too. -/
theorem objectComment_relabelled (h : n.Renamed r n') :
    n.objectComment.Relabelled r.allows n'.objectComment := by
  unfold objectComment
  rw [NodeKind.name_of_unplaced h.kind]
  exact .comment (r.allows_quoted n.kind h.label)

end Renamed

mutual

/-- A walk emits the same statements and records the same layout wherever it
starts from the same layout, also through a tree with other names. -/
theorem visit_uniform : (n n' : Node) → n.Paired (Renamed r) n' → {out out' : Output} →
    Output.Relabelled r.allows out out' →
      Uniform r (Output.Relabelled r.allows) (n.visit out) (n'.visit out')
  | ⟨.object kind, _, _, _, leaves⟩, ⟨_, _, _, _, leaves'⟩, h, out, out', hOut => by
      obtain rfl := NodeKind.eq_of_unplaced h.related.kind nofun
      rw [visit, visit]
      refine (h.related.enterObject_uniform rfl).bind fun s t hScope => ?_
      refine (visitAll_uniform leaves leaves' h.leaves
        (hOut.emit h.related.objectComment_relabelled)).bind fun _ _ hFound => ?_
      exact (checkOut_uniform hScope).bind fun _ _ _ => Uniform.pure hFound
  | ⟨.material .surface _, _, _, _, _⟩, ⟨_, _, _, _, _⟩, h, out, out', hOut => by
      obtain ⟨_, rfl⟩ := NodeKind.exists_material_of_unplaced h.related.kind
      rw [visit, visit]
      exact (h.related.visitMaterial_uniform rfl).bind fun _ _ _ => Uniform.pure hOut
  | ⟨.material .environment _, _, _, _, _⟩, ⟨_, _, _, _, _⟩, h, out, out', hOut => by
      obtain ⟨_, rfl⟩ := NodeKind.exists_material_of_unplaced h.related.kind
      rw [visit, visit]
      exact Uniform.pure hOut
  | ⟨.render, _, _, _, leaves⟩, ⟨_, _, _, _, leaves'⟩, h, out, out', hOut => by
      obtain rfl := NodeKind.eq_of_unplaced h.related.kind nofun
      rw [visit, visit]
      exact visitAll_uniform leaves leaves' h.leaves hOut
  | ⟨.light .sun, _, _, _, _⟩, ⟨_, _, _, _, _⟩, h, out, out', hOut => by
      obtain rfl := NodeKind.eq_of_unplaced h.related.kind nofun
      rw [visit, visit]
      exact (visitSun_uniform _ _).bind fun _ _ _ => Uniform.pure hOut
  | ⟨.light .sphere, _, _, _, _⟩, ⟨_, _, _, _, _⟩, h, out, out', hOut => by
      obtain rfl := NodeKind.eq_of_unplaced h.related.kind nofun
      rw [visit, visit]
      exact h.related.visitSphereLight_uniform rfl hOut
  | ⟨.camera kind, _, _, _, _⟩, ⟨_, _, _, _, _⟩, h, out, out', hOut => by
      obtain rfl := NodeKind.eq_of_unplaced h.related.kind nofun
      rw [visit, visit]
      exact (visitCamera_uniform _ _ kind).bind fun _ _ _ => Uniform.pure hOut
  | ⟨.primitive kind, _, _, _, _⟩, ⟨_, _, _, _, _⟩, h, out, out', hOut => by
      obtain rfl := NodeKind.eq_of_unplaced h.related.kind nofun
      rw [visit, visit]
      exact visitPrimitive_uniform _ _ kind hOut

/-- Siblings that are renamed one by one write statements that correspond. -/
theorem visitAll_uniform : (nodes nodes' : List Node) → AllPaired (Renamed r) nodes nodes' →
    {out out' : Output} → Output.Relabelled r.allows out out' →
      Uniform r (Output.Relabelled r.allows) (visitAll nodes out) (visitAll nodes' out')
  | [], _, h, out, out', hOut => by
      cases h
      rw [visitAll, visitAll]
      exact Uniform.pure hOut
  | n :: rest, _, h, out, out', hOut => by
      obtain _ | ⟨hFirst, hRest⟩ := h
      rw [visitAll, visitAll]
      exact (visit_uniform n _ hFirst hOut).bind fun _ _ hFound =>
        visitAll_uniform rest _ hRest hFound

end

end Node

end PathTracer
