import PathTracer.Proofs.Scene.Balance
import PathTracer.Proofs.Shader.Generation
import PathTracer.Render.Tracer

/-! The indices of materials. They are given out in the order of declaration, and the
programs of an accepted graph stand at them. -/
namespace PathTracer

/-! ### Definitions -/

namespace SceneGraph

/-- Definitions have names of their own, none of which was taken before. -/
theorem nodup_of_definitionsAfter {taken : List String} {nodes : List Node}
    {definitions : List Definition} (h : definitionsAfter taken nodes = .ok definitions) :
    (definitions.map Definition.name).Nodup ∧ ∀ d ∈ definitions, d.name ∉ taken := by
  induction nodes generalizing taken definitions with
  | nil =>
      cases h
      exact ⟨List.nodup_nil, nofun⟩
  | cons n rest ih =>
      unfold definitionsAfter at h
      split at h
      · cases h
      · rename_i name hName
        split at h
        · exact ih h
        · rename_i hFree
          split at h
          · cases h
          · rename_i more hMore
            cases h
            obtain ⟨hNodup, hTaken⟩ := ih hMore
            refine ⟨List.nodup_cons.mpr ⟨fun hMem => ?_, hNodup⟩, List.forall_mem_cons.mpr ⟨?_, ?_⟩⟩
            · obtain ⟨d, hd, hSame⟩ := List.mem_map.mp hMem
              exact hTaken d hd (hSame ▸ List.mem_cons_self)
            · exact fun hMem => hFree (List.contains_iff_mem.mpr hMem)
            · exact fun d hd hMem => hTaken d hd (List.mem_cons_of_mem n.givenName hMem)

theorem nodup_of_definitions {g : SceneGraph} {definitions : List Definition}
    (h : g.definitions = .ok definitions) : (definitions.map Definition.name).Nodup :=
  (nodup_of_definitionsAfter h).1

end SceneGraph

namespace Context

/-- A name that is not known yet gets the next index. -/
theorem registerMaterial_of_not_mem {c : Context} {name : String} (h : name ∉ c.materials) :
    c.registerMaterial name = { c with materials := c.materials ++ [name] } ∧
      (c.registerMaterial name).materialIndex? name = some c.materials.length := by
  have hNone : c.materials.findIdx? (· == name) = none :=
    List.findIdx?_eq_none_iff.mpr fun other hOther => by
      simpa using fun hSame : other = name => h (hSame ▸ hOther)
  have hContext : c.registerMaterial name = { c with materials := c.materials ++ [name] } := by
    rw [registerMaterial, materialIndex?, hNone]
  rw [hContext]
  exact ⟨rfl, by simp [materialIndex?, List.findIdx?_append, hNone]⟩

variable {c : Context} {definitions : List Definition}

/-- Names that are all different are registered one behind the other. -/
theorem registerAll_of_nodup (h : (c.materials ++ definitions.map Definition.name).Nodup) :
    c.registerAll definitions =
      { c with materials := c.materials ++ definitions.map Definition.name } := by
  induction definitions generalizing c with
  | nil => simp [registerAll]
  | cons d rest ih =>
      have hFree : d.name ∉ c.materials := fun hMem =>
        (List.nodup_append.mp h).2.2 _ hMem d.name List.mem_cons_self rfl
      rw [List.map_cons, List.append_cons] at h ⊢
      change (c.registerMaterial d.name).registerAll rest = _
      rw [(registerMaterial_of_not_mem hFree).1, ih h]

/-- Materials without faults are all built, under the names that they define and with
the next indices in their order. -/
theorem buildMaterials_of_nodup (h : (c.materials ++ definitions.map Definition.name).Nodup)
    (hFaults : ∀ d ∈ definitions, d.fault? = none) :
    (c.buildMaterials definitions).1.map Material.Program.name =
        definitions.map Definition.name ∧
      (c.buildMaterials definitions).1.map Material.Program.index =
        List.range' c.materials.length definitions.length := by
  induction definitions generalizing c with
  | nil => exact ⟨rfl, rfl⟩
  | cons d rest ih =>
      obtain ⟨hFirst, hRest⟩ := List.forall_mem_cons.mp hFaults
      have hFree : d.name ∉ c.materials := fun hMem =>
        (List.nodup_append.mp h).2.2 _ hMem d.name List.mem_cons_self rfl
      rw [List.map_cons, List.append_cons] at h
      obtain ⟨hContext, hIndex⟩ := registerMaterial_of_not_mem hFree
      obtain ⟨p, hBuild, -⟩ | ⟨e, -, hFault⟩ := Material.Program.build_cases d.name
        (((c.registerMaterial d.name).materialIndex? d.name).getD 0) .surface d.body
      · obtain ⟨hName, hPlace, -⟩ := Material.Program.build_eq_ok hBuild
        rw [hIndex, Option.getD_some] at hPlace
        have hNext : ((c.registerMaterial d.name).materials ++ rest.map Definition.name).Nodup := by
          rw [hContext]
          exact h
        obtain ⟨hNames, hIndices⟩ := ih hNext hRest
        have hCons : (c.buildMaterials (d :: rest)).1 =
            p :: ((c.registerMaterial d.name).buildMaterials rest).1 := by
          simp only [buildMaterials, hBuild]
        have hLength : (c.registerMaterial d.name).materials.length = c.materials.length + 1 := by
          rw [hContext, List.length_append, List.length_singleton]
        rw [hCons]
        refine ⟨by rw [List.map_cons, hNames, hName]; rfl, ?_⟩
        rw [List.map_cons, hIndices, hPlace, hLength, List.length_cons, List.range'_succ]
      · cases hFirst.symm.trans hFault

end Context

/-! ### Scenes -/

/-- What an accepted graph was made into. Its materials have no faults, and its walk
starts where they are registered and meets none. -/
theorem SceneGraph.compileAt_walked {g : SceneGraph} {time : Float32} {s : Scene}
    (h : g.compileAt time = .ok s) :
    ∃ render definitions, g.findRender = .ok render ∧ g.definitions = .ok definitions ∧
      (∀ d ∈ definitions, d.fault? = none) ∧
      s.materials = ((Context.start time).buildMaterials definitions).1 ∧
      let walked := render.compile ((Context.start time).registerAll definitions)
      walked.2.errors = [] ∧ walked.2.entities = s.entities ∧ walked.2.data = s.data ∧
        Shader.Program.generate s.materials s.environment walked.1 = .ok s.program := by
  obtain ⟨render, definitions, node, hRender, hDefinitions, hEnvironment⟩ := compileAt_parts h
  obtain ⟨programs, faults, hPrograms⟩ := Context.buildMaterials_eq [] definitions
  obtain ⟨environment, more, hProgram⟩ := Context.buildEnvironment_eq node
  have hBuilt := hPrograms (.start time) rfl
  let start : Context := { Context.start time with
    materials := Context.registered [] definitions
    errors := faults ++ more }
  simp only [compileAt, hRender, hDefinitions, hEnvironment, hBuilt, hProgram] at h
  replace h : (render.compile start).2.finish render programs environment (render.compile start).1 =
    .ok s := h
  obtain ⟨hErrors, _, options, program, _, hGenerate, rfl⟩ := Context.finish_eq_ok.mp h
  -- A walk adds to the errors that it starts with, so there were none.
  have hNone : faults ++ more = [] := by
    have hPrefix := (render.compile_extends start).errors
    rw [hErrors] at hPrefix
    exact List.prefix_nil.mp hPrefix
  have hFresh : start = (Context.start time).registerAll definitions := by
    rw [Context.registerAll_eq]
    simp only [start, hNone]
    rfl
  have hFaults := (Context.start time).errors_buildMaterials definitions
  rw [hBuilt] at hFaults
  replace hFaults : faults = definitions.filterMap Definition.fault? := hFaults
  rw [(List.append_eq_nil_iff.mp hNone).1] at hFaults
  refine ⟨render, definitions, hRender, hDefinitions, List.filterMap_eq_nil_iff.mp hFaults.symm,
    (congrArg Prod.fst hBuilt).symm, ?_⟩
  rw [← hFresh]
  exact ⟨hErrors, rfl, rfl, hGenerate⟩

namespace Scene

variable {s : Scene} {g : SceneGraph} {time : Float32}

/-- Every material is one for surfaces and stands at its index, under a name of its
own. -/
structure Numbered (s : Scene) : Prop where
  surface : ∀ m ∈ s.materials, m.role = .surface
  indices : s.materials.map Material.Program.index = List.range s.materials.length
  nodup : (s.materials.map Material.Program.name).Nodup

/-- Compiling walks a render node where the materials are known by their names, in their
order. -/
theorem walked_of_compileAt (h : g.compileAt time = .ok s) :
    s.Numbered ∧ ∃ render, g.findRender = .ok render ∧
      let walked := render.compile
        { Context.start time with materials := s.materials.map Material.Program.name }
      walked.2.errors = [] ∧ walked.2.entities = s.entities ∧ walked.2.data = s.data ∧
        Shader.Program.generate s.materials s.environment walked.1 = .ok s.program := by
  obtain ⟨render, definitions, hRender, hDefinitions, hFaults, hMaterials, hWalked⟩ :=
    g.compileAt_walked h
  have hNodup := g.nodup_of_definitions hDefinitions
  obtain ⟨hNames, hIndices⟩ :=
    Context.buildMaterials_of_nodup (c := .start time) hNodup hFaults
  rw [← hMaterials] at hNames hIndices
  have hLength : s.materials.length = definitions.length := by
    rw [← List.length_map (f := Material.Program.name), hNames, List.length_map]
  refine ⟨⟨fun m hm => ?_, ?_, hNames ▸ hNodup⟩, render, hRender, ?_⟩
  · exact (Context.built_of_mem_buildMaterials (hMaterials ▸ hm)).role_eq
  · rw [hIndices, hLength, List.range_eq_range']
    rfl
  · rw [Context.registerAll_of_nodup (c := .start time) hNodup, ← hNames] at hWalked
    exact hWalked

theorem Numbered.index (h : s.Numbered) {k : Nat} {m : Material.Program}
    (hAt : s.materials[k]? = some m) : m.index = k := by
  have hIndex : (s.materials.map Material.Program.index)[k]? = some m.index := by simp [hAt]
  rw [h.indices] at hIndex
  obtain ⟨_, hPlace⟩ := List.getElem?_eq_some_iff.mp hIndex
  simpa using hPlace.symm

theorem material?_natCast (s : Scene) (k : Nat) : s.material? k = s.materials[k]? := by
  rw [material?, if_neg (by omega), Int.toNat_natCast]

/-- There is a material exactly at the indices below their number. -/
theorem material?_eq_ite (s : Scene) (id : Int) :
    s.material? id =
      if 0 ≤ id ∧ id < s.materials.length then s.materials[id.toNat]? else none := by
  unfold material?
  by_cases hNegative : id < 0
  · rw [if_pos hNegative, if_neg (by omega)]
  · rw [if_neg hNegative]
    split
    · rfl
    · exact List.getElem?_eq_none (by omega)

/-- Names and indices of materials determine each other. -/
theorem Numbered.materialIndex?_eq_some (h : s.Numbered) {name : String} {k : Nat} :
    s.materialIndex? name = some k ↔ ∃ m, s.material? k = some m ∧ m.name = name := by
  rw [material?_natCast, materialIndex?, List.findIdx?_eq_some_iff_getElem]
  constructor
  · rintro ⟨hBound, hName, -⟩
    exact ⟨_, List.getElem?_eq_getElem hBound, by simpa using hName⟩
  · rintro ⟨m, hMaterial, rfl⟩
    obtain ⟨hBound, rfl⟩ := List.getElem?_eq_some_iff.mp hMaterial
    refine ⟨hBound, by simp, fun j hj hSame => ?_⟩
    have hLength : (s.materials.map Material.Program.name).length = s.materials.length := by
      rw [List.length_map]
    have hNames : (s.materials.map Material.Program.name)[j] =
        (s.materials.map Material.Program.name)[k] := by
      simpa using hSame
    exact absurd ((List.getElem_inj h.nodup).mp hNames) (Nat.ne_of_lt hj)

end Scene

/-! ### Records -/

namespace Context

/-- The index of a material that a context knows, as records hold it. -/
def IsIndex (c : Context) (i : Int) : Prop :=
  ∃ k < c.materials.length, i = wrapIndex k

/-- All records of materials are indices of known ones, or stand for none. -/
structure Known (c : Context) : Prop where
  scope : ∀ i, c.scope.material = some i → c.IsIndex i
  primitives : ∀ p ∈ c.entities.primitives, p.material = -1 ∨ c.IsIndex p.material
  suns : ∀ l ∈ c.entities.lights, l.kind = .sun → l.material = -1
  spheres : ∀ l ∈ c.entities.lights, l.kind = .sphere → c.IsIndex l.material

/-- A step that keeps the known materials and refers to no others. -/
structure Keeps (c d : Context) : Prop where
  materials : d.materials = c.materials
  known : c.Known → d.Known

variable {c d : Context}

theorem isIndex_congr (h : d.materials = c.materials) {i : Int} : d.IsIndex i ↔ c.IsIndex i := by
  rw [IsIndex, IsIndex, h]

theorem Keeps.of_eq (hMaterials : d.materials = c.materials)
    (hScope : d.scope.material = c.scope.material)
    (hPrimitives : d.entities.primitives = c.entities.primitives)
    (hLights : d.entities.lights = c.entities.lights) : Keeps c d := by
  refine ⟨hMaterials, fun h => ⟨?_, ?_, ?_, ?_⟩⟩
  all_goals simp only [isIndex_congr hMaterials, hScope, hPrimitives, hLights]
  exacts [h.scope, h.primitives, h.suns, h.spheres]

theorem Keeps.trans {b : Context} (hFirst : Keeps b c) (hSecond : Keeps c d) : Keeps b d :=
  ⟨hSecond.materials.trans hFirst.materials, hSecond.known ∘ hFirst.known⟩

/-- A light whose material is known can be added. -/
theorem keeps_light (c : Context) (l : Light) (hSun : l.kind = .sun → l.material = -1)
    (hSphere : l.kind = .sphere → c.IsIndex l.material) :
    Keeps c { c with entities := { c.entities with lights := c.entities.lights ++ [l] } } where
  materials := rfl
  known h := by
    refine ⟨h.scope, h.primitives, fun o ho => ?_, fun o ho => ?_⟩
    · obtain hOld | hNew := List.mem_append.mp ho
      · exact h.suns o hOld
      · exact List.mem_singleton.mp hNew ▸ hSun
    · obtain hOld | hNew := List.mem_append.mp ho
      · exact h.spheres o hOld
      · exact List.mem_singleton.mp hNew ▸ hSphere

/-- So can a primitive with the active material. -/
theorem keeps_primitive (c : Context) (p : Primitive) (hActive : p.material = c.activeMaterial) :
    Keeps c { c with entities := { c.entities with
      primitives := c.entities.primitives ++ [p] } } where
  materials := rfl
  known h := by
    refine ⟨h.scope, fun o ho => ?_, h.suns, h.spheres⟩
    obtain hOld | hNew := List.mem_append.mp ho
    · exact h.primitives o hOld
    · rw [List.mem_singleton.mp hNew, hActive, activeMaterial]
      cases hMaterial : c.scope.material with
      | none => exact .inl rfl
      | some i => exact .inr (h.scope i hMaterial)

instance : Entering Keeps where
  refl _ := .of_eq rfl rfl rfl rfl
  trans := Keeps.trans
  report _ _ _ := .of_eq rfl rfl rfl rfl
  slot _ _ := .of_eq rfl rfl rfl rfl
  object _ _ := .of_eq rfl rfl rfl rfl
  sun c v emission :=
    have hSlot : c.Keeps (c.pushSlot v) := .of_eq rfl rfl rfl rfl
    hSlot.trans <| (c.pushSlot v).keeps_light ⟨.sun, c.nextSlot, -1, 0.0, emission⟩ (fun _ => rfl)
      nofun
  activate {_ _ index} h := by
    refine ⟨rfl, fun hKnown => ⟨fun i hi => ?_, hKnown.primitives, hKnown.suns, hKnown.spheres⟩⟩
    obtain rfl := Option.some.inj hi
    exact ⟨index, (List.findIdx?_eq_some_iff_getElem.mp h).1, rfl⟩
  checkIn _ _ := .of_eq rfl rfl rfl rfl

end Context

namespace Node

open Context (Keeps)

/-- A name that is looked up is known afterwards as before, with its index. -/
theorem isIndex_of_resolve {c : Context} {name : String} {line index : Nat}
    (h : (c.resolve name line).1 = some index) : c.IsIndex (Context.wrapIndex index) := by
  unfold Context.resolve at h
  split at h
  · rename_i found hFound
    obtain rfl := Option.some.inj h
    obtain ⟨hBound, -⟩ := List.findIdx?_eq_some_iff_getElem.mp hFound
    exact ⟨found, hBound, rfl⟩
  · cases h

/-- What is inside an object may change the active material, but its end does not. This is
so on all paths, as the scope from before is put back even where a child has met a fault. -/
theorem keeps_object (n : Node) (kind : ObjectKind) {inner : StateM Context Output}
    (h : Moves Keeps inner) :
    Moves Keeps (do
      let saved ← n.enterObject kind
      let out ← inner
      modify fun c => c.checkOut saved
      return out) := by
  intro c
  have hInner : Keeps c ((n.enterObject kind >>= fun _ => inner).run c).2 :=
    ((n.moves_enterObject kind).bind fun _ => h) c
  refine ⟨hInner.materials, fun hKnown => ?_⟩
  obtain ⟨-, hPrimitives, hSuns, hSpheres⟩ := hInner.known hKnown
  refine ⟨fun i hi => ?_, hPrimitives, hSuns, hSpheres⟩
  replace hi : ((n.enterObject kind).run c).1.material = some i := hi
  rw [n.saved_of_enterObject kind c] at hi
  exact (Context.isIndex_congr hInner.materials).mpr (hKnown.scope i hi)

theorem isIndex_of_lightMaterial {n : Node} {c : Context} {index : Nat}
    (h : (n.lightMaterial.run c).1 = some index) : c.IsIndex (Context.wrapIndex index) := by
  unfold lightMaterial at h
  split at h
  · exact isIndex_of_resolve h
  · cases h

/-- A sphere light is recorded with an index that is there. -/
theorem keeps_visitSphereLight (n : Node) (out : Output) :
    Moves Keeps (n.visitSphereLight out) := by
  refine (n.moves_readFloat3 _ _).bind fun position => (n.moves_readFloat1 _ _).bind fun radius => ?_
  intro c
  refine Moves.bind_at (n.moves_lightMaterial c) ?_
  have hIndex := @isIndex_of_lightMaterial n c
  have hMaterials : (n.lightMaterial.run c).2.materials = c.materials :=
    (n.moves_lightMaterial (R := Keeps) c).materials
  generalize n.lightMaterial.run c = found at hIndex hMaterials
  obtain ⟨index, d⟩ := found
  cases index with
  | none => exact Tolerant.refl d
  | some index =>
      let worldRadius := radius * d.scope.placement.scale
      let filled := d.pushSlot ((d.toWorld position).extend worldRadius)
      have hKnown : filled.IsIndex (Context.wrapIndex index) :=
        (Context.isIndex_congr hMaterials).mpr (hIndex rfl)
      dsimp only
      -- Nothing is to be computed of the index.
      generalize Context.wrapIndex index = material at hKnown
      refine Keeps.trans (Appending.slot d _) (filled.keeps_light
        ⟨.sphere, d.nextSlot, material, worldRadius, .zero⟩ (fun hSun => ?_) fun _ => hKnown)
      cases hSun

theorem keeps_visitPrimitive (n : Node) (kind : PrimitiveKind) (out : Output) :
    Moves Keeps (n.visitPrimitive kind out) := by
  intro c
  have hData : Keeps c ((n.allocatePrimitive kind).run c).2 := n.moves_allocatePrimitive kind c
  have hScope : ((n.allocatePrimitive kind).run c).2.scope = c.scope :=
    n.moves_allocatePrimitive (R := Context.SameScope) kind c
  refine hData.trans (Context.keeps_primitive _ _ ?_)
  change c.activeMaterial = ((n.allocatePrimitive kind).run c).2.activeMaterial
  rw [Context.activeMaterial, Context.activeMaterial, hScope]

/-- A walk keeps the known materials and refers to no others. -/
theorem walks_keeps : Walks Keeps where
  object n kind _ _ h := n.keeps_object kind h
  material := moves_visitMaterial
  sun := moves_visitSun
  sphereLight := keeps_visitSphereLight
  camera n kind := n.moves_visitCamera kind fun _ _ => .of_eq rfl rfl rfl rfl
  primitive := keeps_visitPrimitive

end Node

/-! ### Bounds -/

namespace Scene

variable {s : Scene} {g : SceneGraph} {time : Float32}

/-- An index that fits a signed 32-bit number is not changed by becoming one. -/
theorem wrapIndex_of_lt {k : Nat} (h : k < 2 ^ 31) : Context.wrapIndex k = k := by
  unfold Context.wrapIndex
  exact Int.bmod_eq_of_le (by omega) (by omega)

/-- The records of a scene are those of a walk that knows as many materials. -/
theorem known_of_compileAt (h : g.compileAt time = .ok s) :
    ∃ c : Context, c.Known ∧ c.materials.length = s.materials.length ∧
      c.entities = s.entities := by
  obtain ⟨-, render, -, -, hEntities, -⟩ := walked_of_compileAt h
  let start : Context :=
    { Context.start time with materials := s.materials.map Material.Program.name }
  have hStart : start.Known := ⟨nofun, nofun, nofun, nofun⟩
  have hKeeps : start.Keeps (render.compile start).2 := Node.walks_keeps.visit render (some []) start
  refine ⟨(render.compile start).2, hKeeps.known hStart, ?_, hEntities⟩
  rw [hKeeps.materials, List.length_map]

/-- The index of a known material is one of a material that is there. -/
theorem bounds_of_isIndex {c : Context} (hNames : c.materials.length = s.materials.length)
    (hFits : s.materials.length ≤ 2 ^ 31) {i : Int} (h : c.IsIndex i) :
    0 ≤ i ∧ i < s.materials.length := by
  obtain ⟨k, hBound, hIndex⟩ := h
  rw [hNames] at hBound
  have hLess : k < 2 ^ 31 := Nat.lt_of_lt_of_le hBound hFits
  rw [hIndex, wrapIndex_of_lt hLess]
  omega

end Scene

end PathTracer
