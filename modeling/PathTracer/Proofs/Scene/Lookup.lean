import PathTracer.Proofs.Scene.Verdict
import PathTracer.Proofs.Shader.Dispatch

/-! The ways to find a material. The place in the list, the name, the records of the
entities, the generated cascade and the passes on the processor all go by one index, but
records and cascade hold it as a signed 32-bit number. -/
namespace PathTracer.Scene

variable {s : Scene} {g : SceneGraph} {time : Float32}

/-- An index of one of the materials, as records hold it. -/
def IsIndex (s : Scene) (i : Int) : Prop :=
  ∃ k < s.materials.length, i = Context.wrapIndex k

/-- The material that a signed 32-bit number stands for. A negative one stands for an
index that is too large for its sign. -/
def wrapped? (s : Scene) (id : Int) : Option Material.Program :=
  if -2 ^ 31 ≤ id ∧ id < 2 ^ 31 then s.materials[(id % 2 ^ 32).toNat]? else none

/-! ### The cascade -/

theorem eq_wrapIndex_iff {id : Int} (hLower : -2 ^ 31 ≤ id) (hUpper : id < 2 ^ 31) (k : Nat) :
    id = Context.wrapIndex k ↔ (k : Int) % 2 ^ 32 = id % 2 ^ 32 := by
  unfold Context.wrapIndex
  rw [Int.bmod_def]
  split <;> omega

theorem wrapIndex_bounds (k : Nat) :
    -2 ^ 31 ≤ Context.wrapIndex k ∧ Context.wrapIndex k < 2 ^ 31 := by
  unfold Context.wrapIndex
  rw [Int.bmod_def]
  split <;> omega

/-- Searching for a number from the front comes to the material that the number stands
for. Materials whose indices are the same number stand behind it. -/
theorem Numbered.find?_shaderIndex (h : s.Numbered) (id : Int) :
    (s.materials.find? fun m => id = m.shaderIndex) = s.wrapped? id := by
  have hIndex : ∀ (k : Nat) (m : Material.Program), s.materials[k]? = some m →
      m.shaderIndex = Context.wrapIndex k := fun k m hAt => by
    rw [← h.index hAt]
    rfl
  unfold wrapped?
  split
  · rename_i hRange
    have hMeets := eq_wrapIndex_iff hRange.1 hRange.2
    cases hAt : s.materials[(id % 2 ^ 32).toNat]? with
    | none =>
        refine List.find?_eq_none.mpr fun m hm hSame => ?_
        obtain ⟨k, hk⟩ := List.mem_iff_getElem?.mp hm
        obtain ⟨hBound, -⟩ := List.getElem?_eq_some_iff.mp hk
        have hLength := List.getElem?_eq_none_iff.mp hAt
        simp only [decide_eq_true_eq] at hSame
        have := (hMeets k).mp (hSame.trans (hIndex k m hk))
        omega
    | some m =>
        obtain ⟨hBound, hGet⟩ := List.getElem?_eq_some_iff.mp hAt
        refine List.find?_eq_some_iff_getElem.mpr ⟨?_, _, hBound, hGet, fun j hj => ?_⟩
        · rw [hIndex _ m hAt, decide_eq_true_eq, hMeets]
          omega
        · have hOther := hIndex j _ (List.getElem?_eq_getElem (hj.trans hBound))
          rw [hOther, Bool.not_eq_true', decide_eq_false_iff_not, hMeets]
          omega
  · rename_i hRange
    refine List.find?_eq_none.mpr fun m hm hSame => hRange ?_
    obtain ⟨k, hk⟩ := List.mem_iff_getElem?.mp hm
    simp only [decide_eq_true_eq] at hSame
    rw [hSame, hIndex k m hk]
    exact wrapIndex_bounds k

/-- A number without a sign stands for the material that is chosen for it. -/
theorem wrapped?_of_nonneg (s : Scene) {id : Int} (hLower : 0 ≤ id) (hUpper : id < 2 ^ 31) :
    s.wrapped? id = s.material? id := by
  have hSame : id % 2 ^ 32 = id := by omega
  rw [wrapped?, if_pos ⟨by omega, hUpper⟩, material?, if_neg (by omega), hSame]

/-- So does every number where the indices of all materials fit. -/
theorem wrapped?_of_fits (hFits : s.materials.length ≤ 2 ^ 31) (id : Int) :
    s.wrapped? id = s.material? id := by
  by_cases hRange : 0 ≤ id ∧ id < 2 ^ 31
  · exact s.wrapped?_of_nonneg hRange.1 hRange.2
  · rw [material?_eq_ite, if_neg (by omega)]
    unfold wrapped?
    split
    · exact List.getElem?_eq_none (by omega)
    · rfl

/-- The least number is taken for a material as soon as there is one at `2 ^ 31`. -/
theorem wrapped?_least (s : Scene) : s.wrapped? (-2 ^ 31) = s.materials[2 ^ 31]? := by
  rw [wrapped?, if_pos (by omega)]
  rfl

/-! ### Agreement -/

/-- In every accepted graph the ways to find a material agree: its place, its index and
its name, the records of primitives and lights, the function that the generated cascade
calls for a number, and the material that is chosen for it. Records and cascade hold
indices as signed 32-bit numbers, which changes nothing for numbers without a sign, and
nothing at all as long as all indices fit. Nothing bounds the number of materials: with
one more than fits, the cascade has an arm for the least number where the choice has
none. -/
theorem material_indices_agree (h : g.compileAt time = .ok s) :
    (∀ (k : Nat) (m : Material.Program), s.materials[k]? = some m → m.index = k) ∧
      (s.materials.map Material.Program.name).Nodup ∧
      (∀ (name : String) (k : Nat),
        s.materialIndex? name = some k ↔ ∃ m, s.material? k = some m ∧ m.name = name) ∧
      (s.program.functions.find? fun f => f.name = "resolve_material") =
        some (Shader.dispatchFunction s.materials) ∧
      (∀ m ∈ s.materials, ∃ f, m.function = .ok f ∧
        (s.program.functions.find? fun g => g.name = m.functionName) = some f) ∧
      (∀ p ∈ s.entities.primitives, p.material = -1 ∨ s.IsIndex p.material) ∧
      (∀ l ∈ s.entities.lights, match l.kind with
        | .sun => l.material = -1
        | .sphere => s.IsIndex l.material) ∧
      (∀ (lib : Shader.Library) (id : Int) (inp : Shader.Datum),
        Shader.Stmt.execAll lib [("id", .int id), ("inp", inp)]
            (Shader.dispatchFunction s.materials).body =
          ((s.wrapped? id).elim (lib.call "default_material" [])
            fun m => lib.call m.functionName [inp]).map fun v => .returned (some v)) ∧
      (∀ id, (Tracer.ofScene s).material? id =
        if 0 ≤ id ∧ id < s.materials.length then s.materials[id.toNat]? else none) ∧
      (∀ id, 0 ≤ id → id < 2 ^ 31 → s.wrapped? id = (Tracer.ofScene s).material? id) ∧
      (s.materials.length ≤ 2 ^ 31 →
        (∀ i, s.IsIndex i → 0 ≤ i ∧ i < s.materials.length) ∧
        ∀ id, s.wrapped? id = (Tracer.ofScene s).material? id) ∧
      (2 ^ 31 < s.materials.length → (s.wrapped? (-2 ^ 31)).isSome = true ∧
        (Tracer.ofScene s).material? (-2 ^ 31) = none) := by
  obtain ⟨hNumbered, render, -, -, -, -, hGenerate⟩ := walked_of_compileAt h
  obtain ⟨surfaces, env, hSurfaces, hEnvironment, hFunctions⟩ :=
    Shader.Program.generate_eq_ok.mp hGenerate
  obtain ⟨c, hKnown, hLength, hEntities⟩ := known_of_compileAt h
  have hRecord : ∀ {i : Int}, c.IsIndex i → s.IsIndex i := fun ⟨k, hBound, hIndex⟩ =>
    ⟨k, hLength ▸ hBound, hIndex⟩
  refine ⟨fun k m => hNumbered.index, hNumbered.nodup,
    fun name k => hNumbered.materialIndex?_eq_some, ?_, ?_, fun p hp => ?_, fun l hl => ?_,
    fun lib id inp => ?_, s.material?_eq_ite, fun id => s.wrapped?_of_nonneg, fun hFits => ?_,
    fun hMany => ?_⟩
  · rw [hFunctions, Shader.find?_of_not_material hSurfaces hNumbered.surface _ (by decide)]
    rfl
  · rw [hFunctions]
    exact Shader.find?_functionName hSurfaces hNumbered.surface
      (hNumbered.indices ▸ List.nodup_range) _
  · exact (hKnown.primitives p (hEntities ▸ hp)).imp_right hRecord
  · have hSun := hKnown.suns l (hEntities ▸ hl)
    have hSphere := hKnown.spheres l (hEntities ▸ hl)
    cases hKind : l.kind with
    | sun => exact hSun hKind
    | sphere => exact hRecord (hSphere hKind)
  · rw [Shader.execAll_dispatchFunction hNumbered.surface, hNumbered.find?_shaderIndex]
  · refine ⟨fun i ⟨k, hBound, hIndex⟩ => ?_, wrapped?_of_fits hFits⟩
    exact bounds_of_isIndex hLength hFits ⟨k, hLength ▸ hBound, hIndex⟩
  · rw [wrapped?_least, List.getElem?_eq_getElem hMany]
    exact ⟨rfl, rfl⟩

/-- Two materials, one on a sphere and one on a lamp. The cascade has no third. -/
theorem material_indices_agree_lamp :
    let g : SceneGraph := ⟨[.new (.material .surface []) ⟨[("name", .text "A")]⟩ 1 [],
      .new (.material .surface []) ⟨[("name", .text "Lamp")]⟩ 2 [],
      .new .render .empty 3 [.new (.camera .perspective) .empty 4 [],
        .new (.light .sphere) ⟨[("material", .text "Lamp")]⟩ 5 [],
        .new (.object .analytical) ⟨[("material", .text "A")]⟩ 6
          [.new (.primitive .sphere) .empty 7 []]]]⟩
    ∃ s, g.compileAt 0.0 = .ok s ∧ s.materials.length = 2 ∧
      (∀ p ∈ s.entities.primitives, p.material = -1 ∨ 0 ≤ p.material ∧ p.material < 2) ∧
      ∀ lib inp, Shader.Stmt.execAll lib [("id", .int 2), ("inp", inp)]
          (Shader.dispatchFunction s.materials).body =
        (lib.call "default_material" []).map fun v => .returned (some v) := by
  intro g
  have hCompiles : (g.compileAt 0.0).toOption.map (fun s => s.materials.length) = some 2 := by
    decide
  obtain ⟨s, hScene, hLength⟩ := exists_ok_of_map hCompiles
  obtain ⟨-, -, -, -, -, hPrimitives, -, hCascade, hChoice, -, hFits, -⟩ :=
    material_indices_agree hScene
  obtain ⟨hBounds, hAgree⟩ := hFits (by omega)
  refine ⟨s, hScene, hLength, fun p hp => ?_, fun lib inp => ?_⟩
  · simpa [hLength] using (hPrimitives p hp).imp_right (hBounds p.material)
  · rw [hCascade lib 2 inp, hAgree, hChoice, if_neg (by omega)]
    rfl

/-! ### Beyond the bound -/

/-- A scene has as many materials as its graph has names for them. -/
theorem length_materials (h : g.compileAt time = .ok s) :
    s.materials.length = g.materialNames.dedup.length := by
  obtain ⟨render, definitions, -, hDefinitions, hFaults, hMaterials, -⟩ := g.compileAt_walked h
  have hNodup := g.nodup_of_definitions hDefinitions
  obtain ⟨hNames, -⟩ := Context.buildMaterials_of_nodup (c := .start time) hNodup hFaults
  rw [← List.length_map (f := Material.Program.name), hMaterials, hNames]
  refine ((List.perm_ext_iff_of_nodup hNodup (List.nodup_dedup _)).mpr fun name => ?_).length_eq
  rw [List.mem_dedup, g.mem_names_definitions hDefinitions]

end PathTracer.Scene

namespace PathTracer.SceneGraph

/-- Materials of some names in front of a camera. -/
def ofNames (names : List String) : SceneGraph :=
  ⟨names.map (fun name => .new (.material .surface []) ⟨[("name", .text name)]⟩ 1 []) ++
    [.new .render .empty 2 [.new (.camera .perspective) .empty 3 []]]⟩

variable (names : List String)

theorem definers_ofNames : (ofNames names).definers =
    names.map fun name => .new (.material .surface []) ⟨[("name", .text name)]⟩ 1 [] := by
  induction names with
  | nil => rfl
  | cons name rest ih => exact congrArg (_ :: ·) ih

theorem renders_ofNames : (ofNames names).renders =
    [.new .render .empty 2 [.new (.camera .perspective) .empty 3 []]] := by
  induction names with
  | nil => rfl
  | cons name rest ih => exact ih

theorem environments_ofNames : (ofNames names).environments = [] := by
  induction names with
  | nil => rfl
  | cons name rest ih => exact ih

theorem materialNames_ofNames : (ofNames names).materialNames = names := by
  rw [materialNames, definers_ofNames, List.map_map]
  exact List.map_id names

theorem reached_ofNames : (ofNames names).reached =
    [.new .render .empty 2 [.new (.camera .perspective) .empty 3 []],
      .new (.camera .perspective) .empty 3 []] := by
  rw [reached_of_renders (renders_ofNames names)]
  rfl

/-- Such a graph compiles, however many the names are. -/
theorem sound_ofNames (time : Float32) : (ofNames names).Sound time where
  render := by rw [renders_ofNames]; rfl
  named := by
    rw [definers_ofNames]
    exact List.forall_mem_map.mpr fun name _ => rfl
  environments := by simp [environments_ofNames]
  definitions name n hFirst := by
    have hMem : n ∈ (ofNames names).definers := List.mem_of_find?_eq_some hFirst
    rw [definers_ofNames] at hMem
    obtain ⟨_, -, rfl⟩ := List.mem_map.mp hMem
    exact ⟨[], .nil []⟩
  environment := by simp [environments_ofNames]
  options := by
    rw [reached_ofNames]
    rintro n hn read -
    obtain rfl | rfl := List.mem_pair.mp hn
    all_goals exact Node.fits_of_not_contains rfl _ _
  renderOptions := by
    rw [renders_ofNames]
    rintro n hn read -
    rw [List.mem_singleton.mp hn]
    exact Node.fits_of_not_contains rfl _ _
  directions := by simp [reached_ofNames]
  references := by simp [reached_ofNames, Node.materialName?]
  lights := by simp [reached_ofNames]
  camera := by
    rw [reached_ofNames]
    exact ⟨_, List.mem_cons_of_mem _ List.mem_cons_self, _, rfl⟩

/-- There are graphs that compile with any number of materials. -/
theorem exists_compileAt_ofNames (time : Float32) (count : Nat) :
    ∃ names s, (ofNames names).compileAt time = .ok s ∧ s.materials.length = count := by
  let names := (List.range count).map fun k => String.ofList (List.replicate k 'A')
  have hNodup : names.Nodup := by
    refine List.nodup_range.map fun j k hSame => ?_
    simpa using congrArg String.length hSame
  obtain ⟨s, hScene⟩ := compiles_iff_sound.mpr (sound_ofNames names time)
  refine ⟨names, s, hScene, ?_⟩
  rw [Scene.length_materials hScene, materialNames_ofNames, List.dedup_eq_self.mpr hNodup,
    List.length_map, List.length_range]

/-- Beyond the bound the cascade and the choice do differ: for the least number one of
them has a material and the other has none. -/
theorem exists_wrapped?_ne_material? (time : Float32) :
    ∃ names s, (ofNames names).compileAt time = .ok s ∧
      (s.wrapped? (-2 ^ 31)).isSome = true ∧ (Tracer.ofScene s).material? (-2 ^ 31) = none := by
  obtain ⟨names, s, hScene, hLength⟩ := exists_compileAt_ofNames time (2 ^ 31 + 1)
  have hMany : 2 ^ 31 < s.materials.length := hLength ▸ Nat.lt_succ_self _
  refine ⟨names, s, hScene, ?_, rfl⟩
  rw [Scene.wrapped?_least, List.getElem?_eq_getElem hMany]
  rfl

end PathTracer.SceneGraph
