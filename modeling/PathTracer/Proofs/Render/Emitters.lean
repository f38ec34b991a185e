import PathTracer.Proofs.Render.Surfaces

/-! The light that a path has found by itself. A hit only carries the number of a material,
so that the light for its weight is the first sphere among the lights with that material,
whatever shape the path has come to. -/
namespace PathTracer

/-- The first sphere among the lights with a material. -/
def Entities.lightOf? (e : Entities) (material : Int) : Option Light :=
  e.lights.find? fun l => l.kind = .sphere ∧ l.material = material

namespace Entities

variable {e : Entities} {material : Int} {l : Light}

theorem lightOf?_eq_some (h : e.lightOf? material = some l) :
    l ∈ e.lights ∧ l.kind = .sphere ∧ l.material = material := by
  unfold lightOf? at h
  have hFound := List.find?_some h
  exact ⟨List.mem_of_find?_eq_some h, of_decide_eq_true hFound⟩

theorem lightOf?_eq_none : e.lightOf? material = none ↔
    ∀ l ∈ e.lights, l.kind = .sphere → l.material ≠ material := by
  simp [lightOf?]

theorem exists_lightOf? (hMem : l ∈ e.lights) (hKind : l.kind = .sphere) :
    ∃ first, e.lightOf? l.material = some first := by
  refine Option.ne_none_iff_exists'.mp fun hNone => ?_
  exact lightOf?_eq_none.mp hNone l hMem hKind rfl

/-- Lights whose areas can be told from the material of a hit. -/
structure TellsLights (e : Entities) : Prop where
  areas : ∀ l ∈ e.lights, ∀ m ∈ e.lights, l.kind = .sphere → m.kind = .sphere →
    l.material = m.material → l.area = m.area
  primitives : ∀ p ∈ e.primitives, ∀ l ∈ e.lights, l.kind = .sphere → l.material ≠ p.material

end Entities

/-! ### Entries -/

namespace LightEntry

theorem isSun_ofLight (l : Light) : (ofLight l).isSun = decide (l.kind = .sun) := by
  show decide (kindNumber l.kind < 0.5) = _
  cases l.kind <;> decide

theorem area_ofLight (l : Light) : (ofLight l).area = l.area :=
  rfl

end LightEntry

namespace Pass

/-- The weight of light that a path finds by itself against a light of some area, or against
none. -/
def weightAgainst (s : Site) (p : Pixel) (area? : Option Float32) : Float32 :=
  if 0.0 < p.throughput.w then
    area?.elim 1.0 fun area =>
      let cosine := Scalar.max (p.normal.truncate.dot p.camDir.truncate).abs 0.000001
      let density := p.depth.x * p.depth.x / (area * cosine)
        / Float32.ofNat s.frame.lights.size
      Bsdf.powerHeuristic p.throughput.w density
  else 1.0

/-- Nothing but its area enters the weight of the light that is found. -/
theorem emissionWeight_eq_weightAgainst (s : Site) (p : Pixel) :
    emissionWeight s p = weightAgainst s p ((findLight s p.depth.w).map LightEntry.area) := by
  unfold emissionWeight weightAgainst
  cases findLight s p.depth.w <;> rfl

/-- While indices are exact as numbers, the number of a material finds the first sphere with
that material. -/
theorem findLight_ofInt {s : Site} {e : Entities} {material count : Int}
    (hLights : s.frame.lights = (e.lights.map LightEntry.ofLight).toArray)
    (hSpheres : ∀ l ∈ e.lights, l.kind = .sphere → 0 ≤ l.material ∧ l.material < count)
    (hLeast : -1 ≤ material) (hMost : material < count) (hExact : count ≤ 2 ^ 24) :
    findLight s (.ofInt material) = (e.lightOf? material).map LightEntry.ofLight := by
  rw [findLight, hLights, List.find?_toArray, List.find?_map, Entities.lightOf?]
  congr 1
  refine List.find?_congr fun l hl => ?_
  rw [Function.comp_apply, LightEntry.isSun_ofLight]
  by_cases hKind : l.kind = .sphere
  · obtain ⟨hIndex, hLess⟩ := hSpheres l hl hKind
    have hSame : sameMaterial (LightEntry.ofLight l).params.z (.ofInt material) =
        decide (l.material = material) :=
      sameMaterial_ofInt (by omega) (by omega) hLeast (by omega)
    rw [hSame, hKind]
    simp
  · cases hSun : l.kind with
    | sun => simp
    | sphere => exact absurd hSun hKind

/-- After its hit has been shaded a pixel still holds the number of its material. -/
theorem depth_lit_bounce (s : Site) {p : Pixel} (h : p.isDone = false) :
    (lit s (bounce s p)).depth.w = (s.trace p.camOrigin.truncate p.camDir.truncate).material := by
  have hRoute := route_lit s (p := bounce s p)
  simp only [Pixel.route, List.cons.injEq] at hRoute
  obtain ⟨-, -, -, -, -, hDepth, -⟩ := hRoute
  rw [hDepth, bounce, h, if_neg Bool.false_ne_true]
  rfl

end Pass

/-- After a bounce the material of the shape that was met decides on the light. The number
of the material is read back as a float, which is exact for as many materials as the premise
says. -/
theorem Scene.findLight_bounce {g : SceneGraph} {time : Float32} {s : Scene}
    (h : g.compileAt time = .ok s) (hExact : s.materials.length ≤ 2 ^ 24) {settings : Settings}
    {extent : Extent} {sample : Nat} {rng next : ChaCha} {frame : Frame}
    (hFrame : Frame.main s settings extent sample rng = .ok (frame, next)) (index : Nat)
    {p : Pixel} (hOpen : p.isDone = false) {x : Shape}
    (hMet : (Shapes.ofEntities s.entities).met? s.data p.camOrigin.truncate p.camDir.truncate =
      some x) :
    let site : Site := ⟨.ofScene s, frame, index⟩
    Pass.findLight site (Pass.lit site (Pass.bounce site p)).depth.w =
      (s.entities.lightOf? x.material).map LightEntry.ofLight := by
  intro site
  have hFits : s.materials.length ≤ 2 ^ 31 := hExact.trans (by decide)
  have hMaterial : (Pass.lit site (Pass.bounce site p)).depth.w = .ofInt x.material := by
    rw [Pass.depth_lit_bounce site hOpen, Site.trace_of_main hFrame, Shapes.material_trace hMet]
  obtain ⟨hLeast, hMost, -⟩ := bounds_of_mem_all h hFits (Shapes.met?_eq_some hMet).1
  rw [hMaterial]
  exact Pass.findLight_ofInt (Frame.main_eq_ok hFrame).2.2 (material_bounds h hFits).2
    hLeast hMost (by exact_mod_cast hExact)

/-- Where the ray of a bounce meets a shape, the light whose area enters the weight is the
first sphere among the lights with the material of the shape. It has the area of the light
that was met unless that first sphere has another one, and there is none for a primitive
only if no sphere among the lights has its material. Lights are looked for by the material,
since a hit does not say which shape was met. Up to `2 ^ 24` materials the number that is
compared is exact. -/
theorem SceneGraph.findLight_area_iff {g : SceneGraph} {time : Float32} {s : Scene}
    (h : g.compileAt time = .ok s) (hExact : s.materials.length ≤ 2 ^ 24) {settings : Settings}
    {extent : Extent} {sample : Nat} {rng next : ChaCha} {frame : Frame}
    (hFrame : Frame.main s settings extent sample rng = .ok (frame, next)) (index : Nat)
    {p : Pixel} (hOpen : p.isDone = false) :
    let site : Site := ⟨.ofScene s, frame, index⟩
    let lit := Pass.lit site (Pass.bounce site p)
    let picked := Pass.findLight site lit.depth.w
    let met := (Shapes.ofEntities s.entities).met? s.data p.camOrigin.truncate p.camDir.truncate
    Pass.emissionWeight site lit = Pass.weightAgainst site lit (picked.map LightEntry.area) ∧
      (∀ x, met = some x →
        picked = (s.entities.lightOf? x.material).map LightEntry.ofLight) ∧
      (∀ l ∈ s.entities.lights, ∀ x, l.lamp? = some x → met = some (.lamp x) →
        ∃ first, s.entities.lightOf? l.material = some first ∧
          (picked.map LightEntry.area = some l.area ↔ first.area = l.area)) ∧
      (∀ o, met = some (.primitive o) →
        (picked = none ↔ ∀ l ∈ s.entities.lights, l.kind = .sphere → l.material ≠ o.material)) ∧
      (s.entities.TellsLights →
        (∀ l ∈ s.entities.lights, ∀ x, l.lamp? = some x → met = some (.lamp x) →
          picked.map LightEntry.area = some l.area) ∧
        ∀ o, met = some (.primitive o) → picked = none) := by
  intro site lit picked met
  have hPicked : ∀ x, met = some x →
      picked = (s.entities.lightOf? x.material).map LightEntry.ofLight :=
    fun x => Scene.findLight_bounce h hExact hFrame index hOpen
  have hLamps : ∀ l ∈ s.entities.lights, ∀ x, l.lamp? = some x → met = some (.lamp x) →
      ∃ first, s.entities.lightOf? l.material = some first ∧
        (picked.map LightEntry.area = some l.area ↔ first.area = l.area) := by
    intro l hl x hLamp hMet
    obtain ⟨hKind, rfl⟩ := Light.lamp?_eq_some.mp hLamp
    obtain ⟨first, hFirst⟩ := Entities.exists_lightOf? hl hKind
    have hFound : picked = (s.entities.lightOf? l.material).map .ofLight := hPicked _ hMet
    refine ⟨first, hFirst, ?_⟩
    rw [hFound, hFirst, Option.map_some, Option.map_some, Option.some.injEq,
      LightEntry.area_ofLight]
  have hPrimitives : ∀ o, met = some (.primitive o) →
      (picked = none ↔ ∀ l ∈ s.entities.lights, l.kind = .sphere → l.material ≠ o.material) := by
    intro o hMet
    have hFound : picked = (s.entities.lightOf? o.material).map .ofLight := hPicked _ hMet
    rw [hFound, Option.map_eq_none_iff, Entities.lightOf?_eq_none]
  refine ⟨Pass.emissionWeight_eq_weightAgainst site lit, hPicked, hLamps, hPrimitives,
    fun hTells => ⟨?_, ?_⟩⟩
  · intro l hl x hLamp hMet
    obtain ⟨first, hFirst, hArea⟩ := hLamps l hl x hLamp hMet
    obtain ⟨hMem, hKind, hSame⟩ := Entities.lightOf?_eq_some hFirst
    exact hArea.mpr (hTells.areas first hMem l hl hKind (Light.lamp?_eq_some.mp hLamp).1 hSame)
  · intro o hMet
    have hMem := Shapes.mem_all_primitive.mp (Shapes.met?_eq_some hMet).1
    exact (hPrimitives o hMet).mpr (hTells.primitives o hMem)

/-- Where a sphere has the material of the only lamp, a path that meets either of them is
weighted against that lamp. -/
theorem SceneGraph.findLight_area_iff_shared :
    let g : SceneGraph := ⟨[.new (.material .surface []) ⟨[("name", .text "A")]⟩ 1 [],
      .new .render .empty 2 [.new (.camera .perspective) .empty 3 [],
        .new (.light .sphere) ⟨[("material", .text "A")]⟩ 4 [],
        .new (.object .analytical) ⟨[("material", .text "A")]⟩ 5
          [.new (.primitive .sphere) .empty 6 []]]]⟩
    ∃ s frame next, g.compileAt 0.0 = .ok s ∧
      Frame.main s .default ⟨1, 1⟩ 0 (.ofSeed 0) = .ok (frame, next) ∧
      Pixel.blank.isDone = false ∧ ∀ index p, p.isDone = false →
        let site : Site := ⟨.ofScene s, frame, index⟩
        let met := (Shapes.ofEntities s.entities).met? s.data p.camOrigin.truncate
          p.camDir.truncate
        met.isSome = true → ∃ l ∈ s.entities.lights,
          Pass.findLight site (Pass.lit site (Pass.bounce site p)).depth.w = some (.ofLight l) := by
  intro g
  have hCompiles : (g.compileAt 0.0).toOption.map (fun s =>
      (s.materials.length, s.entities.camera.isSome, s.entities.primitives.map Primitive.material,
        s.entities.lights.map fun l => (l.kind, l.material))) =
      some (1, true, [0], [(.sphere, 0)]) := by
    decide
  obtain ⟨s, hScene, hParts⟩ := exists_ok_of_map hCompiles
  simp only [Prod.mk.injEq] at hParts
  obtain ⟨hLength, hCamera, hPrimitives, hLights⟩ := hParts
  obtain ⟨camera, hCamera⟩ := Option.isSome_iff_exists.mp hCamera
  obtain ⟨light, hOnly, hLight⟩ := List.map_eq_singleton_iff.mp hLights
  obtain ⟨hKind, hMaterial⟩ := Prod.mk.inj hLight
  obtain ⟨⟨frame, next⟩, hFrame⟩ :
      ∃ drawn, Frame.main s .default ⟨1, 1⟩ 0 (.ofSeed 0) = .ok drawn := by
    rw [Frame.main, hCamera]
    exact ⟨_, rfl⟩
  refine ⟨s, frame, next, hScene, hFrame, by decide, fun index p hOpen => ?_⟩
  intro site met hSome
  obtain ⟨x, hMet⟩ := Option.isSome_iff_exists.mp hSome
  obtain ⟨-, hPicked, -⟩ := findLight_area_iff hScene (by omega) hFrame index hOpen
  have hShared : x.material = light.material := by
    rw [hMaterial]
    have hMem := (Shapes.met?_eq_some hMet).1
    cases x with
    | primitive o =>
        have hOwn : o.material ∈ s.entities.primitives.map Primitive.material :=
          List.mem_map_of_mem (Shapes.mem_all_primitive.mp hMem)
        rw [hPrimitives] at hOwn
        exact List.mem_singleton.mp hOwn
    | lamp l =>
        obtain ⟨other, hOther, hLamp⟩ := Shapes.mem_all_lamp_ofEntities.mp hMem
        rw [hOnly, List.mem_singleton] at hOther
        obtain ⟨-, rfl⟩ := Light.lamp?_eq_some.mp hLamp
        exact hOther ▸ hMaterial
  have hMem : light ∈ s.entities.lights := hOnly ▸ List.mem_singleton_self light
  obtain ⟨first, hFirst⟩ := Entities.exists_lightOf? hMem hKind
  refine ⟨first, (Entities.lightOf?_eq_some hFirst).1, ?_⟩
  rw [hPicked x hMet, hShared, hFirst]
  rfl

end PathTracer
