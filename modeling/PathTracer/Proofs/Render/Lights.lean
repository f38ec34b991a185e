import PathTracer.Proofs.Binary32.Held
import PathTracer.Proofs.Render.Emitters

/-! How the passes come by the lights of a scene. The entry of a light has its slot and its
material as numbers, and they are read back only if these numbers are held. Then the passes
find the place of each light in its own slot of the data. -/
namespace PathTracer

/-! ### Records -/

namespace Light

/-- Whether the slot of a light is read back from the number that it is kept as. -/
def SlotHeld (l : Light) : Prop :=
  Binary32.Held l.data ∨ l.data = 2 ^ 64 - 1

/-- Whether the material of a light is read back from the number that it is kept as. -/
def MaterialHeld (l : Light) : Prop :=
  Binary32.Held l.material.toNat ∨ l.material = 2 ^ 31 - 1

instance (l : Light) : Decidable l.SlotHeld :=
  inferInstanceAs (Decidable (_ ∨ _))

instance (l : Light) : Decidable l.MaterialHeld :=
  inferInstanceAs (Decidable (_ ∨ _))

end Light

namespace LightEntry

variable {l : Light}

theorem slot_ofLight_iff (h : l.data < 2 ^ 64) : (ofLight l).slot = l.data ↔ l.SlotHeld :=
  Binary32.toNat64_ofNat_iff h

theorem material_ofLight_iff (hLeast : -1 ≤ l.material) (hMost : l.material < 2 ^ 31) :
    (ofLight l).material = l.material ↔ l.MaterialHeld :=
  Binary32.toInt32_round_ofInt_iff hLeast hMost

end LightEntry

/-! ### Passes -/

/-- The site with other data in its frame. -/
def Site.withData (s : Site) (data : Array (Vec4 Float32)) : Site :=
  { s with frame := { s.frame with data := data } }

namespace Pass

variable {s : Site} {data : Array (Vec4 Float32)}

theorem aim_withData {e : LightEntry} (h : slot data e.slot = s.slot e.slot) :
    aim (s.withData data) e = aim s e := by
  have hPlace : (s.withData data).slot e.slot = s.slot e.slot := h
  funext position normal rng
  unfold aim
  rw [hPlace]

section Entries

/-! Other data that has the same in the slots of all lights. -/
variable (h : ∀ e ∈ s.frame.lights, slot data e.slot = s.slot e.slot)

include h

/-- Choosing a light does not read the data of the scene, but for the slots of lights. -/
theorem chooseLight_withData : chooseLight (s.withData data) = chooseLight s := by
  funext rng p
  have hAim : ∀ index < s.frame.lights.size,
      aim (s.withData data) (s.frame.light index) = aim s (s.frame.light index) := by
    intro index hIndex
    exact aim_withData (h _ (Frame.light_mem hIndex))
  have hLights : (s.withData data).frame.lights = s.frame.lights := rfl
  have hLight : (s.withData data).frame.light = s.frame.light := rfl
  unfold chooseLight
  rw [hLights, hLight]
  split
  · rfl
  · rename_i hSome
    have hCount : 0 < s.frame.lights.size := by
      rw [Array.size_pos_iff]
      simpa using hSome
    obtain ⟨r, next⟩ := rng.next
    dsimp only
    rw [hAim _ (lightIndex_lt hCount r)]

theorem resolve_withData : resolve (s.withData data) = resolve s := by
  have hMaterial : hitMaterial (s.withData data) = hitMaterial s := rfl
  have hInputs : (s.withData data).inputs = s.inputs := rfl
  have hStream : (s.withData data).stream = s.stream := rfl
  unfold resolve
  rw [hMaterial, chooseLight_withData h, hInputs, hStream]

/-- The light that arrives does not depend on other slots of the data. -/
theorem contribution_withData : contribution (s.withData data) = contribution s := by
  funext p
  have hChosen : chosenLight (s.withData data) p = chosenLight s p := rfl
  have hLights : (s.withData data).frame.lights = s.frame.lights := rfl
  have hMaterial : lightMaterial (s.withData data) = lightMaterial s := rfl
  -- Past the last light there are entries of zeros, which are suns, and a sun has no place here.
  have hPlace : (chosenLight s p).isSun = false →
      (s.withData data).slot (chosenLight s p).slot = s.slot (chosenLight s p).slot := by
    intro hSphere
    rcases lt_or_ge (Binary32.toNat64 p.lightOrigin.w) s.frame.lights.size with hIndex | hNone
    · exact h _ (Frame.light_mem hIndex)
    · have hSun : LightEntry.zero.isSun = true := by decide
      rw [chosenLight, Frame.light_of_le hNone, hSun] at hSphere
      cases hSphere
  have hArrival : ∀ density,
      (if (chosenLight s p).isSun then sunArrival (chosenLight s p) p
        else sphereArrival (s.withData data) (chosenLight s p) p density) =
      (if (chosenLight s p).isSun then sunArrival (chosenLight s p) p
        else sphereArrival s (chosenLight s p) p density) := by
    intro density
    cases hKind : (chosenLight s p).isSun with
    | true => rw [if_pos rfl, if_pos rfl]
    | false =>
        unfold sphereArrival
        rw [hPlace hKind, hMaterial, hLights]
  unfold contribution
  rw [hChosen, hLights]
  simp only [hArrival]

theorem direct_withData : direct (s.withData data) = direct s := by
  unfold direct
  rw [contribution_withData h]

end Entries

end Pass

/-! ### Frames -/

/-- A frame in which the passes find some lights. The entry of each has its own slot, and neither
the choice of a light at a hit nor what the light sends there depends on anything of the data but
these slots. -/
structure Frame.FindsLights (f : Frame) (lights : List Light) : Prop where
  count : f.lights.size = lights.length
  own : ∀ i (h : i < lights.length), (f.light i).slot = lights[i].data
  reads : ∀ (t : Tracer) (index : Nat) (data : Array (Vec4 Float32)),
    (∀ l ∈ lights, slot data l.data = slot f.data l.data) →
      let s : Site := ⟨t, f, index⟩
      Pass.resolve (s.withData data) = Pass.resolve s ∧
        Pass.direct (s.withData data) = Pass.direct s

namespace Frame

variable {f : Frame} {lights : List Light}

/-- The passes find the lights whose slots are held, and no others. -/
theorem findsLights_iff (hLights : f.lights = (lights.map LightEntry.ofLight).toArray)
    (hSlots : ∀ l ∈ lights, l.data < 2 ^ 64) :
    f.FindsLights lights ↔ ∀ l ∈ lights, l.SlotHeld := by
  have hLight : ∀ i (h : i < lights.length), f.light i = .ofLight lights[i] := by
    intro i h
    simp [light, hLights, h]
  constructor
  · intro hFinds l hl
    obtain ⟨i, hIndex, rfl⟩ := List.getElem_of_mem hl
    rw [← LightEntry.slot_ofLight_iff (hSlots _ hl), ← hLight i hIndex]
    exact hFinds.own i hIndex
  · intro hHeld
    have hOwn : ∀ l ∈ lights, (LightEntry.ofLight l).slot = l.data := fun l hl =>
      (LightEntry.slot_ofLight_iff (hSlots l hl)).mpr (hHeld l hl)
    refine ⟨by rw [hLights, List.size_toArray, List.length_map], fun i h => ?_, ?_⟩
    · rw [hLight i h]
      exact hOwn _ (List.getElem_mem h)
    · intro t index data hSame
      have hEntries : ∀ e ∈ f.lights, slot data e.slot = slot f.data e.slot := by
        intro e he
        rw [hLights, List.mem_toArray] at he
        obtain ⟨l, hl, rfl⟩ := List.mem_map.mp he
        rw [hOwn l hl]
        exact hSame l hl
      exact ⟨Pass.resolve_withData hEntries, Pass.direct_withData hEntries⟩

/-- A frame of a thumbnail has the slot of its sun after the data of the scene. -/
theorem icon_eq {scene : Scene} {preview : Int} {settings : Settings} {extent : Extent}
    {sample : Nat} {rng next : ChaCha}
    (h : icon scene preview settings extent sample rng = (f, next)) :
    f.data = scene.data.push (iconSunDirection.extend 0.0) ∧
      f.lights = ([iconSun scene.data.size].map LightEntry.ofLight).toArray := by
  obtain rfl : ((ofThumbnail scene preview settings extent sample).randomize rng).1 = f :=
    congrArg Prod.fst h
  exact ⟨rfl, rfl⟩

end Frame

/-- The entry of a light always tells its kind and its area. It tells the slot and the
material if and only if these are held, and the passes find the lights of a scene, and the
sun of a thumbnail, in their own slots of the data of the frame if and only if the slots are
held. A number is held if there is a float of its value. -/
theorem LightEntry.ofLight_tells_iff_held (l : Light) (hData : l.data < 2 ^ 64)
    (hLeast : -1 ≤ l.material) (hMost : l.material < 2 ^ 31) (scene : Scene)
    (hSlots : ∀ m ∈ scene.entities.lights, m.data < 2 ^ 64) (hSize : scene.data.size < 2 ^ 64)
    (settings : Settings) (extent : Extent) (sample : Nat) (rng : ChaCha) :
    ((ofLight l).isSun = decide (l.kind = .sun) ∧ (ofLight l).area = l.area ∧
      ((ofLight l).slot = l.data ↔ l.SlotHeld) ∧
      ((ofLight l).material = l.material ↔ l.MaterialHeld)) ∧
    (∀ f next, Frame.main scene settings extent sample rng = .ok (f, next) →
      f.data = scene.data ∧
        (f.FindsLights scene.entities.lights ↔ ∀ m ∈ scene.entities.lights, m.SlotHeld)) ∧
    ∀ preview f next, Frame.icon scene preview settings extent sample rng = (f, next) →
      PathTracer.slot f.data scene.data.size = Frame.iconSunDirection.extend 0.0 ∧
        (f.FindsLights [Frame.iconSun scene.data.size] ↔
          (Frame.iconSun scene.data.size).SlotHeld) := by
  refine ⟨⟨isSun_ofLight l, area_ofLight l, slot_ofLight_iff hData,
    material_ofLight_iff hLeast hMost⟩, ?_, ?_⟩
  · intro f next hFrame
    obtain ⟨hSame, -, hLights⟩ := Frame.main_eq_ok hFrame
    exact ⟨hSame, Frame.findsLights_iff hLights hSlots⟩
  · intro preview f next hFrame
    obtain ⟨hPushed, hLights⟩ := Frame.icon_eq hFrame
    constructor
    · rw [hPushed, slot_push]
    · rw [Frame.findsLights_iff hLights (List.forall_mem_singleton.mpr hSize),
        List.forall_mem_singleton]

/-- A lamp in the only slot of a scene. -/
theorem LightEntry.ofLight_tells_of_lamp :
    let l : Light := ⟨.sphere, 0, 2, 0.5, .splat 1.0⟩
    let scene : Scene := ⟨⟨[]⟩, [], none, ⟨[], [], [l], some Frame.iconCamera⟩,
      #[⟨0.0, 3.0, 0.0, 0.5⟩], ⟨"View", none, none, none⟩, 0.0⟩
    (ofLight l).isSun = false ∧ (ofLight l).slot = 0 ∧ (ofLight l).material = 2 ∧
      (ofLight l).area = l.area ∧
      (∃ f next, Frame.main scene .default ⟨1, 1⟩ 0 (.ofSeed 0) = .ok (f, next) ∧
        f.FindsLights [l]) ∧
      (Frame.icon scene 0 .default ⟨1, 1⟩ 0 (.ofSeed 0)).1.FindsLights [Frame.iconSun 1] := by
  intro l scene
  obtain ⟨⟨hKind, hArea, hSlot, hMaterial⟩, hMain, hIcon⟩ :=
    ofLight_tells_iff_held l (by decide) (by decide) (by decide) scene
      (List.forall_mem_singleton.mpr (by decide)) (by decide) .default ⟨1, 1⟩ 0 (.ofSeed 0)
  refine ⟨hKind, hSlot.mpr (by decide), hMaterial.mpr (by decide), hArea, ?_, ?_⟩
  · exact ⟨_, _, rfl, (hMain _ _ rfl).2.mpr (List.forall_mem_singleton.mpr (by decide))⟩
  · exact (hIcon 0 _ _ rfl).2.mpr (by decide)

/-- Just past `2 ^ 24` only even numbers are held, so that an entry tells the slot and the
material before those of its lamp. -/
theorem LightEntry.ofLight_of_oddNumbers :
    let l : Light := ⟨.sphere, 16777217, 16777217, 1.0, .splat 1.0⟩
    (ofLight l).slot = 16777216 ∧ (ofLight l).material = 16777216 := by
  decide

end PathTracer
