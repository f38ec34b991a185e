import PathTracer.Proofs.Decimal.Whole
import PathTracer.Proofs.Scene.Bounds
import PathTracer.Render.Sample

/-! Samples whose reads are checked. A read of the data or of the lights of a frame
outside of their range fails, and with it the sample. Where the slots of the shapes and
of the lights are in range no sample fails, and all of them are those that the passes
add without the checks. -/
namespace PathTracer

/-- Inside of the data nothing is read but what stands there. -/
theorem getElem?_eq_slot {data : Array (Vec4 Float32)} {index : Nat} (h : index < data.size) :
    data[index]? = some (slot data index) := by
  rw [slot, Array.getD_eq_getD_getElem?, Array.getElem?_eq_getElem h, Option.getD_some]

/-! ### Shapes -/

/-- The placement of three slots, if they are there. -/
def Placement.tryOfSlots (data : Array (Vec4 Float32)) (object : Nat) :
    Option (Placement Float32) := do
  let position ← data[object]?
  let rotation ← data[object + 1]?
  let scale ← data[object + 2]?
  return ⟨position.truncate, rotation.truncate, scale.x⟩

/-- A placement whose slots are there is read without a check. -/
theorem Placement.tryOfSlots_eq {data : Array (Vec4 Float32)} {object : Nat}
    (h : object + 2 < data.size) : tryOfSlots data object = some (ofSlots data object) := by
  have hPosition := getElem?_eq_slot (show object < data.size by omega)
  have hRotation := getElem?_eq_slot (show object + 1 < data.size by omega)
  have hScale := getElem?_eq_slot h
  simp [tryOfSlots, ofSlots, hPosition, hRotation, hScale]

namespace Primitive

variable {p : Primitive} {data : Array (Vec4 Float32)}

def tryIntersectLocal (p : Primitive) (data : Array (Vec4 Float32))
    (origin direction : Vec3 Float32) : Option (Option (Float32 × Vec3 Float32)) := do
  let d ← data[p.data]?
  match p.kind with
  | .sphere => return (intersectSphere origin direction d.truncate d.w).map fun t =>
      (t, (origin + direction * t - d.truncate).normalize)
  | .box =>
    let half ← data[p.data + 1]?
    return (Box.around d.truncate half.truncate).intersect origin direction
  | .plane => return (intersectPlane origin direction d.truncate d.w).map fun t => (t, d.truncate)

def tryHit (p : Primitive) (data : Array (Vec4 Float32)) (origin direction : Vec3 Float32) :
    Option (Option Hit) := do
  let place ← Placement.tryOfSlots data p.object
  let (localOrigin, localDirection) := place.toLocal origin direction
  let found ← p.tryIntersectLocal data localOrigin localDirection
  return found.map fun (t, normal) =>
    .ofMaterial (t * place.scale) (rotateEuler normal place.rotation) p.material

/-- A primitive whose slots are there is met as without checks. -/
theorem tryIntersectLocal_eq (h : p.InBounds data.size) (origin direction : Vec3 Float32) :
    p.tryIntersectLocal data origin direction = some (p.intersectLocal data origin direction) := by
  have hData := getElem?_eq_slot h.data
  obtain ⟨kind, object, place, material⟩ := p
  cases kind with
  | sphere => simp [tryIntersectLocal, intersectLocal, hData]
  | box =>
      have hHalf := getElem?_eq_slot (h.half rfl)
      simp [tryIntersectLocal, intersectLocal, hData, hHalf]
  | plane => simp [tryIntersectLocal, intersectLocal, hData]

/-- A primitive whose slots are there is hit as without checks. -/
theorem tryHit_eq (h : p.InBounds data.size) (origin direction : Vec3 Float32) :
    p.tryHit data origin direction = some (p.hit? data origin direction) := by
  simp [tryHit, hit?, Placement.tryOfSlots_eq h.object, tryIntersectLocal_eq h]

end Primitive

def Lamp.tryHit (l : Lamp) (data : Array (Vec4 Float32)) (origin direction : Vec3 Float32) :
    Option (Option Hit) := do
  let d ← data[l.data]?
  return Hit.ofSphere? origin direction d.truncate d.w l.material

/-- A lamp whose slot is there is hit as without a check. -/
theorem Lamp.tryHit_eq {l : Lamp} {data : Array (Vec4 Float32)} (h : l.data < data.size)
    (origin direction : Vec3 Float32) :
    l.tryHit data origin direction = some (l.hit? data origin direction) := by
  simp [tryHit, hit?, getElem?_eq_slot h]

namespace Shapes

/-- All slots of shapes are below a size. -/
structure InBounds (s : Shapes) (size : Nat) : Prop where
  primitives : ∀ p ∈ s.primitives, p.InBounds size
  lamps : ∀ l ∈ s.lamps, l.data < size

variable {s : Shapes} {data : Array (Vec4 Float32)}

/-- What is there stays there in more data. -/
theorem InBounds.mono {size more : Nat} (h : s.InBounds size) (hMore : size ≤ more) :
    s.InBounds more :=
  ⟨fun p hp => (h.primitives p hp).mono hMore, fun l hl => Nat.lt_of_lt_of_le (h.lamps l hl) hMore⟩

/-- The shapes of records are in a range with the records. -/
theorem inBounds_ofEntities {e : Entities} {size : Nat} (h : e.InBounds size) :
    (ofEntities e).InBounds size := by
  refine ⟨h.primitives, ?_⟩
  intro lamp hLamp
  obtain ⟨l, hl, hSphere⟩ := List.mem_filterMap.mp hLamp
  have hSlot := h.lights l hl
  cases hKind : l.kind with
  | sun => simp [Light.lamp?, hKind] at hSphere
  | sphere =>
      simp [Light.lamp?, hKind] at hSphere
      rwa [← hSphere]

/-- The nearest hit of a ray. Every shape is read on the way. -/
def tryTrace (s : Shapes) (data : Array (Vec4 Float32)) (origin direction : Vec3 Float32) :
    Option Hit := do
  let primitives ← s.primitives.mapM fun p => p.tryHit data origin direction
  let lamps ← s.lamps.mapM fun l => l.tryHit data origin direction
  return (primitives ++ lamps).foldl Hit.orNearer .miss

/-- A trace of shapes whose slots are there reads nothing out of range, whatever the ray. -/
theorem tryTrace_eq (h : s.InBounds data.size) (origin direction : Vec3 Float32) :
    s.tryTrace data origin direction = some (s.trace data origin direction) := by
  have hPrimitives := mapM_eq_some fun p hp =>
    Primitive.tryHit_eq (h.primitives p hp) origin direction
  have hLamps := mapM_eq_some fun l hl =>
    Lamp.tryHit_eq (h.lamps l hl) origin direction
  simp [tryTrace, trace, candidates, hPrimitives, hLamps]

end Shapes

/-! ### Frames -/

/-- All that the passes read of a frame is there: the slots of the shapes and of the
lights are in the data, and the indices of lights are exact as numbers. -/
structure Frame.InBounds (f : Frame) (shapes : Shapes) : Prop where
  shapes : shapes.InBounds f.data.size
  slots : ∀ l ∈ f.lights, l.slot < f.data.size
  count : f.lights.size ≤ 2 ^ 24

/-- The slot of a light can be read off its entry while numbers are exact. -/
theorem LightEntry.slot_ofLight {l : Light} (h : l.data ≤ 2 ^ 24) : (ofLight l).slot = l.data :=
  Binary32.toNat64_ofNat_of_le h

/-- Lights are added to a frame in their order, and nothing else of it changes. -/
theorem Frame.foldl_addLight (lights : List Light) (f : Frame) :
    lights.foldl addLight f =
      { f with lights := f.lights ++ (lights.map LightEntry.ofLight).toArray } := by
  induction lights generalizing f with
  | nil => simp
  | cons l rest ih =>
      rw [List.foldl_cons, ih]
      simp [addLight]

/-- A frame of the view shows a scene itself, with its data and its lights. It has no
preview, which is noted as minus one. -/
theorem Frame.main_eq_ok {scene : Scene} {settings : Settings} {extent : Extent} {index : Nat}
    {rng next : ChaCha} {f : Frame} (h : main scene settings extent index rng = .ok (f, next)) :
    f.data = scene.data ∧ f.preview = -1 ∧
      f.lights = (scene.entities.lights.map LightEntry.ofLight).toArray := by
  unfold main at h
  split at h
  · cases h
  · rename_i camera _
    obtain rfl : ((ofView scene settings camera extent index).randomize rng).1 = f :=
      congrArg Prod.fst (Except.ok.inj h)
    simp [randomize, ofView, foldl_addLight, withMaxDepth, withBackground, withCamera, blank]

namespace Frame.InBounds

variable {scene : Scene} {shapes : Shapes} {settings : Settings} {extent : Extent} {index : Nat}
  {rng next : ChaCha} {f : Frame}

/-- Random numbers are not read as slots or indices. -/
theorem randomize (h : f.InBounds shapes) (rng : ChaCha) : (f.randomize rng).1.InBounds shapes :=
  ⟨h.shapes, h.slots, h.count⟩

/-- A frame of the view has the data and the lights of its scene. -/
theorem of_main (hShapes : shapes.InBounds scene.data.size)
    (hEntities : scene.entities.InBounds scene.data.size) (hSize : scene.data.size ≤ 2 ^ 24)
    (h : main scene settings extent index rng = .ok (f, next)) : f.InBounds shapes := by
  obtain ⟨hData, -, hLights⟩ := main_eq_ok h
  refine ⟨hData ▸ hShapes, ?_, ?_⟩
  · rw [hData, hLights]
    simp only [List.mem_toArray, List.forall_mem_map]
    intro l hl
    have hSlot := hEntities.lights l hl
    rwa [LightEntry.slot_ofLight (Nat.le_of_lt (Nat.lt_of_lt_of_le hSlot hSize))]
  · rw [hLights, List.size_toArray, List.length_map]
    exact Nat.le_trans hEntities.count hSize

/-- A frame of a thumbnail has one more slot, for its only light. -/
theorem of_icon {preview : Int} (hShapes : shapes.InBounds scene.data.size)
    (hSize : scene.data.size ≤ 2 ^ 24)
    (h : icon scene preview settings extent index rng = (f, next)) : f.InBounds shapes := by
  obtain rfl : ((ofThumbnail scene preview settings extent index).randomize rng).1 = f :=
    congrArg Prod.fst h
  refine randomize ?_ rng
  have hData : (ofThumbnail scene preview settings extent index).data.size =
      scene.data.size + 1 := Array.size_push _
  have hLights : (ofThumbnail scene preview settings extent index).lights =
      #[.ofLight (iconSun scene.data.size)] := rfl
  refine ⟨hShapes.mono (by omega), ?_, ?_⟩
  · rw [hData, hLights]
    intro l hl
    obtain rfl := Array.mem_singleton.mp hl
    rw [LightEntry.slot_ofLight hSize]
    exact Nat.lt_succ_self _
  · rw [hLights, Array.size_singleton]
    decide

end Frame.InBounds

/-- A hit of what the frame shows. -/
def Site.tryTrace (s : Site) (shapes : Shapes) (origin direction : Vec3 Float32) : Option Hit :=
  if 0 ≤ s.frame.preview then some (.ofPreview origin direction s.frame.preview)
  else shapes.tryTrace s.frame.data origin direction

/-- A site that is rendered with some shapes, all of whose reads are there. -/
structure Site.InBounds (s : Site) (shapes : Shapes) : Prop where
  frame : s.frame.InBounds shapes
  geometry : s.tracer.geometry = shapes.trace

variable {s : Site} {shapes : Shapes}

/-- Traces at a site in bounds read nothing out of range. -/
theorem Site.InBounds.tryTrace_eq (h : s.InBounds shapes) (origin direction : Vec3 Float32) :
    s.tryTrace shapes origin direction = some (s.trace origin direction) := by
  unfold Site.tryTrace Site.trace
  split
  · rfl
  · rw [Shapes.tryTrace_eq h.frame.shapes, h.geometry]

namespace Pass

/-! ### Passes that follow rays -/

def tryPrimary (s : Site) (shapes : Shapes) (p : Pixel) : Option Pixel := do
  let (origin, direction) := s.frame.cameraRay (jitter s)
  let hit ← s.tryTrace shapes origin direction
  return record s hit (start origin direction p)

def tryBounce (s : Site) (shapes : Shapes) (p : Pixel) : Option Pixel :=
  if p.isDone then some { p with depth := ⟨farDistance, 0.0, 0.0, deadMaterial⟩ }
  else do
    let hit ← s.tryTrace shapes p.camOrigin.truncate p.camDir.truncate
    return record s hit p

/-- The light that was chosen for the shadow ray, if there is one at its index. -/
def tryChosenLight (s : Site) (p : Pixel) : Option LightEntry :=
  s.frame.lights[Binary32.toNat64 p.lightOrigin.w]?

def tryShadow (s : Site) (shapes : Shapes) (p : Pixel) : Option Pixel :=
  if !hasLight p then some { p with lightDepth := ⟨0.0, 0.0, 0.0, Hit.miss.material⟩ }
  else if s.frame.noShadows then do
    let light ← tryChosenLight s p
    let reached := if light.isSun then farDistance else p.lightDir.w
    return { p with lightDepth := ⟨reached, 0.0, 0.0, light.params.z⟩ }
  else do
    let hit ← s.tryTrace shapes p.lightOrigin.truncate p.lightDir.truncate
    return { p with lightDepth := ⟨hit.t, 0.0, 0.0, hit.material⟩ }

/-- The first hit of a site in bounds reads nothing out of range. -/
theorem tryPrimary_eq (h : s.InBounds shapes) (p : Pixel) :
    tryPrimary s shapes p = some (primary s p) := by
  simp [tryPrimary, primary, h.tryTrace_eq]

/-- A bounce at a site in bounds reads nothing out of range. -/
theorem tryBounce_eq (h : s.InBounds shapes) (p : Pixel) :
    tryBounce s shapes p = some (bounce s p) := by
  unfold tryBounce bounce
  split
  · rfl
  · simp [h.tryTrace_eq]

/-- A pixel for whose hit a light was chosen by an index that is there. -/
def Aimed (s : Site) (p : Pixel) : Prop :=
  hasLight p = true → Binary32.toNat64 p.lightOrigin.w < s.frame.lights.size

/-- The light that was chosen is there. -/
theorem tryChosenLight_eq {p : Pixel} (h : Aimed s p) (hLight : hasLight p = true) :
    tryChosenLight s p = some (chosenLight s p) := by
  have hIndex := h hLight
  simp [tryChosenLight, chosenLight, Frame.light, hIndex]

/-- The shadow ray reads nothing out of range, since it goes to the light that was chosen.
-/
theorem tryShadow_eq (h : s.InBounds shapes) {p : Pixel} (hAimed : Aimed s p) :
    tryShadow s shapes p = some (shadow s p) := by
  unfold tryShadow shadow
  cases hLight : hasLight p with
  | false => rfl
  | true =>
      have hChosen := tryChosenLight_eq hAimed hLight
      simp [hChosen, h.tryTrace_eq]
      split <;> rfl

/-! ### The choice of a light -/

def tryAim (s : Site) (light : LightEntry) (position normal : Vec3 Float32) (rng : Pcg) :
    Option (Vec3 Float32 × Float32) := do
  let (r1, rng) := rng.next
  let (r2, _) := rng.next
  let place ← s.frame.data[light.slot]?
  if light.isSun then return (sampleCone place.truncate sunAngle r1 r2, farDistance)
  else
    let point := place.truncate + Bsdf.uniformSphere r1 r2 * place.w
    let origin := position + toward normal (point - position) * rayEpsilon
    let distance := (point - origin).length
    return ((point - origin) / Scalar.max distance 0.000001, distance)

def tryChooseLight (s : Site) (rng : Pcg) (p : Pixel) : Option (Pixel × Vec3 Float32) :=
  if s.frame.lights.isEmpty then some (withoutLight p, .zero)
  else do
    let (r, rng) := rng.next
    let index := lightIndex r s.frame.lights.size
    let normal := p.normal.truncate
    let light ← s.frame.lights[index]?
    let (direction, distance) ← tryAim s light (hitPosition p) normal rng
    let origin := hitPosition p + toward normal direction * rayEpsilon
    return ({ p with
        lightOrigin := origin.extend (.ofNat index)
        lightDir := direction.extend distance }, direction)

def tryResolve (s : Site) (p : Pixel) : Option Pixel :=
  if p.isMiss then some (withoutLight p)
  else do
    let inputs := s.inputs (hitPosition p) p.camDir.truncate p.normal.truncate p.depth.y
    let material := hitMaterial s p inputs
    let (p, direction) ← tryChooseLight s (s.stream (bounceCount p * 8 + 1)) p
    return { p with params := material.pack direction }

/-- A light is always chosen from the list, whatever the random number. It need not be below
one for this. -/
theorem lightIndex_lt {count : Nat} (h : 0 < count) (r : Float32) : lightIndex r count < count := by
  unfold lightIndex
  omega

/-- A light whose slot is there is aimed at as without a check. -/
theorem tryAim_eq {light : LightEntry} (h : light.slot < s.frame.data.size)
    (position normal : Vec3 Float32) (rng : Pcg) :
    tryAim s light position normal rng = some (aim s light position normal rng) := by
  have hPlace : s.frame.data[light.slot]? = some (s.slot light.slot) := getElem?_eq_slot h
  cases hSun : light.isSun with
  | true => simp [tryAim, aim, hPlace, hSun]
  | false => simp [tryAim, aim, hPlace, hSun]

/-- Choosing a light reads nothing out of range. -/
theorem tryChooseLight_eq (h : s.frame.InBounds shapes) (rng : Pcg) (p : Pixel) :
    tryChooseLight s rng p = some (chooseLight s rng p) := by
  unfold tryChooseLight chooseLight
  cases hNone : s.frame.lights.isEmpty with
  | true => rfl
  | false =>
      have hCount : 0 < s.frame.lights.size := by
        have hSome : s.frame.lights ≠ #[] := by simpa using hNone
        exact Array.size_pos_iff.mpr hSome
      rw [if_neg Bool.false_ne_true, if_neg Bool.false_ne_true]
      -- Nothing is to be computed of the number that was drawn.
      generalize rng.next = drawn
      obtain ⟨r, next⟩ := drawn
      dsimp only
      generalize hIndex : lightIndex r s.frame.lights.size = index
      have hLight : s.frame.lights[index]? = some (s.frame.light index) := by
        have hLess := hIndex ▸ lightIndex_lt hCount r
        simp [Frame.light, hLess]
      have hAim := tryAim_eq (h.slots _ (Array.mem_of_getElem? hLight)) (hitPosition p)
        p.normal.truncate next
      rw [hLight, Option.bind_eq_bind, Option.bind_some, hAim]
      rfl

/-- Resolving a hit reads nothing out of range. -/
theorem tryResolve_eq (h : s.frame.InBounds shapes) (p : Pixel) :
    tryResolve s p = some (resolve s p) := by
  unfold tryResolve resolve
  split
  · rfl
  · simp [tryChooseLight_eq h]

/-- No light is chosen, or one whose index is there. -/
theorem lightOrigin_chooseLight (s : Site) (rng : Pcg) (p : Pixel) :
    (chooseLight s rng p).1.lightOrigin.w = -1.0 ∨
      ∃ index < s.frame.lights.size, (chooseLight s rng p).1.lightOrigin.w = .ofNat index := by
  unfold chooseLight
  cases hNone : s.frame.lights.isEmpty with
  | true => exact .inl rfl
  | false =>
      have hCount : 0 < s.frame.lights.size := by
        have hSome : s.frame.lights ≠ #[] := by simpa using hNone
        exact Array.size_pos_iff.mpr hSome
      rw [if_neg Bool.false_ne_true]
      generalize rng.next = drawn
      obtain ⟨r, next⟩ := drawn
      exact .inr ⟨lightIndex r s.frame.lights.size, lightIndex_lt hCount r, rfl⟩

/-- A resolved hit has no light, which is noted as minus one, or one of the list by its
exact index. -/
theorem lightOrigin_resolve (s : Site) (p : Pixel) :
    (resolve s p).lightOrigin.w = -1.0 ∨
      ∃ index < s.frame.lights.size, (resolve s p).lightOrigin.w = .ofNat index := by
  cases hMiss : p.isMiss with
  | true => simp [resolve, hMiss, withoutLight]
  | false =>
      have hSame : (resolve s p).lightOrigin =
          (chooseLight s (s.stream (bounceCount p * 8 + 1)) p).1.lightOrigin := by
        simp [resolve, hMiss]
      rw [hSame]
      exact lightOrigin_chooseLight s _ p

/-- An index of a light is exact as a number, so that it is read as it was written. -/
theorem aimed_resolve (h : s.frame.InBounds shapes) (p : Pixel) : Aimed s (resolve s p) := by
  intro hLight
  rcases lightOrigin_resolve s p with hNone | ⟨index, hIndex, hOrigin⟩
  · have hNegative : (-1.0 : Float32) < 0.0 := by decide
    simp [hasLight, hNone, hNegative] at hLight
  · have hExact : index ≤ 2 ^ 24 := Nat.le_trans (Nat.le_of_lt hIndex) h.count
    rw [hOrigin, Binary32.toNat64_ofNat_of_le hExact]
    exact hIndex

/-- Following the shadow ray leaves the choice of the light. -/
theorem aimed_shadow {p : Pixel} (h : Aimed s p) : Aimed s (shadow s p) := by
  have hSame : (shadow s p).lightOrigin = p.lightOrigin ∧ hasLight (shadow s p) = hasLight p := by
    unfold shadow
    split
    · exact ⟨rfl, rfl⟩
    · split <;> exact ⟨rfl, rfl⟩
  unfold Aimed
  rw [hSame.1, hSame.2]
  exact h

/-! ### The light of the chosen source -/

def trySphereArrival (s : Site) (light : LightEntry) (p : Pixel) (surfaceDensity : Float32) :
    Option (Option Arrival) :=
  if !sameMaterial p.lightDepth.w light.params.z then some none
  else do
    let center ← s.frame.data[light.slot]?
    let l := p.lightDir.truncate
    let point := p.lightOrigin.truncate + l * p.lightDir.w
    let normal := (point - center.truncate).normalize
    let cosine := l.dot normal
    if 0.0 ≤ cosine then return none
    else
      let density := p.lightDir.w * p.lightDir.w / (light.area * cosine.abs)
      let count := Float32.ofNat s.frame.lights.size
      return some ⟨density, (lightMaterial s light point normal).emission,
        Bsdf.powerHeuristic (density / count) surfaceDensity⟩

def tryContribution (s : Site) (p : Pixel) : Option (Option (Vec3 Float32)) := do
  let light ← tryChosenLight s p
  let l := p.lightDir.truncate
  let shade := shading p
  if l.dot shade.facing ≤ 0.0 then return none
  else
    let e := Bsdf.evaluate shade (-p.camDir.truncate) shade.facing l
    if e.pdf ≤ 0.0 then return none
    else
      let arrival ← if light.isSun then some (sunArrival light p)
        else trySphereArrival s light p e.pdf
      return arrival.map fun a =>
        e.f * a.weight * (shade.facing.dot l).abs * a.emission
          / (a.density / Float32.ofNat s.frame.lights.size)

def tryDirect (s : Site) (p : Pixel) : Option Pixel :=
  if hasLight p then do
    let light ← tryContribution s p
    return { p with direct := (light.getD .zero).extend 0.0 }
  else some { p with direct := .splat 0.0 }

/-- The weight of a sphere's light reads nothing out of range. -/
theorem trySphereArrival_eq {light : LightEntry} (h : light.slot < s.frame.data.size) (p : Pixel)
    (surfaceDensity : Float32) :
    trySphereArrival s light p surfaceDensity = some (sphereArrival s light p surfaceDensity) := by
  have hCenter : s.frame.data[light.slot]? = some (s.slot light.slot) := getElem?_eq_slot h
  cases hSame : sameMaterial p.lightDepth.w light.params.z with
  | false => simp [trySphereArrival, sphereArrival, hSame]
  | true =>
      simp only [trySphereArrival, sphereArrival, hSame, hCenter, Bool.not_true, Bool.false_eq_true,
        if_false, Option.bind_eq_bind, Option.bind_some]
      exact (apply_ite some _ _ _).symm

/-- The light of the chosen entry reads nothing out of range. -/
theorem tryContribution_eq (h : s.frame.InBounds shapes) {p : Pixel} (hAimed : Aimed s p)
    (hLight : hasLight p = true) : tryContribution s p = some (contribution s p) := by
  have hChosen := tryChosenLight_eq hAimed hLight
  have hSlot : (chosenLight s p).slot < s.frame.data.size :=
    h.slots _ (Array.mem_of_getElem? hChosen)
  unfold tryContribution contribution
  rw [hChosen, Option.bind_eq_bind, Option.bind_some]
  dsimp only
  split
  · rfl
  · split
    · rfl
    · cases (chosenLight s p).isSun with
      | true => rfl
      | false => simp [trySphereArrival_eq hSlot]

/-- Direct light reads nothing out of range. -/
theorem tryDirect_eq (h : s.frame.InBounds shapes) {p : Pixel} (hAimed : Aimed s p) :
    tryDirect s p = some (direct s p) := by
  unfold tryDirect direct
  split
  · rename_i hLight
    simp [tryContribution_eq h hAimed hLight]
  · rfl

/-! ### Samples -/

def tryShade (s : Site) (shapes : Shapes) (p : Pixel) : Option Pixel := do
  let p ← tryResolve s p
  let p ← tryShadow s shapes p
  let p ← tryDirect s p
  return scatter s p

def tryBounces (s : Site) (shapes : Shapes) : Nat → Pixel → Option Pixel
  | 0, p => some p
  | n + 1, p => do
    let p ← tryBounce s shapes p
    let p ← tryShade s shapes p
    tryBounces s shapes n p

def tryPath (s : Site) (shapes : Shapes) (p : Pixel) : Option Pixel := do
  let p ← tryPrimary s shapes p
  let p ← tryShade s shapes p
  tryBounces s shapes (s.frame.maxDepth - 1) p

/-- One sample of a pixel, if nothing is read out of range. -/
def trySample (s : Site) (shapes : Shapes) (p : Pixel) : Option Pixel := do
  let p ← tryPath s shapes p
  return accumulate s p

/-- All passes after a hit read nothing out of range. That the light is there passes from
resolving to the later ones. -/
theorem tryShade_eq (h : s.InBounds shapes) (p : Pixel) :
    tryShade s shapes p = some (shade s p) := by
  have hAimed := aimed_resolve h.frame p
  simp [tryShade, shade, tryResolve_eq h.frame, tryShadow_eq h hAimed,
    tryDirect_eq h.frame (aimed_shadow hAimed)]

/-- No bounce reads out of range. The induction is on their number. -/
theorem tryBounces_eq (h : s.InBounds shapes) (n : Nat) (p : Pixel) :
    tryBounces s shapes n p = some (bounces s n p) := by
  induction n generalizing p with
  | zero => rfl
  | succ n ih => simp [tryBounces, bounces, tryBounce_eq h, tryShade_eq h, ih]

/-- Where all reads are in range, no sample fails, and the checks change nothing. -/
theorem trySample_eq (h : s.InBounds shapes) (p : Pixel) :
    trySample s shapes p = some (sample s p) := by
  simp [trySample, sample, tryPath, path, tryPrimary_eq h, tryShade_eq h, tryBounces_eq h]

end Pass

end PathTracer
