import Mathlib.Data.List.Forall2
import PathTracer.Render.Sample

/-! What a sample reads of the channels of its pixel. Every pass writes what later
passes of the same sample read, so that nothing but the average of earlier samples
is left over. The passes are compared at two sites that may differ in how they
number lights and materials. -/
namespace PathTracer

/-! ### Lights of a frame -/

namespace Frame

variable {f : Frame} {k : Nat}

/-- A light in the list is read from its place. -/
theorem light_of_lt (h : k < f.lights.size) : f.light k = f.lights[k] := by
  rw [light, Array.getD_eq_getD_getElem?, Array.getElem?_eq_getElem h, Option.getD_some]

/-- Beyond the list a light without color or area is read, so that reading never fails. -/
theorem light_of_le (h : f.lights.size ≤ k) : f.light k = .zero := by
  rw [light, Array.getD_eq_getD_getElem?, Array.getElem?_eq_none h, Option.getD_none]

/-- A light that is read from its place is one of the frame's. -/
theorem light_mem (h : k < f.lights.size) : f.light k ∈ f.lights :=
  light_of_lt h ▸ Array.getElem_mem h

end Frame

/-! ### Sites that see the same -/

namespace Site

/-- Lights that send the same, each in the data of its site. -/
structure SameLight (a b : Site) (l m : LightEntry) : Prop where
  kind : m.isSun = l.isSun
  number : m.params.z = l.params.z
  emission : m.emission = l.emission
  place : b.slot m.slot = a.slot l.slot
  resolve : ∀ inputs, b.tracer.resolve m.material inputs = a.tracer.resolve l.material inputs

/-- Numbers that stand for materials of the same look. -/
structure SameMaterial (a b : Site) (x y : Float32) : Prop where
  sign : (y < 0.0) = (x < 0.0)
  resolve : ∀ inputs, b.tracer.resolve (Binary32.toInt32 (Binary32.round y)) inputs =
    a.tracer.resolve (Binary32.toInt32 (Binary32.round x)) inputs
  emits : ∀ l ∈ a.frame.lights, l.isSun = false →
    sameMaterial l.params.z y = sameMaterial l.params.z x ∧
      sameMaterial y l.params.z = sameMaterial x l.params.z

/-- A second material that is blended in by the same share, if there is one. -/
structure SameBlend (a b : Site) (x y : Float32) : Prop where
  code : y = x
  resolve : 0.0 < x → ∀ inputs, b.tracer.resolve (Binary32.toInt32 (Binary32.floor x)) inputs =
    a.tracer.resolve (Binary32.toInt32 (Binary32.floor x)) inputs

structure SameHit (a b : Site) (h k : Hit) : Prop where
  t : k.t = h.t
  normal : k.normal = h.normal
  material : SameMaterial a b h.material k.material
  blend : SameBlend a b h.blend k.blend

/-- Sites at which rays meet the same, whatever the numbers of lights and materials
are. -/
structure Alike (a b : Site) : Prop where
  index : b.index = a.index
  extent : b.frame.extent = a.frame.extent
  seed : b.frame.seed = a.frame.seed
  randomVector : b.frame.randomVector = a.frame.randomVector
  cameraRay : b.frame.cameraRay = a.frame.cameraRay
  sampleIndex : b.frame.sampleIndex = a.frame.sampleIndex
  maxDepth : b.frame.maxDepth = a.frame.maxDepth
  noShadows : b.frame.noShadows = a.frame.noShadows
  lights : List.Forall₂ (SameLight a b) a.frame.lights.toList b.frame.lights.toList
  background : ∀ inputs, b.tracer.background inputs b.frame.background.truncate =
    a.tracer.background inputs a.frame.background.truncate
  trace : ∀ origin direction, SameHit a b (a.trace origin direction) (b.trace origin direction)

theorem SameMaterial.refl (s : Site) (x : Float32) : SameMaterial s s x x :=
  ⟨rfl, fun _ => rfl, fun _ _ _ => ⟨rfl, rfl⟩⟩

theorem SameHit.refl (s : Site) (h : Hit) : SameHit s s h h :=
  ⟨rfl, rfl, .refl s h.material, rfl, fun _ _ => rfl⟩

theorem Alike.refl (s : Site) : s.Alike s where
  index := rfl
  extent := rfl
  seed := rfl
  randomVector := rfl
  cameraRay := rfl
  sampleIndex := rfl
  maxDepth := rfl
  noShadows := rfl
  lights := List.forall₂_same.mpr fun _ _ => ⟨rfl, rfl, rfl, rfl, fun _ => rfl⟩
  background _ := rfl
  trace _ _ := .refl s _

namespace Alike

variable {a b : Site}

/-- Alike sites have one stream of random numbers, since seed, pixel and index of the sample
are the same. -/
theorem stream (h : a.Alike b) : b.stream = a.stream := by
  funext salt
  rw [Site.stream, Site.stream, h.index, h.seed]

/-- Alike sites are at one place of the image. -/
theorem coordinate (h : a.Alike b) : b.coordinate = a.coordinate := by
  rw [Site.coordinate, Site.coordinate, h.index, h.extent]

/-- Alike sites are on images of one size. -/
theorem viewSize (h : a.Alike b) : b.viewSize = a.viewSize := by
  rw [Site.viewSize, Site.viewSize, h.extent]

/-- Alike sites start from one hash of pixel and sample. -/
theorem hash (h : a.Alike b) : b.hash = a.hash := by
  rw [Site.hash, Site.hash, h.index]

/-- A surface is evaluated with the same inputs at alike sites, the environment being a
color on its own. -/
theorem inputs (h : a.Alike b) : b.inputs = a.inputs := by
  funext position direction normal hash
  rw [Site.inputs, Site.inputs, h.coordinate, h.viewSize]

/-- Alike frames have equally many lights, in slots that correspond. -/
theorem lightCount (h : a.Alike b) : b.frame.lights.size = a.frame.lights.size :=
  h.lights.length_eq.symm

/-- Where one of two alike frames is without lights, so is the other. -/
theorem lights_isEmpty (h : a.Alike b) : b.frame.lights.isEmpty = a.frame.lights.isEmpty := by
  rw [Array.isEmpty, Array.isEmpty, h.lightCount]

/-- A light is the same in both, unless there is none with its index. Then both have the one
without color and area. -/
theorem light (h : a.Alike b) (k : Nat) :
    (k < a.frame.lights.size ∧ a.frame.light k ∈ a.frame.lights ∧
        SameLight a b (a.frame.light k) (b.frame.light k)) ∨
      (a.frame.lights.size ≤ k ∧ a.frame.light k = .zero ∧ b.frame.light k = .zero) := by
  by_cases hIndex : k < a.frame.lights.size
  · have hOther : k < b.frame.lights.size := h.lightCount ▸ hIndex
    refine .inl ⟨hIndex, Frame.light_mem hIndex, ?_⟩
    rw [Frame.light_of_lt hIndex, Frame.light_of_lt hOther]
    exact h.lights.get hIndex hOther
  · rw [Nat.not_lt] at hIndex
    exact .inr ⟨hIndex, Frame.light_of_le hIndex, Frame.light_of_le (h.lightCount ▸ hIndex)⟩

end Alike

end Site

/-! ### Pixels at the same point of their paths -/

/-- Pixels whose rays and whose light so far are the same. -/
structure Pixel.SameRay (p q : Pixel) : Prop where
  camOrigin : q.camOrigin = p.camOrigin
  camDir : q.camDir = p.camDir
  radiance : q.radiance = p.radiance
  throughput : q.throughput = p.throughput
  absorption : q.absorption = p.absorption

/-- Pixels whose rays have met the same. The channels that are not named are those
that no pass reads before it has been written. -/
structure Pixel.SamePath (a b : Site) (p q : Pixel) : Prop extends p.SameRay q where
  distance : q.depth.x = p.depth.x
  hash : q.depth.y = p.depth.y
  blend : Site.SameBlend a b p.depth.z q.depth.z
  material : Site.SameMaterial a b p.depth.w q.depth.w
  normal : q.normal = p.normal

/-- The material and the light of the hit have been found. A miss has no material, and
without a light there is no direction to it. -/
structure Pixel.Resolved (a b : Site) (p q : Pixel) : Prop extends p.SamePath a b q where
  params : p.isMiss = false → q.params = p.params
  lightOrigin : q.lightOrigin = p.lightOrigin
  lightDir : Pass.hasLight p = true → q.lightDir = p.lightDir

/-- The shadow ray has been followed. -/
structure Pixel.Shadowed (a b : Site) (p q : Pixel) : Prop extends p.Resolved a b q where
  reach : q.lightDepth.x = p.lightDepth.x
  reached : ∀ l ∈ a.frame.lights, l.isSun = false →
    sameMaterial q.lightDepth.w l.params.z = sameMaterial p.lightDepth.w l.params.z

/-- The light of the chosen light source is known. -/
structure Pixel.Lit (a b : Site) (p q : Pixel) : Prop extends p.SamePath a b q where
  params : p.isMiss = false → q.params = p.params
  direct : q.direct = p.direct

namespace Pixel

variable {a b : Site} {p q : Pixel}

/-- The channels that a path is followed by. -/
def route (p : Pixel) : List (Vec4 Float32) :=
  [p.camOrigin, p.camDir, p.radiance, p.throughput, p.absorption, p.depth, p.normal]

/-- Writing other channels keeps pixels at the same point of their paths. -/
theorem SamePath.of_route (h : p.SamePath a b q) {r t : Pixel} (hFirst : r.route = p.route)
    (hSecond : t.route = q.route) : r.SamePath a b t := by
  obtain ⟨⟨hOrigin, hDir, hRadiance, hThroughput, hAbsorption⟩, hDistance, hHash, hBlend, hMaterial,
    hNormal⟩ := h
  simp only [route, List.cons.injEq] at hFirst hSecond
  obtain ⟨rOrigin, rDir, rRadiance, rThroughput, rAbsorption, rDepth, rNormal, -⟩ := hFirst
  obtain ⟨tOrigin, tDir, tRadiance, tThroughput, tAbsorption, tDepth, tNormal, -⟩ := hSecond
  exact ⟨⟨by rw [rOrigin, tOrigin, hOrigin], by rw [rDir, tDir, hDir],
      by rw [rRadiance, tRadiance, hRadiance], by rw [rThroughput, tThroughput, hThroughput],
      by rw [rAbsorption, tAbsorption, hAbsorption]⟩,
    by rw [rDepth, tDepth, hDistance], by rw [rDepth, tDepth, hHash],
    by rw [rDepth, tDepth]; exact hBlend, by rw [rDepth, tDepth]; exact hMaterial,
    by rw [rNormal, tNormal, hNormal]⟩

/-- Of two paths that stay alike neither ends before the other. -/
theorem SamePath.isDone (h : p.SamePath a b q) : q.isDone = p.isDone := by
  rw [Pixel.isDone, Pixel.isDone, h.normal]

/-- Paths that stay alike leave the scene at the same bounce. -/
theorem SamePath.isMiss (h : p.SamePath a b q) : q.isMiss = p.isMiss :=
  decide_eq_decide.mpr (iff_of_eq h.material.sign)

/-- Paths that stay alike meet the scene in the same points. -/
theorem SamePath.hitPosition (h : p.SamePath a b q) : Pass.hitPosition q = Pass.hitPosition p := by
  rw [Pass.hitPosition, Pass.hitPosition, h.camOrigin, h.camDir, h.distance]

/-- Paths that stay alike have scattered equally often. -/
theorem SamePath.bounceCount (h : p.SamePath a b q) : Pass.bounceCount q = Pass.bounceCount p := by
  rw [Pass.bounceCount, Pass.bounceCount, h.absorption]

/-- Where one path has chosen a light, so has the other. -/
theorem Resolved.hasLight (h : p.Resolved a b q) : Pass.hasLight q = Pass.hasLight p := by
  rw [Pass.hasLight, Pass.hasLight, h.lightOrigin, h.isMiss]

end Pixel

/-! ### The passes -/

namespace Pass

open Pixel (SameRay SamePath Resolved Shadowed Lit)

variable {a b : Site} {p q : Pixel}

/-- A hit is kept in all channels that it has. -/
theorem samePath_record (hSite : a.Alike b) (h : p.SameRay q) {hit other : Hit}
    (hHit : a.SameHit b hit other) : (record a hit p).SamePath a b (record b other q) where
  toSameRay := ⟨h.camOrigin, h.camDir, h.radiance, h.throughput, h.absorption⟩
  distance := hHit.t
  hash := hSite.hash
  blend := hHit.blend
  material := hHit.material
  normal := congrArg (Vec3.extend · 0.0) hHit.normal

/-- The place inside of its pixel comes from the stream alone. -/
theorem jitter_eq (hSite : a.Alike b) : jitter b = jitter a := by
  rw [jitter, jitter, hSite.stream, hSite.coordinate, hSite.randomVector]

/-- A new path has nothing of the pixels as they were. -/
theorem samePath_primary (hSite : a.Alike b) (p q : Pixel) :
    (primary a p).SamePath a b (primary b q) := by
  unfold primary
  rw [jitter_eq hSite, hSite.cameraRay]
  generalize a.frame.cameraRay (jitter a) = ray
  obtain ⟨origin, direction⟩ := ray
  have hStart : (start origin direction p).SameRay (start origin direction q) :=
    ⟨rfl, rfl, rfl, rfl, rfl⟩
  exact samePath_record hSite hStart (hSite.trace origin direction)

/-- No material has a negative number. -/
theorem sameMaterial_of_neg {x : Float32} (h : Binary32.toInt32 (Binary32.round x) < 0) :
    a.SameMaterial b x x := by
  refine ⟨rfl, fun inputs => ?_, fun _ _ _ => ⟨rfl, rfl⟩⟩
  rw [Tracer.resolve, Tracer.resolve, Tracer.material?, Tracer.material?, if_pos h, if_pos h]

/-- A hit of one material. -/
theorem sameBlend_zero : a.SameBlend b 0.0 0.0 :=
  ⟨rfl, fun hBlend => absurd hBlend (by decide)⟩

/-- Following the ray to the next hit keeps paths alike. The hits may name other materials,
as long as they correspond. -/
theorem samePath_bounce (hSite : a.Alike b) (h : p.SamePath a b q) :
    (bounce a p).SamePath a b (bounce b q) := by
  have hDead : Binary32.toInt32 (Binary32.round deadMaterial) < 0 := by decide
  unfold bounce
  rw [h.isDone]
  split
  · exact ⟨⟨h.camOrigin, h.camDir, h.radiance, h.throughput, h.absorption⟩, rfl, rfl,
      sameBlend_zero, sameMaterial_of_neg hDead, h.normal⟩
  · rw [h.camOrigin, h.camDir]
    exact samePath_record hSite h.toSameRay (hSite.trace _ _)

/-- Corresponding hits have the same surface, the blend of two materials included. -/
theorem hitMaterial_eq (h : p.SamePath a b q) (inputs : Material.Inputs) :
    hitMaterial b q inputs = hitMaterial a p inputs := by
  unfold hitMaterial materialIndex
  rw [h.material.resolve, h.blend.code]
  dsimp only
  split
  · rename_i hBlend
    rw [h.blend.resolve hBlend]
  · rfl

/-- Lights that correspond are aimed at alike, with the same random numbers. -/
theorem aim_of_sameLight {l m : LightEntry} (h : a.SameLight b l m) (position normal : Vec3 Float32)
    (rng : Pcg) : aim b m position normal rng = aim a l position normal rng := by
  unfold aim
  rw [h.place, h.kind]

/-- A path that has dropped its light has none. -/
theorem hasLight_withoutLight (p : Pixel) : hasLight (withoutLight p) = false := by
  have hNone : decide ((-1.0 : Float32) < 0.0) = true := by decide
  rw [hasLight, withoutLight, hNone]
  rfl

/-- Either there is no light, or both pixels get the same ray to one. The ray is all that is
noted of the light in a pixel. -/
theorem chooseLight_cases (hSite : a.Alike b) (h : p.SamePath a b q) (rng : Pcg) :
    (chooseLight a rng p = (withoutLight p, .zero) ∧
        chooseLight b rng q = (withoutLight q, .zero)) ∨
      ∃ origin direction l,
        chooseLight a rng p = ({ p with lightOrigin := origin, lightDir := direction }, l) ∧
          chooseLight b rng q = ({ q with lightOrigin := origin, lightDir := direction }, l) := by
  unfold chooseLight
  rw [hSite.lights_isEmpty]
  split
  · exact .inl ⟨rfl, rfl⟩
  · rename_i hSome
    refine .inr ?_
    obtain ⟨r, next⟩ := rng.next
    dsimp only
    rw [hSite.lightCount, h.normal, h.hitPosition]
    have hIndex : lightIndex r a.frame.lights.size < a.frame.lights.size := by
      have hCount : a.frame.lights.size ≠ 0 := fun hZero =>
        hSome (by rw [Array.isEmpty, hZero]; rfl)
      unfold lightIndex
      omega
    obtain ⟨-, -, hLight⟩ | ⟨hNone, -⟩ := hSite.light (lightIndex r a.frame.lights.size)
    · rw [aim_of_sameLight hLight]
      exact ⟨_, _, _, rfl, rfl⟩
    · exact absurd hIndex (Nat.not_lt.mpr hNone)

/-- The material and the light are found anew at every hit. -/
theorem resolved_resolve (hSite : a.Alike b) (h : p.SamePath a b q) :
    (resolve a p).Resolved a b (resolve b q) := by
  unfold resolve
  rw [h.isMiss]
  cases hMiss : p.isMiss with
  | true =>
      rw [if_pos rfl, if_pos rfl]
      refine ⟨h.of_route rfl rfl, ?_, rfl, ?_⟩
      · intro hHit
        cases hMiss.symm.trans hHit
      · intro hLight
        cases (hasLight_withoutLight p).symm.trans hLight
  | false =>
      rw [if_neg Bool.false_ne_true, if_neg Bool.false_ne_true]
      dsimp only
      rw [hSite.inputs, h.hitPosition, h.camDir, h.normal, h.hash, hitMaterial_eq h,
        hSite.stream, h.bounceCount]
      obtain ⟨hFirst, hSecond⟩ | ⟨origin, direction, l, hFirst, hSecond⟩ :=
        chooseLight_cases hSite h (a.stream (bounceCount p * 8 + 1))
      · rw [hFirst, hSecond]
        refine ⟨h.of_route rfl rfl, fun _ => rfl, rfl, ?_⟩
        intro hLight
        cases (hasLight_withoutLight p).symm.trans hLight
      · rw [hFirst, hSecond]
        exact ⟨h.of_route rfl rfl, fun _ => rfl, rfl, fun _ => rfl⟩

/-- Lights at one place of the two lists are of one kind and number. -/
theorem chosenLight_cases (hSite : a.Alike b) (h : p.Resolved a b q) :
    (chosenLight a p ∈ a.frame.lights ∧ a.SameLight b (chosenLight a p) (chosenLight b q)) ∨
      (chosenLight a p = .zero ∧ chosenLight b q = .zero) := by
  unfold chosenLight
  rw [h.lightOrigin]
  obtain ⟨-, hLight, hSame⟩ | ⟨-, hNone, hOther⟩ :=
    hSite.light (Binary32.toNat64 p.lightOrigin.w)
  · exact .inl ⟨hLight, hSame⟩
  · exact .inr ⟨hNone, hOther⟩

/-- The shadow ray starts where the light was found. -/
theorem shadowed_shadow (hSite : a.Alike b) (h : p.Resolved a b q) :
    (shadow a p).Shadowed a b (shadow b q) := by
  unfold shadow
  rw [h.hasLight, hSite.noShadows]
  have hSame : ∀ x y : Vec4 Float32,
      ({ p with lightDepth := x } : Pixel).Resolved a b { q with lightDepth := y } :=
    fun _ _ => ⟨h.of_route rfl rfl, h.params, h.lightOrigin, h.lightDir⟩
  cases hLight : hasLight p with
  | false => exact ⟨hSame _ _, rfl, fun _ _ _ => rfl⟩
  | true =>
      cases a.frame.noShadows with
      | true =>
          have hKind : (chosenLight b q).isSun = (chosenLight a p).isSun ∧
              (chosenLight b q).params.z = (chosenLight a p).params.z := by
            obtain ⟨-, hSun⟩ | ⟨hNone, hOther⟩ := chosenLight_cases hSite h
            · exact ⟨hSun.kind, hSun.number⟩
            · rw [hNone, hOther]
              exact ⟨rfl, rfl⟩
          refine ⟨hSame _ _, ?_, fun l _ _ => congrArg (sameMaterial · l.params.z) hKind.2⟩
          show (if (chosenLight b q).isSun then farDistance else q.lightDir.w) =
            if (chosenLight a p).isSun then farDistance else p.lightDir.w
          rw [hKind.1, h.lightDir hLight]
      | false =>
          have hHit : a.SameHit b (a.trace p.lightOrigin.truncate p.lightDir.truncate)
              (b.trace q.lightOrigin.truncate q.lightDir.truncate) := by
            rw [h.lightDir hLight, h.lightOrigin]
            exact hSite.trace _ _
          exact ⟨hSame _ _, hHit.t,
            fun l hMember hSphere => (hHit.material.emits l hMember hSphere).2⟩

/-- Corresponding lights have the same emission, although their materials may have other
indices. -/
theorem lightMaterial_eq (hSite : a.Alike b) {l m : LightEntry} (hLight : a.SameLight b l m)
    (point normal : Vec3 Float32) : lightMaterial b m point normal = lightMaterial a l point normal := by
  unfold lightMaterial
  rw [hLight.resolve, hSite.viewSize]

/-- Pixels that get the same from the light that was chosen for them. -/
theorem contribution_eq (hSite : a.Alike b) (h : p.Shadowed a b q) (hLight : hasLight p = true) :
    contribution b q = contribution a p := by
  have hHit : p.isMiss = false := by
    rw [hasLight, Bool.not_eq_true', Bool.or_eq_false_iff] at hLight
    exact hLight.2
  have hSun : ∀ l m : LightEntry, m.emission = l.emission → sunArrival m q = sunArrival l p := by
    intro l m hEmission
    rw [sunArrival, sunArrival, h.reach, hEmission]
  have hSphere : ∀ l m : LightEntry, l ∈ a.frame.lights → l.isSun = false → a.SameLight b l m →
      ∀ density, sphereArrival b m q density = sphereArrival a l p density := by
    intro l m hMember hKind hSame density
    unfold sphereArrival
    rw [hSame.number, h.reached l hMember hKind, h.lightDir hLight, h.lightOrigin, hSame.place,
      LightEntry.area, hSame.emission, hSite.lightCount]
    simp only [lightMaterial_eq hSite hSame]
    rfl
  have hArrival : ∀ density,
      (if (chosenLight b q).isSun then sunArrival (chosenLight b q) q
        else sphereArrival b (chosenLight b q) q density) =
      (if (chosenLight a p).isSun then sunArrival (chosenLight a p) p
        else sphereArrival a (chosenLight a p) p density) := by
    intro density
    obtain ⟨hMember, hSame⟩ | ⟨hNone, hOther⟩ := chosenLight_cases hSite h.toResolved
    · rw [hSame.kind]
      cases hKind : (chosenLight a p).isSun with
      | true => exact hSun _ _ hSame.emission
      | false => exact hSphere _ _ hMember hKind hSame density
    · have hZero : LightEntry.zero.isSun = true := by decide
      rw [hNone, hOther, hZero]
      exact hSun _ _ rfl
  unfold contribution shading
  rw [h.lightDir hLight, h.params hHit, h.normal, h.camDir, hSite.lightCount]
  simp only [hArrival]

/-- The light that reaches a shadowed point is the same, weight and all. -/
theorem lit_direct (hSite : a.Alike b) (h : p.Shadowed a b q) :
    (direct a p).Lit a b (direct b q) := by
  unfold direct
  rw [h.hasLight]
  cases hLight : hasLight p with
  | false => exact ⟨h.of_route rfl rfl, h.params, rfl⟩
  | true =>
      rw [contribution_eq hSite h hLight]
      exact ⟨h.of_route rfl rfl, h.params, rfl⟩

/-- Both find a sphere of the same area at a hit, or none. -/
theorem findLight_area (hSite : a.Alike b) {x y : Float32} (h : a.SameMaterial b x y) :
    (findLight b y).map LightEntry.area = (findLight a x).map LightEntry.area := by
  have hList : ∀ ls ms : List LightEntry, (∀ l ∈ ls, l ∈ a.frame.lights.toList) →
      List.Forall₂ (a.SameLight b) ls ms →
      (ms.find? fun l => !l.isSun && sameMaterial l.params.z y).map LightEntry.area =
        (ls.find? fun l => !l.isSun && sameMaterial l.params.z x).map LightEntry.area := by
    intro ls ms hMembers hPairs
    induction hPairs with
    | nil => rw [List.find?_nil, List.find?_nil]
    | @cons l m ls ms hHead hTail ih =>
        have hTest : (!m.isSun && sameMaterial m.params.z y) =
            (!l.isSun && sameMaterial l.params.z x) := by
          rw [hHead.kind, hHead.number]
          cases hKind : l.isSun with
          | true => rw [Bool.not_true, Bool.false_and, Bool.false_and]
          | false =>
              have hMember := Array.mem_toList_iff.mp (hMembers l List.mem_cons_self)
              rw [(h.emits l hMember hKind).1]
        rw [List.find?_cons, List.find?_cons, hTest]
        split
        · exact congrArg (fun emission : Vec4 Float32 => some emission.w) hHead.emission
        · exact ih fun k hk => hMembers k (List.mem_cons_of_mem l hk)
  unfold findLight
  rw [← Array.find?_toList, ← Array.find?_toList]
  exact hList _ _ (fun _ hMember => hMember) hSite.lights

/-- The weight of emission that is met by a bounce is the same, since the same light is
found for it. -/
theorem emissionWeight_of_samePath (hSite : a.Alike b) (h : p.SamePath a b q) :
    emissionWeight b q = emissionWeight a p := by
  unfold emissionWeight
  rw [h.throughput, h.distance, h.normal, h.camDir, hSite.lightCount]
  have hArea := findLight_area hSite h.material
  split
  · cases hFirst : findLight a p.depth.w with
    | none =>
        cases hSecond : findLight b q.depth.w with
        | none => rfl
        | some m => rw [hFirst, hSecond] at hArea; cases hArea
    | some l =>
        cases hSecond : findLight b q.depth.w with
        | none => rw [hFirst, hSecond] at hArea; cases hArea
        | some m =>
            rw [hFirst, hSecond] at hArea
            dsimp only
            rw [Option.some.inj hArea]
  · rfl

/-- A path that ends does so in the same way. -/
theorem samePath_finish (h : p.SamePath a b q) (radiance : Vec3 Float32) :
    (finish radiance p).SamePath a b (finish radiance q) :=
  ⟨⟨h.camOrigin, h.camDir, rfl, h.throughput, h.absorption⟩, h.distance, h.hash, h.blend,
    h.material, congrArg (fun n => n.truncate.extend (-1.0)) h.normal⟩

/-- Paths that leave the scene see the same background. -/
theorem samePath_leave (hSite : a.Alike b) (h : p.SamePath a b q) :
    (leave a p).SamePath a b (leave b q) := by
  unfold leave
  dsimp only
  rw [hSite.inputs, hSite.background, h.camOrigin, h.camDir, h.hash, h.radiance, h.throughput]
  exact samePath_finish h _

/-- A path goes on alike with one sample of the surface, and ends alike by roulette. -/
theorem samePath_continueAlong (h : p.SamePath a b q) (shade : Bsdf.Shading Float32)
    (sample : Bsdf.Sample Float32) (radiance carried : Vec3 Float32) :
    (continueAlong shade sample radiance carried p).SamePath a b
      (continueAlong shade sample radiance carried q) := by
  unfold continueAlong mediumAfter
  rw [h.hitPosition, h.normal, h.camDir, h.absorption, h.bounceCount]
  exact ⟨⟨rfl, rfl, rfl, rfl, rfl⟩, h.distance, h.hash, h.blend, h.material, rfl⟩

/-- Scattering at corresponding surfaces keeps paths alike. -/
theorem samePath_scatterSurface (hSite : a.Alike b) (h : p.Lit a b q) (hHit : p.isMiss = false) :
    (scatterSurface a p).SamePath a b (scatterSurface b q) := by
  have hShading : shading q = shading p := by
    rw [shading, shading, h.params hHit, h.normal, h.camDir]
  have hShare : transmittance q = transmittance p := by
    rw [transmittance, transmittance, h.absorption, h.distance]
  unfold scatterSurface
  rw [hShading, hShare, h.params hHit, h.throughput, h.radiance, h.direct,
    emissionWeight_of_samePath hSite h.toSamePath, hSite.stream, h.bounceCount, h.camDir]
  extract_lets carried emission radiance shade
  by_cases hEmits : (0.0 < emission.x || 0.0 < emission.y || 0.0 < emission.z) = true
  · rw [if_pos hEmits, if_pos hEmits]
    exact samePath_finish h.toSamePath _
  · rw [if_neg hEmits, if_neg hEmits]
    generalize Bsdf.sample shade _ _ _ = drawn
    obtain ⟨sample, rng⟩ := drawn
    show SamePath a b
      (if sample.pdf ≤ 0.0 then finish radiance p else continueAlong shade sample radiance carried p)
      (if sample.pdf ≤ 0.0 then finish radiance q else continueAlong shade sample radiance carried q)
    by_cases hNone : sample.pdf ≤ 0.0
    · rw [if_pos hNone, if_pos hNone]
      exact samePath_finish h.toSamePath _
    · rw [if_neg hNone, if_neg hNone]
      exact samePath_continueAlong h.toSamePath _ _ _ _

/-- Scattering keeps paths alike, whether they end, leave the scene or meet a surface. -/
theorem samePath_scatter (hSite : a.Alike b) (h : p.Lit a b q) :
    (scatter a p).SamePath a b (scatter b q) := by
  unfold scatter
  rw [h.isDone, h.isMiss]
  split
  · exact h.toSamePath
  · split
    · exact samePath_leave hSite h.toSamePath
    · rename_i hHit
      exact samePath_scatterSurface hSite h ((Bool.not_eq_true _).mp hHit)

/-- All passes after a hit keep paths alike. -/
theorem samePath_shade (hSite : a.Alike b) (h : p.SamePath a b q) :
    (shade a p).SamePath a b (shade b q) :=
  samePath_scatter hSite (lit_direct hSite (shadowed_shadow hSite (resolved_resolve hSite h)))

/-- Paths stay alike over any number of bounces. The induction is on the number, with one
step for each pass of a bounce. -/
theorem samePath_bounces (hSite : a.Alike b) (n : Nat) (h : p.SamePath a b q) :
    (bounces a n p).SamePath a b (bounces b n q) := by
  induction n generalizing p q with
  | zero => exact h
  | succ n ih => exact ih (samePath_shade hSite (samePath_bounce hSite h))

/-- A path has nothing of the pixel that it is kept in. -/
theorem samePath_path (hSite : a.Alike b) (p q : Pixel) :
    (path a p).SamePath a b (path b q) := by
  unfold path
  rw [hSite.maxDepth]
  exact samePath_bounces hSite _ (samePath_shade hSite (samePath_primary hSite p q))

/-! ### The average -/

section Average

variable (s : Site) (p : Pixel)

/-- Only the end of a sample writes the average. -/
theorem accum_bounce : (bounce s p).accum = p.accum := by
  unfold bounce
  split <;> rfl

/-- Choosing a light does not touch the average. -/
theorem accum_chooseLight (rng : Pcg) : (chooseLight s rng p).1.accum = p.accum := by
  unfold chooseLight
  split
  · rfl
  · obtain ⟨r, next⟩ := rng.next
    dsimp only

/-- Resolving a hit does not touch the average. -/
theorem accum_resolve : (resolve s p).accum = p.accum := by
  unfold resolve
  split
  · rfl
  · have hChosen := accum_chooseLight s p (s.stream (bounceCount p * 8 + 1))
    generalize chooseLight s _ p = chosen at hChosen ⊢
    obtain ⟨lit, direction⟩ := chosen
    exact hChosen

/-- The shadow ray does not touch the average. -/
theorem accum_shadow : (shadow s p).accum = p.accum := by
  unfold shadow
  split
  · rfl
  · split <;> rfl

/-- Direct light is added to the path and not to the average. -/
theorem accum_direct : (direct s p).accum = p.accum := by
  unfold direct
  split <;> rfl

/-- A surface ends a path or sends it on. What it depends on is left open, but a path has no
other form behind a surface. -/
theorem scatterSurface_cases :
    (∃ radiance, scatterSurface s p = finish radiance p) ∨
      ∃ shade sample radiance carried,
        scatterSurface s p = continueAlong shade sample radiance carried p := by
  unfold scatterSurface
  extract_lets carried emission radiance shade
  generalize Bsdf.sample shade _ _ _ = drawn
  obtain ⟨sample, rng⟩ := drawn
  by_cases hEmits : (0.0 < emission.x || 0.0 < emission.y || 0.0 < emission.z) = true
  · rw [if_pos hEmits]
    exact .inl ⟨_, rfl⟩
  · rw [if_neg hEmits]
    by_cases hNone : sample.pdf ≤ 0.0
    · exact .inl ⟨radiance, if_pos hNone⟩
    · exact .inr ⟨shade, sample, radiance, carried, if_neg hNone⟩

/-- Scattering at a surface does not touch the average. -/
theorem accum_scatterSurface : (scatterSurface s p).accum = p.accum := by
  rcases scatterSurface_cases s p with ⟨radiance, h⟩ | ⟨shade, sample, radiance, carried, h⟩
  · rw [h]
    rfl
  · rw [h]
    rfl

/-- Scattering does not touch the average. -/
theorem accum_scatter : (scatter s p).accum = p.accum := by
  unfold scatter
  split
  · rfl
  · split
    · rfl
    · exact accum_scatterSurface s p

/-- No pass after a hit touches the average. -/
theorem accum_shade : (shade s p).accum = p.accum := by
  rw [shade, accum_scatter, accum_direct, accum_shadow, accum_resolve]

/-- No bounce touches the average. -/
theorem accum_bounces (n : Nat) : (bounces s n p).accum = p.accum := by
  induction n generalizing p with
  | zero => rfl
  | succ n ih => rw [bounces, ih, accum_shade, accum_bounce]

/-- A whole path leaves the average as it was. Only the last pass of a sample writes it. -/
theorem accum_path : (path s p).accum = p.accum := by
  rw [path, accum_bounces, accum_shade]
  rfl

end Average

/-- Samples at sites that see the same add the same to the same average. -/
theorem accum_sample (hSite : a.Alike b)
    (hAverage : a.frame.sampleIndex = 0 ∨ q.accum = p.accum) :
    (sample b q).accum = (sample a p).accum := by
  show (average b.frame.sampleIndex (path b q).accum.truncate
      (sanitize (path b q).radiance.truncate)).extend 1.0 =
    (average a.frame.sampleIndex (path a p).accum.truncate
      (sanitize (path a p).radiance.truncate)).extend 1.0
  rw [hSite.sampleIndex, (samePath_path hSite p q).radiance, accum_path, accum_path]
  obtain hFirst | hSame := hAverage
  · rw [hFirst, average, average, if_pos rfl, if_pos rfl]
  · rw [hSame]

end Pass

end PathTracer
