import PathTracer.Bsdf.Sampling
import PathTracer.Proofs.Geometry.Directions

/-! Opaque surfaces. Light from below the surface gets nothing from any lobe that does not
transmit, and the lobe that transmits has no weight. A sample below the surface therefore has no
density either. -/
namespace PathTracer

open Binary32 (Sideless value)

namespace Bsdf

variable {s : Shading Float32} {v n l h : Vec3 Float32}

theorem sideless_zero : Sideless (Response.zero : Response Float32).pdf :=
  Binary32.sideless_of_beq rfl

/-! ### Lobes below the surface -/

section Below

variable (hBelow : n.dot l ≤ 0.0)

include hBelow

theorem diffuseLobe_below (sheen : Vec3 Float32) : diffuseLobe s sheen v n l h = .zero :=
  if_pos hBelow

theorem specularLobe_below (color : Vec3 Float32) : specularLobe s color v n l h = .zero :=
  if_pos hBelow

theorem clearcoatLobe_below : clearcoatLobe s v n l h = .zero :=
  if_pos hBelow

/-- The parts of the density are zeros, or NaN where the probability of a lobe is infinite. -/
theorem opaqueResponse_below :
    (opaqueResponse s v n l h).f = .zero ∧ Sideless (opaqueResponse s v n l h).pdf := by
  rw [opaqueResponse, diffuseLobe_below hBelow, specularLobe_below hBelow,
    clearcoatLobe_below hBelow]
  have hDiffuse := Sideless.add sideless_zero (sideless_zero.mul_left (diffuseRatio s.material))
  exact ⟨rfl, (hDiffuse.add ((sideless_zero.mul_left _).mul_left _)).add
    ((sideless_zero.mul_left _).mul_left _)⟩

end Below

/-! ### Mixtures -/

/-- Where there is no transmission, nothing comes of light from below: each of the other
lobes checks the side first, and the dielectric lobe is not asked. -/
theorem evaluate_below (hOpaque : (transmissionWeight s.material == 0.0) = true)
    (hBelow : n.dot l ≤ 0.0) :
    (evaluate s v n l).f = .zero ∧ Sideless (evaluate s v n l).pdf := by
  obtain ⟨hValue, hDensity⟩ := opaqueResponse_below (s := s) (v := v)
    (h := halfVector s v n l) hBelow
  have hWeight := Binary32.sideless_of_beq hOpaque
  have hNone : ¬0.0 < transmissionWeight s.material := hWeight.not_pos
  have hRest : transmissionWeight s.material < 1.0 := by
    rcases Binary32.eq_zero_of_beq hOpaque with hZero | hZero <;> rw [hZero] <;> decide
  rw [evaluate, if_neg hNone, if_pos hRest]
  constructor
  · dsimp only
    rw [hValue]
    rcases Binary32.eq_zero_of_beq hOpaque with hZero | hZero <;> rw [hZero] <;> decide
  · exact hDensity.add (Sideless.mul_right _ hWeight)

/-! ### Samples -/

/-- Every sample from a random stream is the weighted sample of some lobe. -/
theorem exists_weightedSample (s : Shading Float32) (v n : Vec3 Float32) (rng : Pcg) :
    ∃ r1 r2 choice lobe, (sample s v n rng).1 = weightedSample s v n r1 r2 choice lobe := by
  unfold sample
  dsimp only
  split
  · exact ⟨_, _, _, _, rfl⟩
  · exact ⟨_, _, _, _, rfl⟩

section Samples

variable {r1 r2 choice : Float32} {lobe : Lobe}

/-- A lobe that does not transmit answers to its own samples as to any other direction. -/
theorem sampleLobe_below (hLobe : lobe ≠ .dielectric)
    (hBelow : n.dot (sampleLobe s v n r1 r2 choice lobe).1 ≤ 0.0) :
    (sampleLobe s v n r1 r2 choice lobe).2 = .zero := by
  cases lobe with
  | dielectric => exact absurd rfl hLobe
  | diffuse => exact diffuseLobe_below hBelow _
  | highlight => exact specularLobe_below hBelow _
  | clearcoat => exact clearcoatLobe_below hBelow

/-- The density of diffuse light is NaN with the cosine, and reflected directions are so short
that the cosine is a number. -/
theorem sideless_sampleLobe_of_isNaN (hNormal : n.Within (2 ^ 125)) (hLobe : lobe ≠ .dielectric)
    (hNone : (n.dot (sampleLobe s v n r1 r2 choice lobe).1).isNaN = true) :
    Sideless (sampleLobe s v n r1 r2 choice lobe).2.pdf := by
  have hReflected (w : Vec3 Float32) : (n.dot w.normalizeOrZero).isNaN = false :=
    Vec3.isNaN_dot hNormal (Vec3.within_normalizeOrZero w)
  cases lobe with
  | dielectric => exact absurd rfl hLobe
  | diffuse =>
    by_cases hBelow : n.dot (sampleLobe s v n r1 r2 choice .diffuse).1 ≤ 0.0
    · rw [sampleLobe_below hLobe hBelow]
      exact sideless_zero
    · have hAbove : (sampleLobe s v n r1 r2 choice .diffuse).2.pdf =
          n.dot (sampleLobe s v n r1 r2 choice .diffuse).1 * Scalar.invPi :=
        congrArg Response.pdf (if_neg hBelow)
      rw [hAbove]
      exact Binary32.sideless_of_isNaN (Binary32.isNaN_mul_left hNone)
  | highlight => cases (hReflected _).symm.trans hNone
  | clearcoat => cases (hReflected _).symm.trans hNone

/-- The weights of a sample keep a density from either side of zero. -/
theorem sideless_weightedSample (hOpaque : (transmissionWeight s.material == 0.0) = true)
    (hLobe : lobe ≠ .dielectric → Sideless (sampleLobe s v n r1 r2 choice lobe).2.pdf) :
    Sideless (weightedSample s v n r1 r2 choice lobe).pdf := by
  cases lobe with
  | dielectric => exact Sideless.mul_right _ (Binary32.sideless_of_beq hOpaque)
  | diffuse => exact ((hLobe nofun).mul_left _).mul_left _
  | highlight => exact ((hLobe nofun).mul_left _).mul_left _
  | clearcoat => exact ((hLobe nofun).mul_left _).mul_left _

end Samples

set_option maxRecDepth 2048 in
/-- The bound is a power of two, by which products with directions stay finite. -/
theorem within_of_most (h : ∀ x ∈ n.toList, x.abs ≤ 4.2535296e37) : n.Within (2 ^ 125) := by
  have hMost : value 4.2535296e37 = 2 ^ 125 := by
    rw [Binary32.value_of_place (e := 102) (m := 2 ^ 23) rfl (by decide)]
    norm_num
  exact fun x hx => hMost ▸ Binary32.within_of_abs_le rfl (h x hx)

/-- A surface without transmission scatters no light below itself. Nothing comes of light
from there, a sample of a density above zero does not lie there, and it lies above the
surface unless the normal is so huge that its products with directions overflow. Parameters,
directions and random numbers may be anything, also what is no number. The bound on the
normal is about `2 ^ 125`, up to which no product with a direction overflows. -/
theorem opaque_scatters_above (hOpaque : (transmissionWeight s.material == 0.0) = true) :
    (∀ l, n.dot l ≤ 0.0 →
        (evaluate s v n l).f = .zero ∧ ¬0.0 < (evaluate s v n l).pdf) ∧
      (∀ rng, 0.0 < (sample s v n rng).1.pdf → ¬n.dot (sample s v n rng).1.l ≤ 0.0) ∧
      ((∀ x ∈ n.toList, x.abs ≤ 4.2535296e37) →
        ∀ rng, 0.0 < (sample s v n rng).1.pdf → 0.0 < n.dot (sample s v n rng).1.l) := by
  have hSample (rng : Pcg) (hPdf : 0.0 < (sample s v n rng).1.pdf) :
      ¬n.dot (sample s v n rng).1.l ≤ 0.0 := by
    obtain ⟨r1, r2, choice, lobe, hEq⟩ := exists_weightedSample s v n rng
    intro hBelow
    rw [hEq] at hPdf hBelow
    refine (sideless_weightedSample hOpaque fun hLobe => ?_).not_pos hPdf
    rw [sampleLobe_below hLobe hBelow]
    exact sideless_zero
  refine ⟨fun l hBelow => ?_, hSample, fun hNormal rng hPdf => ?_⟩
  · obtain ⟨hValue, hDensity⟩ := evaluate_below (v := v) hOpaque hBelow
    exact ⟨hValue, hDensity.not_pos⟩
  · refine Binary32.pos_of_not_le ?_ (hSample rng hPdf)
    obtain ⟨r1, r2, choice, lobe, hEq⟩ := exists_weightedSample s v n rng
    rw [hEq] at hPdf ⊢
    by_contra hNone
    refine (sideless_weightedSample hOpaque fun hLobe => ?_).not_pos hPdf
    exact sideless_sampleLobe_of_isNaN (within_of_most hNormal) hLobe
      (Bool.eq_true_of_not_eq_false hNone)

set_option maxRecDepth 2048 in
/-- A metal plate that faces the third axis: nothing from below, and samples lie above. -/
theorem opaque_scatters_above_plate :
    let plate : Shading Float32 := .make (.metal .one 0.25) .axisZ (-.axisZ)
    let v : Vec3 Float32 := ⟨0.0, 0.6, 0.8⟩
    ((evaluate plate v .axisZ ⟨0.6, 0.0, -0.8⟩).f = .zero ∧
        ¬0.0 < (evaluate plate v .axisZ ⟨0.6, 0.0, -0.8⟩).pdf) ∧
      ∀ rng, 0.0 < (sample plate v .axisZ rng).1.pdf →
        0.0 < Vec3.axisZ.dot (sample plate v .axisZ rng).1.l :=
  have hScatters := opaque_scatters_above (n := .axisZ) (v := ⟨0.0, 0.6, 0.8⟩)
    (s := .make (.metal .one 0.25) .axisZ (-.axisZ)) (by decide)
  ⟨hScatters.1 ⟨0.6, 0.0, -0.8⟩ (by decide), hScatters.2.2 (by decide)⟩

/-- A sample for which five numbers are drawn, the last because the choice needs it. -/
theorem sample_of_draws {first second third fourth fifth last : Pcg}
    {r1 r2 transmits diffuses highlights : Float32} (h1 : first.next = (r1, second))
    (h2 : second.next = (r2, third)) (h3 : third.next = (transmits, fourth))
    (h4 : fourth.next = (diffuses, fifth)) (h5 : fifth.next = (highlights, last))
    (hNeeds : needsThird s.material transmits diffuses = true) :
    sample s v n first = (sampleWith s v n r1 r2 transmits diffuses highlights, last) := by
  simp only [sample, h1, h2, h3, h4, h5, hNeeds, if_true]

/-- The half vector of a clear coat, once the library has computed its three functions. -/
theorem sampleGtr1_eq {roughness r1 r2 power cosine sine : Float32}
    (hPower : Float32.pow (Scalar.max roughness 0.001 * Scalar.max roughness 0.001) (1.0 - r2) =
      power)
    (hCosine : Float32.cos (r1 * Scalar.tau) = cosine)
    (hSine : Float32.sin (r1 * Scalar.tau) = sine) :
    let a2 := Scalar.max roughness 0.001 * Scalar.max roughness 0.001
    let height := Scalar.sqrt ((1.0 - power) / (1.0 - a2))
    sampleGtr1 roughness r1 r2 = ⟨sineOf height * cosine, sineOf height * sine, height⟩ := by
  subst hPower hCosine hSine
  rfl

/-- The check of the side lets NaN pass. A metal with a clear coat is seen along a tiny
direction, whose reflection is normalized to one with a component above one. Its product
with the greatest normal is infinity less infinity, and the clear coat answers with an
infinite density. The three functions of the library have the values that it computes for
the numbers drawn. -/
theorem sample_of_overflow
    (hPower : Float32.pow 1.1881001 0.44845152 = 1.0803586)
    (hCosine : Float32.cos 5.546962 = 0.7410097) (hSine : Float32.sin 5.546962 = -0.6714943) :
    let coated : SurfaceParams Float32 :=
      { SurfaceParams.default with metallic := 1.0, clearcoat := 1e6, clearcoatGloss := -10.0 }
    let n : Vec3 Float32 := ⟨3.4028235e38, -3.4028235e38, 3.4028235e38⟩
    let drawn := (sample (.make coated .axisZ (-.axisZ))
      ⟨-3.13209649e-24, -5.06235582e-23, -8.4761779e-24⟩ n (.start 0 0 0)).1
    (n.dot drawn.l).isNaN = true ∧ 0.0 < drawn.pdf := by
  intro coated n drawn
  let s : Shading Float32 := .make coated .axisZ (-.axisZ)
  let v : Vec3 Float32 := ⟨-3.13209649e-24, -5.06235582e-23, -8.4761779e-24⟩
  have hDrawn : drawn = weightedSample s v n 0.8828263 0.5515485 0.3076676 .clearcoat := by
    have hDraws : sample s v n (.start 0 0 0) =
        (sampleWith s v n 0.8828263 0.5515485 0.6190972 0.3076676 0.08083379, ⟨3294773286⟩) :=
      sample_of_draws (by decide +kernel : _ = (_, ⟨2923555482⟩))
        (by decide +kernel : _ = (_, ⟨3369254887⟩)) (by decide +kernel : _ = (_, ⟨3326761560⟩))
        (by decide +kernel : _ = (_, ⟨353833789⟩)) (by decide +kernel) (by decide +kernel)
    have hLobe : chooseLobe s.material 0.6190972 0.3076676 0.08083379 = .clearcoat := by
      decide +kernel
    change (sample s v n (.start 0 0 0)).1 = _
    rw [hDraws, sampleWith, hLobe]
  have hBase : Scalar.max (clearcoatRoughness s.material) 0.001 *
      Scalar.max (clearcoatRoughness s.material) 0.001 = 1.1881001 := by decide +kernel
  have hExponent : (1.0 : Float32) - 0.5515485 = 0.44845152 := by decide +kernel
  have hAzimuth : (0.8828263 : Float32) * Scalar.tau = 5.546962 := by decide +kernel
  rw [← hBase, ← hExponent] at hPower
  rw [← hAzimuth] at hCosine hSine
  rw [hDrawn]
  simp only [weightedSample, sampleLobe, sampleClearcoat,
    sampleGtr1_eq hPower hCosine hSine]
  decide +kernel
end Bsdf

end PathTracer
