import Mathlib
import PathTracer.Bsdf.Sampling
import PathTracer.Proofs.Geometry.Placements

/-! The mixture of lobes in exact arithmetic. Evaluation weighs every lobe by the factors with
which sampling weighs it once it is chosen, and the factor on a density is the probability of
the choice. -/
namespace PathTracer.Bsdf

open MeasureTheory

section Lobes

variable {α : Type} [Scalar α]

/-- The response of a lobe for a half vector. The dielectric lobe reflects above the surface and
refracts below it. -/
def Lobe.response (s : Shading α) (v n l h : Vec3 α) : Lobe → Response α
  | .dielectric =>
    if 0.0 < n.dot l then dielectricReflection s v n l h else dielectricRefraction s v n l h
  | .diffuse => diffuseLobe s (sheenColor s.material) v n l h
  | .highlight => specularLobe s (specularColor s.material) v n l h
  | .clearcoat => clearcoatLobe s v n l h

/-- The half vector with which a lobe is drawn. The diffuse lobe draws a direction, and the
half vector is the one behind it. The others draw the half vector, on the side of the view. -/
def Lobe.drawnHalf (s : Shading α) (v : Vec3 α) (r1 r2 : α) : Lobe → Vec3 α
  | .dielectric => towards v (s.toWorld (sampleGtr2 s.material.roughness r1 r2))
  | .diffuse => (s.toWorld (cosineHemisphere r1 r2) + v).normalizeOrZero
  | .highlight => towards v (s.toWorld (sampleGtr2Anisotropic s.ax s.ay r1 r2))
  | .clearcoat => towards v (s.toWorld (sampleGtr1 (clearcoatRoughness s.material) r1 r2))

/-- A number chooses reflection among the two ways of the dielectric lobe. -/
def Reflects (s : Shading α) (v half : Vec3 α) (choice : α) : Prop :=
  choice < dielectricFresnel (Scalar.abs ((reflect (-v) half).dot half)) s.eta

instance (s : Shading α) (v half : Vec3 α) (choice : α) : Decidable (Reflects s v half choice) :=
  inferInstanceAs (Decidable (_ < _))

/-- The direction that is drawn from a lobe: the view reflected at the half vector, or refracted
there where the dielectric lobe chooses so. -/
def Lobe.drawnDirection (s : Shading α) (v : Vec3 α) (r1 r2 choice : α) (lobe : Lobe) : Vec3 α :=
  let half := lobe.drawnHalf s v r1 r2
  match lobe with
  | .diffuse => s.toWorld (cosineHemisphere r1 r2)
  | .dielectric =>
    if Reflects s v half choice then (reflect (-v) half).normalizeOrZero
    else (refract (-v) half s.eta).normalizeOrZero
  | .highlight | .clearcoat => (reflect (-v) half).normalizeOrZero

/-- The dielectric lobe sends light to the wrong side: below the surface by reflection, or above
it by refraction. -/
def Lobe.Strays (s : Shading α) (v n l half : Vec3 α) (choice : α) (lobe : Lobe) : Prop :=
  lobe = .dielectric ∧ ¬(Reflects s v half choice ↔ 0.0 < n.dot l)

instance (s : Shading α) (v n l half : Vec3 α) (choice : α) (lobe : Lobe) :
    Decidable (lobe.Strays s v n l half choice) :=
  inferInstanceAs (Decidable (_ ∧ _))

/-- The factor on the density of a lobe that was chosen. -/
def densityFactor (m : SurfaceParams α) (lobe : Lobe) : α :=
  opaqueFactor m lobe * valueFactor m lobe

/-- The sum over the lobes. -/
def overLobes {β : Type} [Add β] (part : Lobe → β) : β :=
  part .diffuse + part .highlight + part .clearcoat + part .dielectric

end Lobes

section Reals

-- Only local, as where the reals are made a scalar.
/-- The real numbers as the numbers of the model. -/
noncomputable local instance realScalar : Scalar ℝ :=
  exactReal.toScalar

theorem zero_literal : (0.0 : ℝ) = 0 := by
  show (@OfScientific.ofScientific ℝ _ 0 true 1) = 0
  norm_num

theorem one_literal : (1.0 : ℝ) = 1 := by
  show (@OfScientific.ofScientific ℝ _ 10 true 1) = 1
  norm_num

/-- The material of a surface whose mixture is one: shares of metal and of transmission, and a
clear coat that is not negative. -/
structure Mixable (m : SurfaceParams ℝ) : Prop where
  metallic : m.metallic ∈ Set.Icc 0 1
  transmission : m.transmission ∈ Set.Icc 0 1
  clearcoat : m.clearcoat ∈ Set.Ici 0

variable {m : SurfaceParams ℝ}

/-! ### Probabilities of the choices -/

namespace Mixable

/-- The share of transmission is between zero and one. -/
theorem transmissionWeight_mem (h : Mixable m) : transmissionWeight m ∈ Set.Icc 0 1 := by
  have hValue : transmissionWeight m = (1 - m.metallic) * m.transmission :=
    congrArg (fun one : ℝ => (one - m.metallic) * m.transmission) one_literal
  obtain ⟨hLow, hHigh⟩ := h.metallic
  obtain ⟨hNone, hAll⟩ := h.transmission
  rw [hValue]
  exact ⟨mul_nonneg (sub_nonneg.mpr hHigh) hNone, mul_le_one₀ (sub_le_self 1 hLow) hNone hAll⟩

theorem diffuseRatio_mem (h : Mixable m) : diffuseRatio m ∈ Set.Icc 0 1 := by
  have hValue : diffuseRatio m = 1 / 2 * (1 - m.metallic) := by
    show (0.5 : ℝ) * (1.0 - m.metallic) = _
    norm_num
  obtain ⟨hLow, hHigh⟩ := h.metallic
  rw [hValue]
  constructor <;> linarith

theorem highlightRatio_mem (h : Mixable m) : highlightRatio m ∈ Set.Icc 0 1 := by
  have hValue : highlightRatio m = 1 / (1 + m.clearcoat) :=
    congrArg (fun one : ℝ => one / (one + m.clearcoat)) one_literal
  have hCoat : 0 ≤ m.clearcoat := h.clearcoat
  rw [hValue]
  exact ⟨by positivity, (div_le_one (by linarith)).mpr (by linarith)⟩

end Mixable

/-! ### Factors -/

/-- All lobes but the dielectric one share what it leaves. -/
theorem valueFactor_eq (lobe : Lobe) : valueFactor m lobe =
    if lobe = .dielectric then transmissionWeight m else 1 - transmissionWeight m := by
  cases lobe <;> first | rfl | exact congrArg (· - transmissionWeight m) one_literal

/-- The factor of each lobe on densities, as the product of the shares that lead to it. -/
theorem densityFactor_eq (lobe : Lobe) : densityFactor m lobe =
    match lobe with
    | .dielectric => transmissionWeight m
    | .diffuse => diffuseRatio m * (1 - transmissionWeight m)
    | .highlight => highlightRatio m * (1 - diffuseRatio m) * (1 - transmissionWeight m)
    | .clearcoat =>
      (1 - highlightRatio m) * (1 - diffuseRatio m) * (1 - transmissionWeight m) := by
  cases lobe <;> rw [densityFactor, valueFactor_eq] <;> simp only [opaqueFactor, one_literal]
  · exact one_mul _
  all_goals rfl

theorem Mixable.densityFactor_nonneg (h : Mixable m) (lobe : Lobe) :
    densityFactor m lobe ∈ Set.Ici 0 := by
  obtain ⟨hWeight, hRest⟩ := h.transmissionWeight_mem
  obtain ⟨hDiffuse, hSpecular⟩ := h.diffuseRatio_mem
  obtain ⟨hHighlight, hCoat⟩ := h.highlightRatio_mem
  have hOpaque := sub_nonneg.mpr hRest
  have hReflected := sub_nonneg.mpr hSpecular
  rw [densityFactor_eq]
  cases lobe with
  | dielectric => exact hWeight
  | diffuse => exact mul_nonneg hDiffuse hOpaque
  | highlight => exact mul_nonneg (mul_nonneg hHighlight hReflected) hOpaque
  | clearcoat => exact mul_nonneg (mul_nonneg (sub_nonneg.mpr hCoat) hReflected) hOpaque

/-- The factors on densities are shares of one. -/
theorem overLobes_densityFactor : overLobes (densityFactor m) = 1 := by
  simp only [overLobes, densityFactor_eq]
  show diffuseRatio m * (1 - transmissionWeight m)
    + highlightRatio m * (1 - diffuseRatio m) * (1 - transmissionWeight m)
    + (1 - highlightRatio m) * (1 - diffuseRatio m) * (1 - transmissionWeight m)
    + transmissionWeight m = 1
  ring

/-! ### Draws -/

/-- A uniform number from zero up to but not including one. -/
noncomputable def unitDraw : Measure ℝ :=
  volume.restrict (Set.Ico 0 1)

/-- Three independent uniform numbers. -/
noncomputable def draws : Measure (ℝ × ℝ × ℝ) :=
  unitDraw.prod (unitDraw.prod unitDraw)

instance : IsProbabilityMeasure unitDraw where
  measure_univ := by
    rw [unitDraw, Measure.restrict_apply MeasurableSet.univ, Set.univ_inter, Real.volume_Ico,
      sub_zero, ENNReal.ofReal_one]

/-- A uniform draw is below a share with the probability of the share. -/
theorem unitDraw_Iio {p : ℝ} (h : p ∈ Set.Icc 0 1) : unitDraw (Set.Iio p) = ENNReal.ofReal p := by
  have hPart : Set.Iio p ∩ Set.Ico 0 1 = Set.Ico 0 p := by
    ext x
    exact ⟨fun hx => ⟨hx.2.1, hx.1⟩, fun hx => ⟨hx.2, hx.1, lt_of_lt_of_le hx.2 h.2⟩⟩
  rw [unitDraw, Measure.restrict_apply measurableSet_Iio, hPart, Real.volume_Ico, sub_zero]

/-- A uniform draw is at or above a share with the rest of the probability. -/
theorem unitDraw_Ici {p : ℝ} (h : p ∈ Set.Icc 0 1) :
    unitDraw (Set.Ici p) = ENNReal.ofReal (1 - p) := by
  have hPart : Set.Ici p ∩ Set.Ico 0 1 = Set.Ico p 1 := by
    ext x
    exact ⟨fun hx => ⟨hx.1, hx.2.2⟩, fun hx => ⟨hx.1, le_trans h.1 hx.1, hx.2⟩⟩
  rw [unitDraw, Measure.restrict_apply measurableSet_Ici, hPart, Real.volume_Ico]

/-- The draws that choose a lobe. -/
def Lobe.region (m : SurfaceParams ℝ) : Lobe → Set (ℝ × ℝ × ℝ)
  | .dielectric => Set.Iio (transmissionWeight m) ×ˢ Set.univ ×ˢ Set.univ
  | .diffuse => Set.Ici (transmissionWeight m) ×ˢ Set.Iio (diffuseRatio m) ×ˢ Set.univ
  | .highlight => Set.Ici (transmissionWeight m) ×ˢ Set.Ici (diffuseRatio m) ×ˢ
      Set.Iio (highlightRatio m)
  | .clearcoat => Set.Ici (transmissionWeight m) ×ˢ Set.Ici (diffuseRatio m) ×ˢ
      Set.Ici (highlightRatio m)

/-- Draws in the region of a lobe choose the lobe. -/
theorem chooseLobe_of_mem {u : ℝ × ℝ × ℝ} {lobe : Lobe} (h : u ∈ lobe.region m) :
    chooseLobe m u.1 u.2.1 u.2.2 = lobe := by
  cases lobe with
  | dielectric => exact if_pos h.1
  | diffuse => exact (if_neg (not_lt.mpr h.1)).trans (if_pos h.2.1)
  | highlight =>
      exact (if_neg (not_lt.mpr h.1)).trans ((if_neg (not_lt.mpr h.2.1)).trans (if_pos h.2.2))
  | clearcoat =>
      exact (if_neg (not_lt.mpr h.1)).trans
        ((if_neg (not_lt.mpr h.2.1)).trans (if_neg (not_lt.mpr h.2.2)))

/-- All draws are in the region of some lobe. -/
theorem exists_mem_region (m : SurfaceParams ℝ) (u : ℝ × ℝ × ℝ) :
    ∃ lobe : Lobe, u ∈ lobe.region m := by
  rcases lt_or_ge u.1 (transmissionWeight m) with hFirst | hFirst
  · exact ⟨.dielectric, hFirst, trivial, trivial⟩
  · rcases lt_or_ge u.2.1 (diffuseRatio m) with hSecond | hSecond
    · exact ⟨.diffuse, hFirst, hSecond, trivial⟩
    · rcases lt_or_ge u.2.2 (highlightRatio m) with hThird | hThird
      · exact ⟨.highlight, hFirst, hSecond, hThird⟩
      · exact ⟨.clearcoat, hFirst, hSecond, hThird⟩

/-- The draws that choose a lobe are a box of three intervals. -/
theorem setOf_chooseLobe (m : SurfaceParams ℝ) (lobe : Lobe) :
    {u : ℝ × ℝ × ℝ | chooseLobe m u.1 u.2.1 u.2.2 = lobe} = lobe.region m := by
  ext u
  refine ⟨fun hChosen => ?_, chooseLobe_of_mem⟩
  obtain ⟨other, hOther⟩ := exists_mem_region m u
  rwa [← (chooseLobe_of_mem hOther).symm.trans hChosen]

/-- A lobe is chosen with the probability that is the factor on its density. -/
theorem Mixable.draws_chooseLobe (h : Mixable m) (lobe : Lobe) :
    draws {u | chooseLobe m u.1 u.2.1 u.2.2 = lobe} = ENNReal.ofReal (densityFactor m lobe) := by
  have hRest : 0 ≤ 1 - transmissionWeight m := sub_nonneg.mpr h.transmissionWeight_mem.2
  have hReflected : 0 ≤ 1 - diffuseRatio m := sub_nonneg.mpr h.diffuseRatio_mem.2
  rw [setOf_chooseLobe, draws, densityFactor_eq]
  cases lobe with
  | dielectric =>
      simp only [Lobe.region, Measure.prod_prod, measure_univ, mul_one,
        unitDraw_Iio h.transmissionWeight_mem]
  | diffuse =>
      simp only [Lobe.region, Measure.prod_prod, measure_univ, mul_one,
        unitDraw_Ici h.transmissionWeight_mem, unitDraw_Iio h.diffuseRatio_mem]
      rw [← ENNReal.ofReal_mul hRest, mul_comm]
  | highlight =>
      simp only [Lobe.region, Measure.prod_prod, unitDraw_Ici h.transmissionWeight_mem,
        unitDraw_Ici h.diffuseRatio_mem, unitDraw_Iio h.highlightRatio_mem]
      rw [← ENNReal.ofReal_mul hReflected, ← ENNReal.ofReal_mul hRest]
      congr 1
      ring
  | clearcoat =>
      simp only [Lobe.region, Measure.prod_prod, unitDraw_Ici h.transmissionWeight_mem,
        unitDraw_Ici h.diffuseRatio_mem, unitDraw_Ici h.highlightRatio_mem]
      rw [← ENNReal.ofReal_mul hReflected, ← ENNReal.ofReal_mul hRest]
      congr 1
      ring

/-! ### Evaluation -/

section Weights

variable {a b c d w : ℝ}

/-- Two ends need only agree where their weight is not zero. This lets evaluation skip what
counts for nothing. -/
theorem weigh_congr (hFirst : w ≠ 1 → a = c) (hSecond : w ≠ 0 → b = d) :
    a * (1 - w) + b * w = c * (1 - w) + d * w := by
  rcases eq_or_ne w 1 with rfl | hOne
  · rw [sub_self, mul_zero, mul_zero, hSecond one_ne_zero]
  · rw [hFirst hOne]
    rcases eq_or_ne w 0 with rfl | hZero
    · rw [mul_zero, mul_zero]
    · rw [hSecond hZero]

theorem mix_eq (a b w : ℝ) : Scalar.mix a b w = a * (1 - w) + b * w := by
  show a + (b - a) * w = _
  ring

theorem lerp_eq (v u : Vec3 ℝ) (w : ℝ) : v.lerp u w =
    ⟨v.x * (1 - w) + u.x * w, v.y * (1 - w) + u.y * w, v.z * (1 - w) + u.z * w⟩ :=
  congrArg (fun one : ℝ => (⟨v.x * (one - w) + u.x * w, v.y * (one - w) + u.y * w,
    v.z * (one - w) + u.z * w⟩ : Vec3 ℝ)) one_literal

end Weights

variable {s : Shading ℝ} (v n l : Vec3 ℝ)

/-- The shortcuts of evaluation leave out only what has no weight. -/
theorem evaluate_eq (h : Mixable s.material) : evaluate s v n l =
    let half := halfVector s v n l
    let rest := opaqueResponse s v n l half
    let dielectric := Lobe.dielectric.response s v n l half
    let weight := transmissionWeight s.material
    ⟨rest.f.lerp dielectric.f weight, Scalar.mix rest.pdf dielectric.pdf weight⟩ := by
  obtain ⟨hWeight, hRest⟩ := h.transmissionWeight_mem
  unfold evaluate
  extract_lets half weight dielectric rest part whole
  have hDielectric : weight ≠ 0 → dielectric = whole := fun hSome => if_pos (by
    rw [zero_literal]
    exact lt_of_le_of_ne hWeight hSome.symm)
  have hOpaque : weight ≠ 1 → rest = part := fun hLess => if_pos (by
    rw [one_literal]
    exact lt_of_le_of_ne hRest hLess)
  have hWeigh (part' : Response ℝ → ℝ) :
      part' rest * (1 - weight) + part' dielectric * weight =
        part' part * (1 - weight) + part' whole * weight :=
    weigh_congr (fun hLess => congrArg part' (hOpaque hLess))
      fun hSome => congrArg part' (hDielectric hSome)
  rw [lerp_eq, lerp_eq, mix_eq, mix_eq, hWeigh (·.f.x), hWeigh (·.f.y), hWeigh (·.f.z),
    hWeigh (·.pdf)]

/-- Values and densities of evaluation are sums over the lobes, with the factors of
sampling. Evaluation leaves lobes out where their weight is zero, which makes no difference
over exact numbers. -/
theorem evaluate_overLobes (h : Mixable s.material) :
    (evaluate s v n l).f = (overLobes fun lobe =>
      (lobe.response s v n l (halfVector s v n l)).f * valueFactor s.material lobe) ∧
    (evaluate s v n l).pdf = overLobes fun lobe =>
      (lobe.response s v n l (halfVector s v n l)).pdf * densityFactor s.material lobe := by
  have hValue (a b c d w : ℝ) :
      (0 + a + b + c) * (1 - w) + d * w = a * (1 - w) + b * (1 - w) + c * (1 - w) + d * w := by
    ring
  have hDensity (a b c d p q w : ℝ) :
      (0 + a * p + b * q * (1 - p) + c * (1 - q) * (1 - p)) * (1 - w) + d * w =
        a * (p * (1 - w)) + b * (q * (1 - p) * (1 - w)) + c * ((1 - q) * (1 - p) * (1 - w)) +
          d * w := by
    ring
  rw [evaluate_eq v n l h]
  simp only [overLobes, valueFactor_eq, densityFactor_eq, lerp_eq, mix_eq, opaqueResponse,
    Lobe.response, Vec3.zero, zero_literal, one_literal, reduceCtorEq, if_true, if_false]
  refine ⟨?_, hDensity _ _ _ _ _ _ _⟩
  exact congr (congr (congrArg Vec3.mk (hValue _ _ _ _ _)) (hValue _ _ _ _ _)) (hValue _ _ _ _ _)

/-! ### Sampling -/

/-- Reflection is the response of the dielectric lobe above the surface, and nothing below
it. -/
theorem dielectricReflection_eq (half : Vec3 ℝ) : dielectricReflection s v n l half =
    if 0.0 < n.dot l then Lobe.dielectric.response s v n l half else .zero := by
  split
  · rename_i hAbove
    exact (if_pos hAbove).symm
  · rename_i hBelow
    exact if_pos (not_lt.mp hBelow)

/-- Refraction is the response of the dielectric lobe below the surface, and nothing above
it. -/
theorem dielectricRefraction_eq (half : Vec3 ℝ) : dielectricRefraction s v n l half =
    if 0.0 < n.dot l then .zero else Lobe.dielectric.response s v n l half := by
  split
  · rename_i hAbove
    exact if_pos hAbove.le
  · rename_i hBelow
    exact (if_neg hBelow).symm

/-- What sampling returns for a lobe is the drawn direction with the response of the lobe there,
for the half vector with which it was drawn. It is zero where the dielectric lobe strays, and
nowhere else unless the response is. -/
theorem sampleLobe_eq (r1 r2 choice : ℝ) (lobe : Lobe) :
    sampleLobe s v n r1 r2 choice lobe =
      let half := lobe.drawnHalf s v r1 r2
      let l := lobe.drawnDirection s v r1 r2 choice
      (l, if lobe.Strays s v n l half choice then .zero else lobe.response s v n l half) := by
  cases lobe with
  | dielectric =>
      extract_lets half l
      by_cases hReflects : Reflects s v half choice
      · have hDirection : l = (reflect (-v) half).normalizeOrZero := if_pos hReflects
        have hDrawn : sampleLobe s v n r1 r2 choice .dielectric =
            (l, dielectricReflection s v n l half) := hDirection ▸ if_pos hReflects
        rw [hDrawn, dielectricReflection_eq]
        simp only [Lobe.Strays, hReflects, true_iff, true_and, ite_not]
      · have hDirection : l = (refract (-v) half s.eta).normalizeOrZero := if_neg hReflects
        have hDrawn : sampleLobe s v n r1 r2 choice .dielectric =
            (l, dielectricRefraction s v n l half) := hDirection ▸ if_neg hReflects
        rw [hDrawn, dielectricRefraction_eq]
        simp only [Lobe.Strays, hReflects, false_iff, true_and, not_not]
  | diffuse | highlight | clearcoat =>
      extract_lets half l
      rw [if_neg fun hStrays => Lobe.noConfusion hStrays.1]
      rfl

/-- A sample is the drawn direction with the factors of the lobe. -/
theorem sampleWith_eq (r1 r2 first second third : ℝ) :
    sampleWith s v n r1 r2 first second third =
      let lobe := chooseLobe s.material first second third
      let half := lobe.drawnHalf s v r1 r2
      let l := lobe.drawnDirection s v r1 r2 second
      let e := if lobe.Strays s v n l half second then .zero else lobe.response s v n l half
      ⟨l, e.f * valueFactor s.material lobe, e.pdf * densityFactor s.material lobe⟩ := by
  unfold sampleWith weightedSample densityFactor
  generalize chooseLobe s.material first second third = lobe
  rw [sampleLobe_eq]
  have hOne (pdf w : ℝ) : pdf * w = pdf * (1.0 * w) := by
    rw [one_literal]
    exact congrArg (pdf * ·) (one_mul w).symm
  have hStages (pdf p w : ℝ) : pdf * p * w = pdf * (p * w) := mul_assoc pdf p w
  cases lobe with
  | dielectric => exact congrArg (Sample.mk _ _) (hOne _ _)
  | diffuse => exact congrArg (Sample.mk _ _) (hStages _ _ _)
  | highlight => exact congrArg (Sample.mk _ _) (hStages _ _ _)
  | clearcoat => exact congrArg (Sample.mk _ _) (hStages _ _ _)

/-- Evaluation and sampling use the same mixture. Over exact arithmetic the value and the
density of evaluation are the sums over the lobes with the factors of sampling, and the
factors on the densities are the probabilities with which sampling chooses the lobes. What
sampling multiplies by these factors is the response of the chosen lobe itself, at the
direction and the half vector that were drawn. The only exception is the dielectric lobe on
the wrong side, which counts as zero there. Nothing is said of rounding, nor of how the
directions within a lobe are distributed. -/
theorem evaluate_mixture_sampleWith (s : Shading ℝ) (v n : Vec3 ℝ)
    (hMetallic : s.material.metallic ∈ Set.Icc 0 1)
    (hTransmission : s.material.transmission ∈ Set.Icc 0 1)
    (hClearcoat : s.material.clearcoat ∈ Set.Ici 0) :
    (∀ l, (evaluate s v n l).f = (overLobes fun lobe =>
        (lobe.response s v n l (halfVector s v n l)).f * valueFactor s.material lobe) ∧
      (evaluate s v n l).pdf = overLobes fun lobe =>
        (lobe.response s v n l (halfVector s v n l)).pdf * densityFactor s.material lobe) ∧
    (∀ r1 r2 first second third,
      let lobe := chooseLobe s.material first second third
      let half := lobe.drawnHalf s v r1 r2
      let l := lobe.drawnDirection s v r1 r2 second
      let e := if lobe.Strays s v n l half second then .zero else lobe.response s v n l half
      sampleWith s v n r1 r2 first second third =
        ⟨l, e.f * valueFactor s.material lobe, e.pdf * densityFactor s.material lobe⟩) ∧
    (∀ lobe, densityFactor s.material lobe ∈ Set.Ici 0) ∧
    overLobes (densityFactor s.material) = 1 ∧
    ∀ lobe, draws {u | chooseLobe s.material u.1 u.2.1 u.2.2 = lobe} =
      ENNReal.ofReal (densityFactor s.material lobe) := by
  have h : Mixable s.material := ⟨hMetallic, hTransmission, hClearcoat⟩
  exact ⟨fun l => evaluate_overLobes v n l h, sampleWith_eq v n, h.densityFactor_nonneg,
    overLobes_densityFactor, h.draws_chooseLobe⟩

/-- A surface that is half metal and half transmitting, with a full clear coat. -/
theorem evaluate_mixture_sampleWith_half :
    let m : SurfaceParams ℝ := { SurfaceParams.default with
      metallic := (1 / 2 : ℝ), transmission := (1 / 2 : ℝ), clearcoat := (1 : ℝ) }
    let s : Shading ℝ := .make m .axisZ (-.axisZ)
    overLobes (densityFactor s.material) = 1 ∧
      draws {u | chooseLobe s.material u.1 u.2.1 u.2.2 = .dielectric} =
        ENNReal.ofReal (1 / 4) := by
  intro m s
  have hHalf : (1 / 2 : ℝ) ∈ Set.Icc 0 1 := by constructor <;> norm_num
  obtain ⟨_, _, _, hSum, hChoice⟩ := evaluate_mixture_sampleWith s .axisZ .axisZ hHalf hHalf
    (zero_le_one : (0 : ℝ) ≤ 1)
  refine ⟨hSum, (hChoice .dielectric).trans (congrArg ENNReal.ofReal ?_)⟩
  rw [densityFactor_eq]
  show (1.0 - 1 / 2) * (1 / 2 : ℝ) = 1 / 4
  norm_num

end Reals

end PathTracer.Bsdf
