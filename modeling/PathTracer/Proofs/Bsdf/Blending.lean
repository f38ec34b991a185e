import PathTracer.Bsdf.Parameters
import PathTracer.Proofs.Binary32.Results

/-! The blend of two surfaces. In rounded arithmetic it is the first surface at and below zero and
the second one at and beyond one, since a product with zero and a sum with zero lose nothing of a
finite number. In exact arithmetic it moves from the first to the second without turning back. -/
namespace PathTracer

/-! ### The numbers of a surface -/

namespace SurfaceParams

section Components

variable {α : Type}

/-- The numbers of all fifteen fields, a color by its components. -/
def components : List (SurfaceParams α → α) :=
  [(·.albedo.x), (·.albedo.y), (·.albedo.z), (·.specular), (·.emission.x), (·.emission.y),
    (·.emission.z), (·.anisotropic), (·.metallic), (·.roughness), (·.subsurface),
    (·.specularTint), (·.sheen), (·.sheenTint), (·.clearcoat), (·.clearcoatGloss),
    (·.transmission), (·.ior), (·.extinction.x), (·.extinction.y), (·.extinction.z)]

variable [Scalar α]

/-- Each number is blended on its own, and all by the same share. -/
theorem component_blend (a b : SurfaceParams α) (k : α) : ∀ part ∈ components,
    part (a.blend b k) = weighted (part a) (part b) (Scalar.smoothUnit (Scalar.saturate k)) := by
  simp only [components, List.forall_mem_cons, List.not_mem_nil, false_implies, implies_true,
    and_true]
  refine ⟨?_, ?_, ?_, ?_, ?_, ?_, ?_, ?_, ?_, ?_, ?_, ?_, ?_, ?_, ?_, ?_, ?_, ?_, ?_, ?_, ?_⟩ <;> rfl

end Components

/-! ### Rounded arithmetic -/

section Rounded

open Binary32

variable {x y k : Float32}

theorem smoothUnit_of_le_zero (h : k ≤ 0.0) : Scalar.smoothUnit (Scalar.saturate k) = 0.0 := by
  rcases lt_or_beq_of_le h with hBelow | hZero
  · have hSaturated : Scalar.saturate k = 0.0 := by
      unfold Scalar.saturate Scalar.clamp
      rw [if_pos hBelow, if_neg (by decide)]
    rw [hSaturated]
    decide
  · rcases eq_zero_of_beq hZero with rfl | rfl
    · decide
    · decide

theorem smoothUnit_of_one_le (h : 1.0 ≤ k) : Scalar.smoothUnit (Scalar.saturate k) = 1.0 := by
  have hPos : ¬k < 0.0 := fun hBelow => not_le_of_lt (lt_trans hBelow (by decide)) h
  have hSaturated : Scalar.saturate k = 1.0 := by
    unfold Scalar.saturate Scalar.clamp
    rw [if_neg hPos]
    rcases lt_or_beq_of_le h with hAbove | hOne
    · exact if_pos hAbove
    · obtain ⟨p, hFirst, hSecond⟩ := beq_iff_place.mp hOne
      obtain rfl : k = 1.0 :=
        eq_of_beq_of_pos (beq_iff_place.mpr ⟨p, hSecond, hFirst⟩) (by decide)
      exact if_neg (by decide)
  rw [hSaturated]
  decide

theorem mul_zero_beq (h : x.isFinite = true) : (x * 0.0 == 0.0) = true :=
  mul_beq_of_value h (by decide) (by decide) (by rw [value_zero, mul_zero])

theorem weighted_zero (hx : x.isFinite = true) (hy : y.isFinite = true) :
    (weighted x y 0.0 == x) = true := by
  have hZero := mul_zero_beq hy
  have hFinite := isFinite_of_beq hZero (by decide)
  rw [value_eq_zero hFinite] at hZero
  have hOne : (1.0 - 0.0 : Float32) = 1.0 := by decide
  show (x * (1.0 - 0.0) + y * 0.0 == x) = true
  rw [hOne, mul_one_eq]
  exact add_beq_of_value hx hFinite hx (by rw [hZero, add_zero])

theorem weighted_one (hx : x.isFinite = true) (hy : y.isFinite = true) :
    (weighted x y 1.0 == y) = true := by
  have hZero := mul_zero_beq hx
  have hFinite := isFinite_of_beq hZero (by decide)
  rw [value_eq_zero hFinite] at hZero
  have hNone : (1.0 - 1.0 : Float32) = 0.0 := by decide
  show (x * (1.0 - 1.0) + y * 1.0 == y) = true
  rw [hNone, mul_one_eq]
  exact add_beq_of_value hFinite hy hy (by rw [hZero, zero_add])

end Rounded

/-! ### Exact arithmetic -/

section Exact

-- Only local, as where the reals are made a scalar.
/-- The rational numbers, of which a blend uses only the arithmetic and the order. The other
functions have no rational values. -/
local instance rationalScalar : Scalar ℚ where
  decLt := inferInstance
  decLe := inferInstance
  abs x := |x|
  sqrt _ := 0
  sin _ := 0
  cos _ := 0
  log _ := 0
  pow _ _ := 0
  isFinite _ := true

variable {k x y s t : ℚ}

theorem saturate_eq (k : ℚ) : Scalar.saturate k = max 0 (min 1 k) := by
  have hClamp : Scalar.saturate k =
      if 1 < (if k < 0 then 0 else k) then 1 else if k < 0 then 0 else k := by
    show (if (1.0 : ℚ) < (if k < (0.0 : ℚ) then (0.0 : ℚ) else k) then (1.0 : ℚ)
      else if k < (0.0 : ℚ) then (0.0 : ℚ) else k) = _
    norm_num
  rw [hClamp]
  grind

theorem smoothUnit_eq (t : ℚ) : Scalar.smoothUnit t = t * t * (3 - 2 * t) := by
  show t * t * ((3.0 : ℚ) - (2.0 : ℚ) * t) = _
  norm_num

/-- The cubic does not turn back between zero and one. -/
theorem smoothUnit_le (hs : 0 ≤ s) (h : s ≤ t) (ht : t ≤ 1) :
    Scalar.smoothUnit s ≤ Scalar.smoothUnit t := by
  have hFirst : 0 ≤ 1 - s := sub_nonneg.mpr (h.trans ht)
  have hSecond : 0 ≤ 1 - t := sub_nonneg.mpr ht
  have hPos : 0 ≤ t := hs.trans h
  have hSlope : 0 ≤ 2 * (t * (1 - t)) + 2 * (s * (1 - s)) + (t * (1 - s) + s * (1 - t)) := by
    positivity
  have hGain : t * t * (3 - 2 * t) - s * s * (3 - 2 * s) =
      (t - s) * (2 * (t * (1 - t)) + 2 * (s * (1 - s)) + (t * (1 - s) + s * (1 - t))) := by
    ring
  rw [smoothUnit_eq, smoothUnit_eq, ← sub_nonneg, hGain]
  exact mul_nonneg (sub_nonneg.mpr h) hSlope

/-- The share of the second surface. -/
theorem monotone_share : Monotone fun k : ℚ => Scalar.smoothUnit (Scalar.saturate k) := by
  intro k l h
  simp only [saturate_eq]
  exact smoothUnit_le (le_max_left _ _) (max_le_max_left _ (min_le_min_left _ h))
    (max_le zero_le_one (min_le_left _ _))

theorem share_of_le_zero (h : k ≤ 0) : Scalar.smoothUnit (Scalar.saturate k) = 0 := by
  rw [saturate_eq, smoothUnit_eq, min_eq_right (h.trans zero_le_one), max_eq_left h]
  norm_num

theorem share_of_one_le (h : 1 ≤ k) : Scalar.smoothUnit (Scalar.saturate k) = 1 := by
  rw [saturate_eq, smoothUnit_eq, min_eq_left h, max_eq_right zero_le_one]
  norm_num

/-- The share never leaves the way from nothing to all. -/
theorem share_mem (k : ℚ) : Scalar.smoothUnit (Scalar.saturate k) ∈ Set.Icc (0 : ℚ) 1 := by
  have hLow := monotone_share (min_le_right 0 k)
  have hHigh := monotone_share (le_max_right 1 k)
  simp only [share_of_le_zero (min_le_left 0 k), share_of_one_le (le_max_left 1 k)] at hLow hHigh
  exact ⟨hLow, hHigh⟩

theorem weighted_eq (x y t : ℚ) : weighted x y t = x + (y - x) * t := by
  show x * ((1.0 : ℚ) - t) + y * t = _
  norm_num
  ring

theorem weighted_mem (ht : t ∈ Set.Icc 0 1) : weighted x y t ∈ Set.uIcc x y := by
  have hLine := (convex_uIcc x y).lineMap_mem Set.left_mem_uIcc Set.right_mem_uIcc ht
  rwa [AffineMap.lineMap_apply, vsub_eq_sub, vadd_eq_add, smul_eq_mul, mul_comm, add_comm,
    ← weighted_eq] at hLine

/-- The blend of two surfaces of finite numbers is the first one at and below zero and the
second one at and beyond one. In exact arithmetic each of its numbers moves from that of the
first to that of the second, which it never leaves, and it does not turn back on the way. In
floats the way between the ends is not said to stay between them, which rounding may
prevent. The factor need not be a number in range: it is cut to zero and one first. -/
theorem blend_moves_between_ends :
    (∀ (a b : SurfaceParams Float32) (k : Float32),
      (∀ part ∈ components, (part a).isFinite = true ∧ (part b).isFinite = true) →
      (k ≤ 0.0 → ∀ part ∈ components, (part (a.blend b k) == part a) = true) ∧
      (1.0 ≤ k → ∀ part ∈ components, (part (a.blend b k) == part b) = true)) ∧
    ∀ a b : SurfaceParams ℚ, ∀ part ∈ components,
      (∀ k ≤ 0, part (a.blend b k) = part a) ∧ (∀ k, 1 ≤ k → part (a.blend b k) = part b) ∧
      (∀ k, part (a.blend b k) ∈ Set.uIcc (part a) (part b)) ∧
      (part a ≤ part b → Monotone fun k => part (a.blend b k)) ∧
      (part b ≤ part a → Antitone fun k => part (a.blend b k)) := by
  refine ⟨fun a b k hFinite => ⟨fun hSide part hPart => ?_, fun hSide part hPart => ?_⟩,
    fun a b part hPart => ?_⟩
  · rw [component_blend a b k part hPart, smoothUnit_of_le_zero hSide]
    exact weighted_zero (hFinite part hPart).1 (hFinite part hPart).2
  · rw [component_blend a b k part hPart, smoothUnit_of_one_le hSide]
    exact weighted_one (hFinite part hPart).1 (hFinite part hPart).2
  · simp only [component_blend a b _ part hPart]
    refine ⟨fun k hSide => ?_, fun k hSide => ?_, fun k => weighted_mem (share_mem k),
      fun hLess k l h => ?_, fun hLess k l h => ?_⟩
    · rw [share_of_le_zero hSide, weighted_eq, mul_zero, add_zero]
    · rw [share_of_one_le hSide, weighted_eq, mul_one, add_sub_cancel]
    · simp only [weighted_eq]
      exact add_le_add_right (mul_le_mul_of_nonneg_left (monotone_share h) (sub_nonneg.mpr hLess)) _
    · simp only [weighted_eq]
      exact add_le_add_right (mul_le_mul_of_nonpos_left (monotone_share h) (sub_nonpos.mpr hLess)) _

/-- Two materials before, at and after the ends of the way from one to the other. -/
theorem blend_moves_from_diffuse_to_metal :
    let first : SurfaceParams Float32 := diffuse .one
    let second : SurfaceParams Float32 := metal ⟨1.0, 0.5, 0.0⟩ 0.1
    (∀ part ∈ components, (part first).isFinite = true ∧ (part second).isFinite = true) ∧
      (∀ part ∈ components, (part (first.blend second (-2.0)) == part first) = true) ∧
      ∀ part ∈ components, (part (first.blend second 1.0) == part second) = true := by
  intro first second
  have hFinite : ∀ part ∈ components,
      (part first).isFinite = true ∧ (part second).isFinite = true := by decide
  exact ⟨hFinite, (blend_moves_between_ends.1 first second (-2.0) hFinite).1 (by decide),
    (blend_moves_between_ends.1 first second 1.0 hFinite).2 (by decide)⟩

end Exact

end SurfaceParams

end PathTracer
