import PathTracer.Bsdf.Warp
import PathTracer.Proofs.Binary32.Results

/-! The power heuristic. A share of a sum of numbers that are not below zero is a weight, but the
heuristic takes shares of squares, which leave the range of the numbers long before the densities
do: the square of a great density is infinite, and those of small ones are zero. -/
namespace PathTracer

namespace Binary32

open Float.Model (UnpackedFloat)
open Float.Model.UnpackedFloat (Sign)

variable {a b t u : Float32}

/-- The share of a part in a whole is between zero and one. -/
theorem div_bounds (ha : a.isFinite = true) (hb : b.isFinite = true) (hSide : 0 ≤ value a)
    (hLess : value a ≤ value b) (hPos : 0 < value b) : 0.0 ≤ a / b ∧ a / b ≤ 1.0 := by
  have hNonneg : 0 ≤ value a / value b := div_nonneg hSide hPos.le
  have hOne : value a / value b ≤ value 1.0 := by
    rw [value_one]
    exact (div_le_one hPos).mpr hLess
  have hQuotient := approximates_div ha hb hPos.ne' (by
    rw [abs_of_nonneg hNonneg]
    rw [value_one] at hOne
    exact lt_overflow (hOne.trans (by norm_num)))
  have hRounds := Rounds.div (rounded_unpack a) (rounded_unpack b) ha hb hPos.ne'
  rw [value_le_iff (by decide) hQuotient.isFinite, value_le_iff hQuotient.isFinite (by decide),
    value_zero]
  exact ⟨hQuotient.near.nonneg hNonneg, hRounds.value_le (unpack_div a b) hQuotient.isFinite hOne⟩

/-! ### Shares -/

/-- The share of a finite number is a weight, unless all parts are zero. If the sum is beyond
the range, the share is zero. -/
theorem share_bounds (ht : t.isFinite = true) (hu : u.isNaN = false) (hPart : ¬t < 0.0)
    (hOther : ¬u < 0.0) (hSome : ¬((t == 0.0) = true ∧ (u == 0.0) = true)) :
    0.0 ≤ t / (u + t) ∧ t / (u + t) ≤ 1.0 := by
  by_cases hSum : (u + t).isFinite = true
  · have hFinite := (isFinite_of_add hSum).1
    have hFirst := value_nonneg ht hPart
    have hSecond := value_nonneg hFinite hOther
    obtain ⟨hMore, hLess⟩ := value_le_add hSum hSecond hFirst
    refine div_bounds ht hSum hFirst hLess (lt_of_le_of_ne (hFirst.trans hLess) fun hZero => ?_)
    refine hSome ⟨(value_eq_zero ht).mpr ?_, (value_eq_zero hFinite).mpr ?_⟩ <;> linarith
  · obtain ⟨s, hGreat⟩ :=
      exists_infinity (isNaN_add_of_isFinite hu ht) ((Bool.not_eq_true _).mp hSum)
    obtain ⟨side, hZero⟩ : ∃ side, (t / (u + t)).toModel.unpack = .zero side := by
      change t.toModel.unpack.isFinite = true at ht
      rw [unpack_div, hGreat]
      generalize t.toModel.unpack = r at *
      rcases r with _ | _ | _ | _
      · cases ht
      · cases ht
      · exact ⟨_, rfl⟩
      · exact ⟨_, rfl⟩
    have hFinite : (t / (u + t)).isFinite = true := by
      show (t / (u + t)).toModel.unpack.isFinite = true
      rw [hZero]
      rfl
    have hValue : value (t / (u + t)) = 0 := by rw [value, hZero, valueOf_zero]
    rw [value_le_iff (by decide) hFinite, value_le_iff hFinite (by decide), hValue, value_zero,
      value_one]
    exact ⟨le_rfl, zero_le_one⟩

/-- An infinite number has no share. -/
theorem isNaN_share_of_infinite (ht : t.isFinite = false) (hNumber : t.isNaN = false) :
    (t / (u + t)).isNaN = true := by
  obtain ⟨s, hUnpack⟩ := exists_infinity hNumber ht
  show (t / (u + t)).toModel.unpack.isNaN = true
  rw [unpack_div, isNaN_kept, unpack_add, hUnpack]
  generalize u.toModel.unpack = v
  rcases v with ⟨_ | _⟩ | _ | _ | _ <;> cases s <;> rfl

/-- Zeros have no shares either. -/
theorem isNaN_share_of_zero (ht : (t == 0.0) = true) (hu : (u == 0.0) = true) :
    (t / (u + t)).isNaN = true := by
  obtain ⟨s, hPart⟩ := beq_zero_iff.mp ht
  obtain ⟨side, hOther⟩ := beq_zero_iff.mp hu
  show (t / (u + t)).toModel.unpack.isNaN = true
  rw [unpack_div, isNaN_kept, unpack_add, hPart, hOther]
  cases s <;> cases side <;> rfl

/-! ### Squares -/

theorem value_greatBound : value 1.8446744e19 = 2 ^ 64 := by
  rw [value_of_place (e := 41) (m := 2 ^ 23) rfl (by decide)]
  norm_num

theorem value_leastBound : value 2.646978e-23 = 1 / 2 ^ 75 := by
  rw [value_of_place (e := -98) (m := 2 ^ 23) rfl (by decide)]
  norm_num

theorem isNaN_mul_of_isFinite (ha : a.isFinite = true) (hb : b.isFinite = true) :
    (a * b).isNaN = false := by
  show (a * b).toModel.unpack.isNaN = false
  have hResult := (Rounds.mul (rounded_unpack a) (rounded_unpack b) ha hb).isFinite
  rw [unpack_mul, isNaN_kept]
  generalize UnpackedFloat.mul _ _ _ = r at hResult ⊢
  rcases r with _ | _ | _ | _
  · rfl
  · cases hResult
  · rfl
  · rfl

/-- The greatest number below a power of two has all places in use. -/
theorem value_le_of_lt_two_pow (h : value a < 2 ^ 64) : value a ≤ 2 ^ 64 - 2 ^ 40 := by
  rcases onGrid_valueOf (rounded_unpack a) (by decide : -149 ≤ 40) with ⟨j, hMultiple⟩ | ⟨_, hSmall⟩
  · change value a = j * 2 ^ (40 : Int) at hMultiple
    rw [hMultiple] at h ⊢
    have hLess : (j : ℝ) < 2 ^ 24 := by
      norm_num at h ⊢
      linarith
    have hInt : j ≤ 2 ^ 24 - 1 := Int.le_sub_one_of_lt (by exact_mod_cast hLess)
    have hMost : (j : ℝ) ≤ 2 ^ 24 - 1 := by exact_mod_cast hInt
    norm_num at hMost ⊢
    linarith
  · have hBelow := (abs_lt.mp hSmall).2
    change value a < 2 ^ (40 + 23 : Int) at hBelow
    norm_num at hBelow ⊢
    linarith

/-- From `2 ^ 64` on a square is infinite. -/
theorem isFinite_square_iff (ha : a.isFinite = true) (hSide : 0.0 ≤ a) :
    (a * a).isFinite = true ↔ a < 1.8446744e19 := by
  have hNonneg : 0 ≤ value a := by
    rwa [value_le_iff (by decide) ha, value_zero] at hSide
  rw [value_lt_iff ha (by decide), value_greatBound]
  constructor
  · intro hFinite
    by_contra hGreat
    -- the first number beyond the range is not beyond the exact square
    have hBeyond : Canonical (2 ^ 23) 105 := ⟨by decide, by decide, by decide, .inl le_rfl⟩
    have hExact : valueOf (.finite .positive (2 ^ 23) 105 hBeyond.pos) ≤ value a * value a := by
      rw [valueOf_finite hBeyond.least]
      have hSquare := mul_le_mul (not_lt.mp hGreat) (not_lt.mp hGreat) (by positivity) hNonneg
      simp only [Sign.apply, Int.cast_one, one_mul]
      norm_num at hSquare ⊢
      exact hSquare
    have hRounds := Rounds.mul (rounded_unpack a) (rounded_unpack a) ha ha
    have hResult := hRounds.lower (.finite .positive (2 ^ 23) 105 hBeyond.pos) hBeyond hExact
    have hMost := (abs_le.mp (abs_value_le hFinite)).2
    rw [value, unpack_mul, isFinite_of_kept] at hMost
    · rw [valueOf_finite hBeyond.least] at hResult
      simp only [Sign.apply, Int.cast_one, one_mul] at hResult
      norm_num at hResult hMost
      linarith
    · rw [← unpack_mul]
      exact hFinite
  · intro hLess
    have hMost := value_le_of_lt_two_pow hLess
    refine (approximates_mul ha ha ?_).isFinite
    rw [abs_of_nonneg (mul_nonneg hNonneg hNonneg)]
    refine (mul_le_mul hMost hMost hNonneg (by norm_num)).trans_lt ?_
    unfold overflow
    norm_num

/-- The square of a number is zero where it is at most half of the least number. A tie goes
to zero. -/
theorem square_beq_zero_iff (ha : a.isFinite = true) (hSide : 0.0 ≤ a) :
    (a * a == 0.0) = true ↔ ¬2.646978e-23 < a := by
  have hNonneg : 0 ≤ value a := by
    rwa [value_le_iff (by decide) ha, value_zero] at hSide
  have hBound : (2.646978e-23 < a) ↔ 1 / 2 ^ 75 < value a := by
    rw [value_lt_iff (by decide) ha, value_leastBound]
  rw [hBound]
  constructor
  · intro hZero hMore
    have hProduct := (approximates_of_mul (isFinite_of_beq hZero (by decide))).near
    rw [value_eq_zero (isFinite_of_beq hZero (by decide))] at hZero
    have hSquare : 1 / 2 ^ 75 * (1 / 2 ^ 75) < value a * value a :=
      mul_self_lt_mul_self (by positivity) hMore
    have hError := hProduct.abs_sub_le
    have hHalf := hProduct.error (-125) le_rfl
    rw [hZero, zero_sub, abs_neg, abs_of_nonneg (mul_nonneg hNonneg hNonneg)] at hError hHalf
    norm_num at hError hHalf hSquare
    have hLarge := mt hHalf hSquare.not_ge
    norm_num at hLarge
    linarith
  · intro hLess
    rcases lt_or_eq_of_le (not_lt.mp hLess) with hBelow | hTie
    · have hSquare : value a * value a < 1 / 2 ^ 75 * (1 / 2 ^ 75) :=
        mul_self_lt_mul_self hNonneg hBelow
      have hProduct := approximates_mul ha ha (by
        rw [abs_of_nonneg (mul_nonneg hNonneg hNonneg)]
        refine lt_overflow (hSquare.le.trans ?_)
        norm_num)
      have hHalf := hProduct.near.error (-125) le_rfl (by
        rw [abs_of_nonneg (mul_nonneg hNonneg hNonneg)]
        refine hSquare.trans ?_
        norm_num)
      have hPart := hProduct.near.nonneg (mul_nonneg hNonneg hNonneg)
      rw [value_eq_zero hProduct.isFinite]
      by_contra hSome
      have hLeast := least_le_abs_value hSome
      rw [abs_of_nonneg hPart] at hLeast
      have hAbove := (abs_le.mp hHalf).2
      norm_num at hLeast hAbove hSquare
      linarith
    · have hSame : a = 2.646978e-23 := by
        refine eq_of_beq_of_pos ?_ (by decide)
        rw [value_eq_iff ha (by decide), value_leastBound, hTie]
      rw [hSame]
      decide

end Binary32

namespace Bsdf

variable {a b : Float32}

/-- The heuristic is a weight exactly if the density is below `2 ^ 64` and one of the two
densities is above `2 ^ (-75)`. Everywhere else it is no number. The bounds are where the
square of a density overflows, and where both squares are rounded to zero. In between the
weight is at most one after rounding too. -/
theorem powerHeuristic_isWeight_iff (ha : a.isFinite = true) (hb : b.isFinite = true)
    (hFirst : 0.0 ≤ a) (hSecond : 0.0 ≤ b) :
    (0.0 ≤ powerHeuristic a b ∧ powerHeuristic a b ≤ 1.0 ↔
      a < 1.8446744e19 ∧ (2.646978e-23 < a ∨ 2.646978e-23 < b)) ∧
    ((powerHeuristic a b).isNaN = true ↔
      ¬(a < 1.8446744e19 ∧ (2.646978e-23 < a ∨ 2.646978e-23 < b))) := by
  have hNeverBelow : ∀ {x : Float32}, 0.0 ≤ x → ¬x * x < 0.0 := fun hSide =>
    Binary32.not_neg_mul (fun h => Binary32.not_le_of_lt h hSide)
      fun h => Binary32.not_le_of_lt h hSide
  have hParts : (2.646978e-23 < a ∨ 2.646978e-23 < b) ↔
      ¬((a * a == 0.0) = true ∧ (b * b == 0.0) = true) := by
    rw [Binary32.square_beq_zero_iff ha hFirst, Binary32.square_beq_zero_iff hb hSecond]
    tauto
  rw [← Binary32.isFinite_square_iff ha hFirst, hParts]
  have hWeight (h : (a * a).isFinite = true ∧
      ¬((a * a == 0.0) = true ∧ (b * b == 0.0) = true)) :
      0.0 ≤ powerHeuristic a b ∧ powerHeuristic a b ≤ 1.0 :=
    Binary32.share_bounds h.1 (Binary32.isNaN_mul_of_isFinite hb hb) (hNeverBelow hFirst)
      (hNeverBelow hSecond) h.2
  have hNone (h : ¬((a * a).isFinite = true ∧
      ¬((a * a == 0.0) = true ∧ (b * b == 0.0) = true))) :
      (powerHeuristic a b).isNaN = true := by
    rcases not_and_or.mp h with hGreat | hZeros
    · exact Binary32.isNaN_share_of_infinite ((Bool.not_eq_true _).mp hGreat)
        (Binary32.isNaN_mul_of_isFinite ha ha)
    · obtain ⟨hPart, hOther⟩ := not_not.mp hZeros
      exact Binary32.isNaN_share_of_zero hPart hOther
  have hApart (h : (powerHeuristic a b).isNaN = true) : ¬powerHeuristic a b ≤ 1.0 :=
    Binary32.not_le_of_isNaN h
  refine ⟨⟨fun hBounds => ?_, hWeight⟩, ⟨fun hNumber h => ?_, hNone⟩⟩
  · by_contra h
    exact hApart (hNone h) hBounds.2
  · exact hApart hNumber (hWeight h).2

/-- Two densities of which the first is certain, and a density that is too great. -/
theorem powerHeuristic_isWeight_iff_certain :
    (0.0 ≤ powerHeuristic (1.0 : Float32) 0.0 ∧ powerHeuristic (1.0 : Float32) 0.0 ≤ 1.0) ∧
      (powerHeuristic (1e20 : Float32) 1.0).isNaN = true :=
  ⟨(powerHeuristic_isWeight_iff (by decide) (by decide) (by decide) (by decide)).1.mpr
      (by decide),
    (powerHeuristic_isWeight_iff (by decide) (by decide) (by decide) (by decide)).2.mpr
      (by decide)⟩

/-- Densities that are numbers, not both zero, and have no weight. -/
theorem powerHeuristic_of_greatDensity :
    ((1e20 : Float32).isFinite = true ∧ (1.0 : Float32).isFinite = true ∧
      (0.0 : Float32) ≤ 1e20 ∧ (0.0 : Float32) ≤ 1.0 ∧ ((1e20 : Float32) == 0.0) = false) ∧
      ¬(0.0 ≤ powerHeuristic (1e20 : Float32) 1.0 ∧ powerHeuristic (1e20 : Float32) 1.0 ≤ 1.0) := by
  decide

end Bsdf

end PathTracer
