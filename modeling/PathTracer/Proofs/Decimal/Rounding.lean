import Mathlib
import PathTracer.Decimal.Rounding

/-! Rounding to a binary format depends on the exact value of a ratio alone, not
on how the ratio is written, and it leaves the numbers of the format as they
are. -/
namespace PathTracer.Decimal

/-- The exact value of a magnitude. -/
def Dyadic.value (d : Dyadic) : ℚ :=
  d.significand * (2 : ℚ) ^ d.exponent

/-! ### Ratios -/

/-- Two ratios of one value, without fractions. -/
theorem mul_eq_mul_of_div_eq {n d n' d' : ℕ} (hd : 0 < d) (hd' : 0 < d')
    (h : (n : ℚ) / d = n' / d') : n * d' = n' * d := by
  have hFirst : (d : ℚ) ≠ 0 := by positivity
  have hSecond : (d' : ℚ) ≠ 0 := by positivity
  rw [div_eq_div_iff hFirst hSecond] at h
  exact_mod_cast h

/-- Halves are to even in either writing of a ratio. -/
theorem roundHalfEven_congr {n d n' d' : ℕ} (hd : 0 < d) (hd' : 0 < d')
    (h : (n : ℚ) / d = n' / d') : roundHalfEven n d = roundHalfEven n' d' := by
  have hCross := mul_eq_mul_of_div_eq hd hd' h
  have hQuotient : n / d = n' / d' := by
    rw [← Nat.mul_div_mul_right n d hd', ← Nat.mul_div_mul_right n' d' hd, hCross, mul_comm d d']
  have hRest : n % d * d' = n' % d' * d := by
    rw [← Nat.mul_mod_mul_right, ← Nat.mul_mod_mul_right, hCross, mul_comm d d']
  have hBelow : 2 * (n % d) < d ↔ 2 * (n' % d') < d' := by
    rw [← Nat.mul_lt_mul_right hd', ← Nat.mul_lt_mul_right (b := 2 * (n' % d')) hd, mul_assoc, hRest,
      mul_assoc, mul_comm d d']
  have hAbove : d < 2 * (n % d) ↔ d' < 2 * (n' % d') := by
    rw [← Nat.mul_lt_mul_right hd', ← Nat.mul_lt_mul_right (b := d') hd, mul_assoc 2, hRest,
      mul_assoc 2, mul_comm d d']
  unfold roundHalfEven
  simp only [hQuotient, hBelow, hAbove]

theorem roundHalfEven_of_dvd (m : ℕ) {d : ℕ} (hd : 0 < d) : roundHalfEven (m * d) d = m := by
  unfold roundHalfEven
  simp [Nat.mul_mod_left, Nat.mul_div_cancel m hd, hd]

theorem inUnits_pos {num den : ℕ} (hDen : 0 < den) (exponent : ℤ) :
    0 < (inUnits num den exponent).2 := by
  unfold inUnits
  split
  · exact Nat.mul_pos hDen (Nat.pow_pos (by decide))
  · exact hDen

/-- The ratio in units of a power of two. -/
theorem inUnits_value (num den : ℕ) (exponent : ℤ) :
    ((inUnits num den exponent).1 : ℚ) / (inUnits num den exponent).2 =
      num / den / (2 : ℚ) ^ exponent := by
  unfold inUnits
  split
  · rename_i e
    simp [div_div]
  · rename_i e
    simp only [Nat.pow_eq, Nat.cast_mul, Nat.cast_pow, Nat.cast_ofNat, zpow_negSucc, div_inv_eq_mul]
    ring

theorem inUnits_congr {num den num' den' : ℕ} (h : (num : ℚ) / den = num' / den')
    (exponent : ℤ) :
    ((inUnits num den exponent).1 : ℚ) / (inUnits num den exponent).2 =
      (inUnits num' den' exponent).1 / (inUnits num' den' exponent).2 := by
  rw [inUnits_value, inUnits_value, h]

/-! ### The binary order -/

/-- The difference of the orders of numerator and denominator is less than one off. -/
theorem order_guess_bounds {num den : ℕ} (hNum : 0 < num) (hDen : 0 < den) :
    (2 : ℚ) ^ ((num.log2 : ℤ) - den.log2 - 1) ≤ num / den ∧
      (num : ℚ) / den < (2 : ℚ) ^ ((num.log2 : ℤ) - den.log2 + 1) := by
  have hDenPos : (0 : ℚ) < den := by exact_mod_cast hDen
  have hNumLow : (2 : ℚ) ^ (num.log2 : ℤ) ≤ num := by
    exact_mod_cast Nat.log2_self_le hNum.ne'
  have hNumHigh : (num : ℚ) < (2 : ℚ) ^ ((num.log2 : ℤ) + 1) := by
    exact_mod_cast Nat.lt_log2_self
  have hDenLow : (2 : ℚ) ^ (den.log2 : ℤ) ≤ den := by
    exact_mod_cast Nat.log2_self_le hDen.ne'
  have hDenHigh : (den : ℚ) < (2 : ℚ) ^ ((den.log2 : ℤ) + 1) := by
    exact_mod_cast Nat.lt_log2_self
  constructor
  · rw [le_div_iff₀ hDenPos]
    calc (2 : ℚ) ^ ((num.log2 : ℤ) - den.log2 - 1) * den
        ≤ (2 : ℚ) ^ ((num.log2 : ℤ) - den.log2 - 1) * (2 : ℚ) ^ ((den.log2 : ℤ) + 1) := by gcongr
      _ = (2 : ℚ) ^ (num.log2 : ℤ) := by
        rw [← zpow_add₀ (by norm_num)]
        congr 1
        ring
      _ ≤ num := hNumLow
  · rw [div_lt_iff₀ hDenPos]
    calc (num : ℚ) < (2 : ℚ) ^ ((num.log2 : ℤ) + 1) := hNumHigh
      _ = (2 : ℚ) ^ ((num.log2 : ℤ) - den.log2 + 1) * (2 : ℚ) ^ (den.log2 : ℤ) := by
        rw [← zpow_add₀ (by norm_num)]
        congr 1
        ring
      _ ≤ (2 : ℚ) ^ ((num.log2 : ℤ) - den.log2 + 1) * den := by gcongr

/-- A ratio lies between the power of two of its order and the next one. -/
theorem binaryOrder_bounds {num den : ℕ} (hNum : 0 < num) (hDen : 0 < den) :
    (2 : ℚ) ^ binaryOrder num den ≤ num / den ∧
      (num : ℚ) / den < (2 : ℚ) ^ (binaryOrder num den + 1) := by
  obtain ⟨hLow, hHigh⟩ := order_guess_bounds hNum hDen
  have hPower : (0 : ℚ) < 2 ^ ((num.log2 : ℤ) - den.log2) := by positivity
  have hUnits := inUnits_value num den ((num.log2 : ℤ) - den.log2)
  have hPos : (0 : ℚ) < (inUnits num den ((num.log2 : ℤ) - den.log2)).2 := by
    exact_mod_cast inUnits_pos hDen _
  unfold binaryOrder
  dsimp only
  split
  · rename_i hAbove
    refine ⟨?_, hHigh⟩
    rw [← one_le_div₀ hPower, ← hUnits, one_le_div₀ hPos]
    exact_mod_cast hAbove
  · rename_i hBelow
    refine ⟨hLow, ?_⟩
    rw [sub_add_cancel, ← div_lt_one hPower, ← hUnits, div_lt_one hPos]
    exact_mod_cast not_le.mp hBelow

/-- There is only one power of two with a ratio between it and the next. -/
theorem order_unique {q : ℚ} {j k : ℤ} (hj : (2 : ℚ) ^ j ≤ q ∧ q < (2 : ℚ) ^ (j + 1))
    (hk : (2 : ℚ) ^ k ≤ q ∧ q < (2 : ℚ) ^ (k + 1)) : j = k := by
  have hFirst : j < k + 1 := (zpow_lt_zpow_iff_right₀ (by norm_num)).mp (hj.1.trans_lt hk.2)
  have hSecond : k < j + 1 := (zpow_lt_zpow_iff_right₀ (by norm_num)).mp (hk.1.trans_lt hj.2)
  omega

/-- The order of a magnitude of the given value. -/
theorem binaryOrder_eq {num den : ℕ} {k : ℤ} (hDen : 0 < den)
    (hk : (2 : ℚ) ^ k ≤ num / den ∧ (num : ℚ) / den < (2 : ℚ) ^ (k + 1)) :
    binaryOrder num den = k := by
  have hNum : 0 < num := by
    refine Nat.pos_of_ne_zero fun hZero => ?_
    have hPower : (0 : ℚ) < 2 ^ k := by positivity
    rw [hZero, Nat.cast_zero, zero_div] at hk
    exact absurd hk.1 (not_le.mpr hPower)
  exact order_unique (binaryOrder_bounds hNum hDen) hk

/-! ### The nearest number -/

namespace BinaryFormat

/-- Two writings of one value are rounded to the same number. -/
theorem nearest_congr (f : BinaryFormat) {num den num' den' : ℕ} (hDen : 0 < den)
    (hDen' : 0 < den') (h : (num : ℚ) / den = num' / den') :
    f.nearest num den = f.nearest num' den' := by
  have hCross := mul_eq_mul_of_div_eq hDen hDen' h
  have hZero : num = 0 ↔ num' = 0 := by
    constructor
    · rintro rfl
      simpa [hDen.ne'] using hCross.symm
    · rintro rfl
      simpa [hDen'.ne'] using hCross
  by_cases hNum : num = 0
  · rw [nearest, nearest, if_pos hNum, if_pos (hZero.mp hNum)]
  have hOrder : binaryOrder num den = binaryOrder num' den' := by
    refine binaryOrder_eq hDen ?_
    rw [h]
    exact binaryOrder_bounds (Nat.pos_of_ne_zero fun hOther => hNum (hZero.mpr hOther)) hDen'
  have hUnit : f.unitExponent num den = f.unitExponent num' den' := by
    rw [unitExponent, unitExponent, hOrder]
  rw [nearest, nearest, if_neg hNum, if_neg fun hOther => hNum (hZero.mpr hOther)]
  dsimp only
  rw [hUnit, roundHalfEven_congr (inUnits_pos hDen _) (inUnits_pos hDen' _) (inUnits_congr h _)]

/-- A magnitude that the format has: a normal significand, or a smaller one at the
least exponent. -/
structure Holds (f : BinaryFormat) (d : Dyadic) : Prop where
  small : d.significand < 2 ^ f.precision
  above : f.least ≤ d.exponent
  normal : d.exponent = f.least ∨ 2 ^ (f.precision - 1) ≤ d.significand

theorem binaryOrder_of_value {m num den : ℕ} {e : ℤ} (hm : 0 < m) (hDen : 0 < den)
    (h : (num : ℚ) / den = m * (2 : ℚ) ^ e) : binaryOrder num den = m.log2 + e := by
  have hPower : (0 : ℚ) < 2 ^ e := by positivity
  have hLow : (2 : ℚ) ^ (m.log2 : ℤ) ≤ m := by exact_mod_cast Nat.log2_self_le hm.ne'
  have hHigh : (m : ℚ) < (2 : ℚ) ^ ((m.log2 : ℤ) + 1) := by exact_mod_cast Nat.lt_log2_self
  refine binaryOrder_eq hDen ?_
  rw [h, add_right_comm, zpow_add₀ (by norm_num), zpow_add₀ (by norm_num)]
  exact ⟨by gcongr, by gcongr⟩

/-- A magnitude of the format is rounded in its own units. -/
theorem unitExponent_of_holds (f : BinaryFormat) {m num den : ℕ} {e : ℤ} (hm : 0 < m)
    (hHolds : f.Holds ⟨m, e⟩) (hDen : 0 < den) (h : (num : ℚ) / den = m * (2 : ℚ) ^ e) :
    f.unitExponent num den = e := by
  obtain ⟨hSmall, hAbove, hNormal⟩ := hHolds
  dsimp only at hSmall hAbove hNormal
  have hLog : m.log2 < f.precision := (Nat.log2_lt hm.ne').mpr hSmall
  rw [unitExponent, binaryOrder_of_value hm hDen h]
  obtain rfl | hNormal := hNormal
  · omega
  · have hOrder : f.precision - 1 ≤ m.log2 := (Nat.le_log2 hm.ne').mpr hNormal
    omega

/-- A magnitude of the format is its own nearest number. -/
theorem nearest_of_holds (f : BinaryFormat) {d : Dyadic} {num den : ℕ} (hHolds : f.Holds d)
    (hDen : 0 < den) (h : (num : ℚ) / den = d.value) :
    f.nearest num den = min f.infinity (f.ordinal d) := by
  obtain ⟨m, e⟩ := d
  have hPower : (0 : ℚ) < 2 ^ e := by positivity
  have hDenPos : (0 : ℚ) < den := by exact_mod_cast hDen
  obtain rfl | hm := Nat.eq_zero_or_pos m
  · have hNum : num = 0 := by simpa [Dyadic.value, hDenPos.ne'] using h
    have hExponent : e = f.least := by simpa using hHolds.normal
    simp [nearest, hNum, ordinal, hExponent]
  · have hNum : num ≠ 0 := by
      rintro rfl
      have hPositive : (0 : ℚ) < m * 2 ^ e := by positivity
      rw [Nat.cast_zero, zero_div] at h
      exact hPositive.ne h
    have hUnits : ((inUnits num den e).1 : ℚ) / (inUnits num den e).2 = (m * 1 : ℕ) / (1 : ℕ) := by
      rw [inUnits_value, h, Dyadic.value, mul_div_cancel_right₀ _ hPower.ne']
      simp
    rw [nearest, if_neg hNum]
    dsimp only
    rw [unitExponent_of_holds f hm hHolds hDen h,
      roundHalfEven_congr (inUnits_pos hDen e) Nat.one_pos hUnits,
      roundHalfEven_of_dvd m Nat.one_pos]

/-! ### Ordinals -/

theorem ordinal_magnitude (f : BinaryFormat) (ordinal : ℕ) :
    f.ordinal (f.magnitude ordinal) = ordinal := by
  have hHalf : 0 < 2 ^ (f.precision - 1) := Nat.pow_pos (by decide)
  unfold magnitude
  simp only [Nat.pow_eq]
  split
  · simp [BinaryFormat.ordinal]
  · rename_i hNormal
    have hQuotient : 1 ≤ ordinal / 2 ^ (f.precision - 1) :=
      (Nat.one_le_div_iff hHalf).mpr (not_lt.mp hNormal)
    simp only [BinaryFormat.ordinal, Nat.pow_eq, add_sub_cancel_left, Int.toNat_natCast]
    rw [← Nat.add_assoc, ← Nat.succ_mul, Nat.succ_eq_add_one, Nat.sub_add_cancel hQuotient]
    exact Nat.div_add_mod' _ _

theorem holds_magnitude (f : BinaryFormat) (hPrecision : 0 < f.precision) (ordinal : ℕ) :
    f.Holds (f.magnitude ordinal) := by
  have hHalf : 0 < 2 ^ (f.precision - 1) := Nat.pow_pos (by decide)
  have hWhole : 2 ^ f.precision = 2 ^ (f.precision - 1) + 2 ^ (f.precision - 1) := by
    rw [← Nat.two_mul, ← Nat.pow_succ', Nat.succ_eq_add_one, Nat.sub_add_cancel hPrecision]
  unfold magnitude
  simp only [Nat.pow_eq]
  split
  · rename_i hSmall
    exact ⟨by dsimp only; omega, le_refl _, .inl rfl⟩
  · have hRest := Nat.mod_lt ordinal hHalf
    exact ⟨by dsimp only; omega, by dsimp only; omega, .inr (by dsimp only; omega)⟩

/-- Every finite number is the nearest one to its own value. -/
theorem nearest_of_value (f : BinaryFormat) (hPrecision : 0 < f.precision) {ordinal num den : ℕ}
    (hFinite : ordinal < f.infinity) (hDen : 0 < den)
    (h : (num : ℚ) / den = (f.magnitude ordinal).value) : f.nearest num den = ordinal := by
  rw [f.nearest_of_holds (f.holds_magnitude hPrecision ordinal) hDen h, f.ordinal_magnitude]
  exact min_eq_right hFinite.le

end BinaryFormat

end PathTracer.Decimal
