import PathTracer.Decimal.Scaling
import PathTracer.Proofs.Decimal.Middles
import PathTracer.Proofs.Decimal.Shortest

/-! Reading by scaling. The digits of a literal are held exactly, so that the power of ten and
the product or quotient with it are all that is rounded, and nothing is where both are exact. -/
namespace PathTracer.Decimal

/-! ### Numbers of binary64 -/

theorem double_precision : 0 < double.precision := by decide

/-- The greatest number of binary64 is far above what is computed here. -/
theorem double_finite {num den : ℕ} (hDen : 0 < den) (h : (num : ℚ) / den ≤ 2 ^ 255) :
    double.nearest num den < double.infinity := by
  have hGreatest : double.magnitude (double.infinity - 1) = ⟨2 ^ 53 - 1, 971⟩ := by decide
  have hMiddle : (2 : ℚ) ^ 255 < double.middle (double.infinity - 1) := by
    unfold BinaryFormat.middle BinaryFormat.value BinaryFormat.unit
    rw [hGreatest, Dyadic.value]
    have hPower : (2 : ℚ) ^ 255 ≤ 2 ^ (971 : ℤ) := by
      rw [← zpow_natCast]
      exact zpow_le_zpow_right₀ one_le_two (by decide)
    generalize (2 : ℚ) ^ (971 : ℤ) = unit at hPower ⊢
    push_cast
    linarith [show (0 : ℚ) < 2 ^ 255 by positivity]
  have hNearest := double.nearest_le double_precision hDen (h.trans_lt hMiddle)
  have hInfinity : 0 < double.infinity := by decide
  omega

/-- The relative error of one rounding. -/
theorem double_error {num den : ℕ} (hDen : 0 < den) (hLow : (2 : ℚ) ^ (-255 : ℤ) ≤ num / den)
    (hHigh : (num : ℚ) / den ≤ 2 ^ 255) :
    |double.value (double.nearest num den) - num / den| ≤ num / den / 2 ^ 53 := by
  refine double.abs_value_nearest_sub_le double_precision hDen (double_finite hDen hHigh) ?_
  refine le_trans (zpow_le_zpow_right₀ one_le_two ?_) hLow
  decide

/-- What binary64 has is not rounded. -/
theorem double_exact {num den m : ℕ} {k : ℤ} (hDen : 0 < den) (hHigh : (num : ℚ) / den ≤ 2 ^ 255)
    (hSmall : m < 2 ^ 53) (hLeast : -1074 ≤ k) (h : (num : ℚ) / den = m * 2 ^ k) :
    double.value (double.nearest num den) = num / den :=
  double.value_nearest_of_exact double_precision hDen (double_finite hDen hHigh) hSmall hLeast h

theorem value_coefficient {n : ℕ} (h : n < 2 ^ 53) : double.value (double.nearest n 1) = n := by
  have hHigh : ((n : ℕ) : ℚ) / (1 : ℕ) ≤ 2 ^ 255 := by
    rw [Nat.cast_one, div_one]
    exact_mod_cast h.le.trans (Nat.pow_le_pow_right (by decide) (by decide))
  rw [double_exact Nat.one_pos hHigh h (k := 0) (by decide) (by simp)]
  simp

/-- Powers of ten are as near as one rounding leaves them. -/
theorem powerOfTen_error {k : ℕ} (h : k ≤ 60) :
    |double.value (double.powerOfTen k) - 10 ^ k| ≤ 10 ^ k / 2 ^ 53 := by
  have hRatio : ((Nat.pow 10 k : ℕ) : ℚ) / (1 : ℕ) = 10 ^ k := by simp
  have hOne : (1 : ℚ) ≤ 10 ^ k := one_le_pow₀ (by norm_num)
  have hMost : (10 : ℚ) ^ k ≤ 10 ^ 60 := pow_le_pow_right₀ (by norm_num) h
  have hError : |double.value (double.powerOfTen k) - (Nat.pow 10 k : ℕ) / (1 : ℕ)| ≤
      (Nat.pow 10 k : ℕ) / (1 : ℕ) / 2 ^ 53 := by
    refine double_error Nat.one_pos ?_ ?_
    · rw [hRatio]
      exact le_trans (by norm_num) hOne
    · rw [hRatio]
      exact hMost.trans (by norm_num)
  rwa [hRatio] at hError

/-- The powers of ten that binary64 has. -/
theorem value_powerOfTen {k : ℕ} (h : k ≤ 22) : double.value (double.powerOfTen k) = 10 ^ k := by
  have hRatio : ((Nat.pow 10 k : ℕ) : ℚ) / (1 : ℕ) = 10 ^ k := by simp
  have hMost : (10 : ℚ) ^ k ≤ 10 ^ 22 := pow_le_pow_right₀ (by norm_num) h
  have hSmall : 5 ^ k < 2 ^ 53 :=
    (Nat.pow_le_pow_right (by decide) h).trans_lt (by decide)
  have hExact : double.value (double.powerOfTen k) = (Nat.pow 10 k : ℕ) / (1 : ℕ) := by
    refine double_exact (k := k) Nat.one_pos ?_ hSmall (by omega) ?_
    · rw [hRatio]
      exact hMost.trans (by norm_num)
    · rw [hRatio, zpow_natCast]
      push_cast
      rw [← mul_pow]
      norm_num
  rwa [hRatio] at hExact

/-- A rounded product. -/
theorem exists_multiply (a b : ℕ) : ∃ num den : ℕ, 0 < den ∧
    double.multiply a b = double.nearest num den ∧
      (num : ℚ) / den = double.value a * double.value b := by
  refine ⟨_, _, Nat.mul_pos (Dyadic.ratio_pos _) (Dyadic.ratio_pos _), rfl, ?_⟩
  rw [Nat.cast_mul, Nat.cast_mul, mul_div_mul_comm]
  exact congrArg₂ (· * ·) (Dyadic.ratio_value _) (Dyadic.ratio_value _)

/-- A rounded quotient. -/
theorem exists_divide (a : ℕ) {b : ℕ} (hb : double.value b ≠ 0) : ∃ num den : ℕ, 0 < den ∧
    double.divide a b = double.nearest num den ∧
      (num : ℚ) / den = double.value a / double.value b := by
  have hPos : 0 < (double.magnitude b).ratio.1 := by
    refine Nat.pos_of_ne_zero fun hZero => hb ?_
    rw [BinaryFormat.value, ← Dyadic.ratio_value, hZero, Nat.cast_zero, zero_div]
  refine ⟨_, _, Nat.mul_pos (Dyadic.ratio_pos _) hPos, rfl, ?_⟩
  rw [Nat.cast_mul, Nat.cast_mul, mul_div_mul_comm, div_eq_mul_inv (double.value a)]
  refine congrArg₂ (· * ·) (Dyadic.ratio_value _) ?_
  rw [BinaryFormat.value, ← Dyadic.ratio_value, inv_div]
  rfl

/-! ### The number that a literal is scaled to -/

namespace Literal

/-- The exact product or quotient that scaling rounds. -/
def scaledRatio (d : Literal) : ℚ :=
  match d.exponent with
  | .ofNat e => d.digits * double.value (double.powerOfTen e)
  | .negSucc e => d.digits / double.value (double.powerOfTen (e + 1))

/-- The number of binary64 that one product or quotient gives. -/
def wide (d : Literal) : ℕ :=
  match d.exponent with
  | .ofNat e => double.multiply (double.nearest d.digits 1) (double.powerOfTen e)
  | .negSucc e => double.divide (double.nearest d.digits 1) (double.powerOfTen (e + 1))

/-- Literals whose digits are held exactly, with powers of ten far inside the range. -/
structure Moderate (d : Literal) : Prop where
  pos : 0 < d.digits
  small : d.digits < 2 ^ 53
  low : -60 ≤ d.exponent
  high : d.exponent ≤ 60

variable {d : Literal}

theorem powerOfTen_pos {k : ℕ} (h : k ≤ 60) : 0 < double.value (double.powerOfTen k) := by
  have hPower : (0 : ℚ) < 10 ^ k := by positivity
  have hError := (abs_le.mp (powerOfTen_error h)).1
  have hSmall : (10 : ℚ) ^ k / 2 ^ 53 < 10 ^ k := div_lt_self hPower (by norm_num)
  linarith

/-- How scaling rounds: one product or quotient of the digits with a power of ten. -/
theorem exists_wide (h : d.Moderate) : ∃ num den : ℕ, 0 < den ∧
    d.wide = double.nearest num den ∧ (num : ℚ) / den = d.scaledRatio := by
  have hDigits := value_coefficient h.small
  obtain ⟨n, e⟩ := d
  cases e with
  | ofNat e =>
      obtain ⟨num, den, hDen, hWide, hRatio⟩ :=
        exists_multiply (double.nearest n 1) (double.powerOfTen e)
      exact ⟨num, den, hDen, hWide, by rw [hRatio, hDigits]; rfl⟩
  | negSucc e =>
      have hPlaces : e + 1 ≤ 60 := by
        have hLow := h.low
        dsimp only at hLow
        omega
      obtain ⟨num, den, hDen, hWide, hRatio⟩ :=
        exists_divide (double.nearest n 1) (powerOfTen_pos hPlaces).ne'
      exact ⟨num, den, hDen, hWide, by rw [hRatio, hDigits]; rfl⟩

theorem exists_places (e : ℤ) : (∃ k : ℕ, e = k) ∨ ∃ k : ℕ, e = -(k + 1 : ℕ) := by
  cases e with
  | ofNat e => exact .inl ⟨e, rfl⟩
  | negSucc e => exact .inr ⟨e, rfl⟩

theorem scaledRatio_ofNat (n e : ℕ) :
    scaledRatio ⟨n, e⟩ = n * double.value (double.powerOfTen e) := rfl

theorem scaledRatio_neg (n e : ℕ) :
    scaledRatio ⟨n, -(e + 1 : ℕ)⟩ = n / double.value (double.powerOfTen (e + 1)) := rfl

/-- The value is rounded once, with the power of ten. -/
theorem abs_scaledRatio_sub_le (h : d.Moderate) :
    |d.scaledRatio - d.value| ≤ d.value * (9 / 2 ^ 56) := by
  obtain ⟨n, e⟩ := d
  obtain ⟨hPos, -, hLow, hHigh⟩ := h
  dsimp only at hPos hLow hHigh
  replace hPos : (0 : ℚ) < n := by exact_mod_cast hPos
  obtain ⟨e, rfl⟩ | ⟨e, rfl⟩ := exists_places e
  · have hPower : (0 : ℚ) < 10 ^ e := by positivity
    have hError := powerOfTen_error (k := e) (by omega)
    calc |scaledRatio ⟨n, e⟩ - value ⟨n, e⟩|
        = n * |double.value (double.powerOfTen e) - 10 ^ e| := by
          rw [scaledRatio_ofNat, value, zpow_natCast, ← mul_sub, abs_mul, abs_of_pos hPos]
      _ ≤ n * (10 ^ e / 2 ^ 53) := by gcongr
      _ ≤ n * 10 ^ e * (9 / 2 ^ 56) := by
          rw [mul_div_assoc', div_eq_mul_inv]
          gcongr
          norm_num
      _ = value ⟨n, e⟩ * (9 / 2 ^ 56) := by rw [value, zpow_natCast]
  · have hPower : (0 : ℚ) < 10 ^ (e + 1) := by positivity
    have hPlaces : e + 1 ≤ 60 := by omega
    have hRounded := powerOfTen_pos hPlaces
    have hError := powerOfTen_error hPlaces
    have hMost : 10 ^ (e + 1) / 2 ^ 53 ≤ double.value (double.powerOfTen (e + 1)) * (9 / 2 ^ 56) := by
      have hNear := (abs_le.mp hError).1
      linarith
    have hValue : value ⟨n, -(e + 1 : ℕ)⟩ = n / 10 ^ (e + 1) := by
      rw [value, zpow_neg, zpow_natCast, div_eq_mul_inv]
    calc |scaledRatio ⟨n, -(e + 1 : ℕ)⟩ - value ⟨n, -(e + 1 : ℕ)⟩|
        = n / 10 ^ (e + 1) * (|double.value (double.powerOfTen (e + 1)) - 10 ^ (e + 1)| /
            double.value (double.powerOfTen (e + 1))) := by
          rw [scaledRatio_neg, hValue, div_sub_div _ _ hRounded.ne' hPower.ne', abs_div,
            abs_of_pos (mul_pos hRounded hPower), mul_comm (double.value _) (n : ℚ), ← mul_sub,
            abs_mul, abs_of_pos hPos, abs_sub_comm]
          field_simp
      _ ≤ n / 10 ^ (e + 1) * (9 / 2 ^ 56) := by
          refine mul_le_mul_of_nonneg_left ?_ (by positivity)
          rw [div_le_iff₀ hRounded, mul_comm]
          exact hError.trans hMost
      _ = value ⟨n, -(e + 1 : ℕ)⟩ * (9 / 2 ^ 56) := by rw [hValue]

theorem Moderate.value_bounds (h : d.Moderate) :
    (2 : ℚ) ^ (-200 : ℤ) ≤ d.value ∧ d.value ≤ 2 ^ 253 := by
  have hOne : (1 : ℚ) ≤ d.digits := by exact_mod_cast h.pos
  have hMost : (d.digits : ℚ) ≤ 2 ^ 53 := by exact_mod_cast h.small.le
  have hLow : (10 : ℚ) ^ (-60 : ℤ) ≤ 10 ^ d.exponent := zpow_le_zpow_right₀ (by norm_num) h.low
  have hHigh : (10 : ℚ) ^ d.exponent ≤ 10 ^ (60 : ℤ) := zpow_le_zpow_right₀ (by norm_num) h.high
  have hPower : (0 : ℚ) < 10 ^ d.exponent := by positivity
  unfold value
  constructor
  · calc (2 : ℚ) ^ (-200 : ℤ) ≤ 1 * 10 ^ (-60 : ℤ) := by norm_num
      _ ≤ d.digits * 10 ^ d.exponent := by gcongr
  · calc d.digits * (10 : ℚ) ^ d.exponent ≤ 2 ^ 53 * 10 ^ (60 : ℤ) := by gcongr
      _ ≤ 2 ^ 253 := by norm_num

theorem Moderate.scaledRatio_bounds (h : d.Moderate) :
    (2 : ℚ) ^ (-255 : ℤ) ≤ d.scaledRatio ∧ d.scaledRatio ≤ 2 ^ 255 := by
  obtain ⟨hLow, hHigh⟩ := h.value_bounds
  obtain ⟨hBelow, hAbove⟩ := abs_le.mp (abs_scaledRatio_sub_le h)
  have hPos : (0 : ℚ) < d.value := lt_of_lt_of_le (by positivity) hLow
  constructor
  · calc (2 : ℚ) ^ (-255 : ℤ) ≤ 2 ^ (-200 : ℤ) / 2 := by norm_num
      _ ≤ d.value / 2 := by gcongr
      _ ≤ d.scaledRatio := by linarith
  · calc d.scaledRatio ≤ 2 * d.value := by linarith
      _ ≤ 2 * 2 ^ 253 := by gcongr
      _ ≤ 2 ^ 255 := by norm_num

/-- Scaling rounds at most twice. -/
theorem abs_value_wide_sub_le (h : d.Moderate) :
    |double.value d.wide - d.value| ≤ d.value * (9 / 2 ^ 55) := by
  obtain ⟨num, den, hDen, hWide, hRatio⟩ := exists_wide h
  obtain ⟨hLow, hHigh⟩ := h.scaledRatio_bounds
  have hFirst := abs_scaledRatio_sub_le h
  have hSecond := double_error hDen (by rwa [hRatio]) (by rwa [hRatio])
  have hPos : (0 : ℚ) < d.value := lt_of_lt_of_le (by positivity) h.value_bounds.1
  rw [← hWide, hRatio] at hSecond
  calc |double.value d.wide - d.value|
      ≤ |double.value d.wide - d.scaledRatio| + |d.scaledRatio - d.value| := abs_sub_le _ _ _
    _ ≤ d.scaledRatio / 2 ^ 53 + d.value * (9 / 2 ^ 56) := add_le_add hSecond hFirst
    _ ≤ d.value * (9 / 2 ^ 55) := by
        have hMost := (abs_le.mp hFirst).2
        linarith

/-- Nothing is rounded where binary64 has the power of ten and the value. -/
theorem value_wide (h : d.Moderate) (hLow : -22 ≤ d.exponent) (hHigh : d.exponent ≤ 22) {m : ℕ}
    {k : ℤ} (hSmall : m < 2 ^ 53) (hLeast : -1074 ≤ k) (hValue : d.value = m * 2 ^ k) :
    double.value d.wide = d.value := by
  have hScaled : d.scaledRatio = d.value := by
    obtain ⟨n, e⟩ := d
    dsimp only at hLow hHigh
    obtain ⟨e, rfl⟩ | ⟨e, rfl⟩ := exists_places e
    · rw [scaledRatio_ofNat, value_powerOfTen (by omega), value, zpow_natCast]
    · rw [scaledRatio_neg, value_powerOfTen (by omega), value, zpow_neg, zpow_natCast,
        div_eq_mul_inv]
  obtain ⟨num, den, hDen, hWide, hRatio⟩ := exists_wide h
  have hExact := double_exact hDen (by rw [hRatio]; exact h.scaledRatio_bounds.2) hSmall hLeast
    (by rw [hRatio, hScaled, hValue])
  rwa [← hWide, hRatio, hScaled] at hExact

/-- Scaling neither leaves the range nor takes more than one step. -/
theorem scaled?_eq (h : d.Moderate) : d.scaled? = some d.wide := by
  have hSome : double.nearest d.digits 1 ≠ 0 := by
    intro hZero
    have hDigits := value_coefficient h.small
    rw [hZero] at hDigits
    have hPos : (0 : ℚ) < d.digits := by exact_mod_cast h.pos
    exact hPos.ne (hDigits.symm.trans (by simp [BinaryFormat.value, BinaryFormat.magnitude,
      Dyadic.value])).symm
  have hFinite : d.wide ≠ double.infinity := by
    obtain ⟨num, den, hDen, hWide, hRatio⟩ := exists_wide h
    rw [hWide]
    exact (double_finite hDen (by rw [hRatio]; exact h.scaledRatio_bounds.2)).ne
  obtain ⟨n, e⟩ := d
  obtain ⟨-, -, hLow, hHigh⟩ := h
  dsimp only at hLow hHigh hSome
  obtain ⟨e, rfl⟩ | ⟨e, rfl⟩ := exists_places e
  · have hPlaces : ¬greatestPower < e := by
      rw [greatestPower]
      omega
    change multiplyByTens? (double.nearest n 1) e = _
    rw [multiplyByTens?, if_neg hSome, if_neg hPlaces]
    exact if_neg hFinite
  · have hPlaces : e + 1 ≤ greatestPower := by
      rw [greatestPower]
      omega
    change some (divideByTens (double.nearest n 1) (e + 1)) = _
    rw [divideByTens, if_neg hSome, if_pos hPlaces]
    rfl

end Literal

/-- The number of binary32 nearest to one of binary64. -/
def narrow (ordinal : ℕ) : ℕ :=
  single.nearest (double.magnitude ordinal).ratio.1 (double.magnitude ordinal).ratio.2

theorem Literal.throughDouble?_eq {d : Literal} (h : d.Moderate) (negative : Bool) :
    d.throughDouble? negative = some (ofOrdinal negative (narrow d.wide)) := by
  rw [throughDouble?, scaled?_eq h]
  rfl

/-- Zero is read as zero. -/
theorem Literal.throughDouble?_zero (negative : Bool) (e : ℤ) :
    throughDouble? negative ⟨0, e⟩ = some (ofOrdinal negative 0) := by
  have hScaled : scaled? ⟨0, e⟩ = some 0 := by
    cases e with
    | ofNat e => rfl
    | negSucc e =>
        change some (divideByTens 0 (e + 1)) = some 0
        rw [divideByTens, if_pos rfl]
  rw [throughDouble?, hScaled]
  rfl

end PathTracer.Decimal
