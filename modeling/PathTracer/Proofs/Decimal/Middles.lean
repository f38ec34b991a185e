import PathTracer.Proofs.Decimal.Rounding

/-! The middles between the numbers of a binary format. A ratio is rounded to a
number exactly if it lies between the two middles around it, and no ratio is
moved further than half a unit. -/
namespace PathTracer.Decimal

/-! ### Rounding to whole numbers -/

/-- A ratio is its whole part and the rest. -/
theorem div_eq_whole_add_rest (n : ℕ) {d : ℕ} (hd : 0 < d) :
    (n : ℚ) / d = (n / d : ℕ) + (n % d : ℕ) / d := by
  have hDen : (d : ℚ) ≠ 0 := by exact_mod_cast hd.ne'
  rw [div_eq_iff hDen, add_mul, div_mul_cancel₀ _ hDen, mul_comm]
  exact_mod_cast (Nat.div_add_mod n d).symm

theorem div_le_half {r d : ℕ} (hd : 0 < d) (h : 2 * r ≤ d) : (r : ℚ) / d ≤ 1 / 2 := by
  rw [div_le_div_iff₀ (by exact_mod_cast hd) two_pos]
  exact_mod_cast (by omega : r * 2 ≤ 1 * d)

theorem half_le_div {r d : ℕ} (hd : 0 < d) (h : d ≤ 2 * r) : 1 / 2 ≤ (r : ℚ) / d := by
  rw [div_le_div_iff₀ two_pos (by exact_mod_cast hd)]
  exact_mod_cast (by omega : 1 * d ≤ r * 2)

/-- Either whole number next to a ratio is taken only if it is not the farther one. -/
theorem abs_roundHalfEven_sub_le (n : ℕ) {d : ℕ} (hd : 0 < d) :
    |(roundHalfEven n d : ℚ) - n / d| ≤ 1 / 2 := by
  have hDen : (0 : ℚ) < d := by exact_mod_cast hd
  have hRest : (0 : ℚ) ≤ (n % d : ℕ) / d := by positivity
  have hLess : ((n % d : ℕ) : ℚ) / d < 1 := by
    rw [div_lt_one hDen]
    exact_mod_cast Nat.mod_lt n hd
  have hTaken : roundHalfEven n d = n / d ∧ 2 * (n % d) ≤ d ∨
      roundHalfEven n d = n / d + 1 ∧ d ≤ 2 * (n % d) := by
    unfold roundHalfEven
    dsimp only
    split
    · omega
    · split <;> omega
  rw [div_eq_whole_add_rest n hd, abs_le]
  obtain ⟨hBelow, hHalf⟩ | ⟨hAbove, hHalf⟩ := hTaken
  · have hPart := div_le_half hd hHalf
    rw [hBelow]
    constructor <;> linarith
  · have hPart := half_le_div hd hHalf
    rw [hAbove]
    push_cast
    constructor <;> linarith

namespace BinaryFormat

variable (f : BinaryFormat)

/-- The unit of a number: how far the next one is. -/
def unit (ordinal : ℕ) : ℚ :=
  (2 : ℚ) ^ (f.magnitude ordinal).exponent

theorem unit_pos (ordinal : ℕ) : 0 < f.unit ordinal := by
  unfold unit
  positivity

/-- The exact value of a number. -/
def value (ordinal : ℕ) : ℚ :=
  (f.magnitude ordinal).value

theorem value_nonneg (ordinal : ℕ) : 0 ≤ f.value ordinal := by
  rw [value, Dyadic.value]
  positivity

/-- The middle between a number and the next one. -/
def middle (ordinal : ℕ) : ℚ :=
  f.value ordinal + f.unit ordinal / 2

/-! ### Magnitudes of an ordinal -/

/-- A magnitude of the format is that of its ordinal. -/
theorem magnitude_ordinal {d : Dyadic} (hPrecision : 0 < f.precision) (h : f.Holds d) :
    f.magnitude (f.ordinal d) = d := by
  obtain ⟨m, e⟩ := d
  obtain ⟨hSmall, hAbove, hNormal⟩ := h
  dsimp only at hSmall hAbove hNormal
  have hHalf : 0 < 2 ^ (f.precision - 1) := Nat.pow_pos (by decide)
  have hWhole := Nat.two_pow_pred_add_two_pow_pred hPrecision
  obtain ⟨k, rfl⟩ : ∃ k : ℕ, e = f.least + k := ⟨(e - f.least).toNat, by omega⟩
  unfold magnitude BinaryFormat.ordinal
  simp only [Nat.pow_eq, add_sub_cancel_left, Int.toNat_natCast]
  split
  · rename_i hLess
    have hZero : k = 0 := by
      by_contra hSome
      have hMore := Nat.mul_le_mul_right (2 ^ (f.precision - 1)) (Nat.one_le_iff_ne_zero.mpr hSome)
      omega
    simp [hZero]
  · rename_i hMore
    have hHigh : 2 ^ (f.precision - 1) ≤ m := by
      obtain hLeast | hHigh := hNormal
      · have hZero : k = 0 := by omega
        simpa [hZero] using hMore
      · exact hHigh
    obtain ⟨r, rfl⟩ := Nat.exists_eq_add_of_le hHigh
    have hRest : r < 2 ^ (f.precision - 1) := by omega
    have hSum : k * 2 ^ (f.precision - 1) + (2 ^ (f.precision - 1) + r) =
        r + 2 ^ (f.precision - 1) * (k + 1) := by ring
    rw [hSum, Nat.add_mul_mod_self_left, Nat.add_mul_div_left _ _ hHalf, Nat.mod_eq_of_lt hRest,
      Nat.div_eq_of_lt hRest]
    simp

/-- Where the significand has grown to the next power of two, the next units begin. -/
theorem magnitude_full (hPrecision : 0 < f.precision) {e : ℤ} (hAbove : f.least ≤ e) :
    f.magnitude (f.ordinal ⟨2 ^ f.precision, e⟩) = ⟨2 ^ (f.precision - 1), e + 1⟩ := by
  have hWhole := Nat.two_pow_pred_add_two_pow_pred hPrecision
  have hHalf : 0 < 2 ^ (f.precision - 1) := Nat.pow_pos (by decide)
  have hNext : f.ordinal ⟨2 ^ f.precision, e⟩ = f.ordinal ⟨2 ^ (f.precision - 1), e + 1⟩ := by
    have hStep : (e + 1 - f.least).toNat = (e - f.least).toNat + 1 := by omega
    simp only [BinaryFormat.ordinal, Nat.pow_eq, hStep]
    rw [← hWhole]
    ring
  rw [hNext]
  exact f.magnitude_ordinal hPrecision
    ⟨by dsimp only; omega, by dsimp only; omega, .inr le_rfl⟩

/-- The value of an ordinal is that of the magnitude it was made of, also if the significand
has grown to the next power of two. -/
theorem value_ordinal {m : ℕ} {e : ℤ} (hPrecision : 0 < f.precision) (hAbove : f.least ≤ e)
    (hSmall : m ≤ 2 ^ f.precision) (hNormal : e = f.least ∨ 2 ^ (f.precision - 1) ≤ m) :
    f.value (f.ordinal ⟨m, e⟩) = m * (2 : ℚ) ^ e := by
  obtain hLess | rfl := hSmall.lt_or_eq
  · rw [value, f.magnitude_ordinal hPrecision ⟨hLess, hAbove, hNormal⟩, Dyadic.value]
  · rw [value, f.magnitude_full hPrecision hAbove, Dyadic.value, zpow_add_one₀ two_ne_zero,
      ← Nat.two_pow_pred_mul_two hPrecision]
    push_cast
    ring

/-- The next number is one unit further. -/
theorem value_succ (hPrecision : 0 < f.precision) (ordinal : ℕ) :
    f.value (ordinal + 1) = f.value ordinal + f.unit ordinal := by
  obtain ⟨hSmall, hAbove, hNormal⟩ := f.holds_magnitude hPrecision ordinal
  have hSame := f.ordinal_magnitude ordinal
  obtain ⟨m, e, hParts⟩ : ∃ m e, f.magnitude ordinal = ⟨m, e⟩ := ⟨_, _, rfl⟩
  rw [hParts] at hSmall hAbove hNormal hSame
  dsimp only at hSmall hAbove hNormal
  have hNext : f.ordinal ⟨m + 1, e⟩ = ordinal + 1 := by
    rw [← hSame]
    rfl
  rw [← hNext, f.value_ordinal hPrecision hAbove hSmall (hNormal.imp id fun h => by omega), value,
    unit, hParts, Dyadic.value]
  push_cast
  ring

/-- The unit of the next number is the same, or twice as much where the significands start
again. -/
theorem unit_succ (hPrecision : 0 < f.precision) (ordinal : ℕ) :
    f.unit (ordinal + 1) = f.unit ordinal ∨ f.unit (ordinal + 1) = 2 * f.unit ordinal ∧
      f.value (ordinal + 1) = 2 ^ f.precision * f.unit ordinal := by
  have hNext := f.value_succ hPrecision ordinal
  obtain ⟨hSmall, hAbove, hNormal⟩ := f.holds_magnitude hPrecision ordinal
  have hSame := f.ordinal_magnitude ordinal
  obtain ⟨m, e, hParts⟩ : ∃ m e, f.magnitude ordinal = ⟨m, e⟩ := ⟨_, _, rfl⟩
  rw [hParts] at hSmall hAbove hNormal hSame
  dsimp only at hSmall hAbove hNormal
  have hOrdinal : f.ordinal ⟨m + 1, e⟩ = ordinal + 1 := by
    rw [← hSame]
    rfl
  obtain hLess | hFull := Nat.lt_or_eq_of_le (Nat.succ_le_of_lt hSmall)
  · have hMore : f.magnitude (ordinal + 1) = ⟨m + 1, e⟩ := by
      rw [← hOrdinal]
      exact f.magnitude_ordinal hPrecision
        ⟨hLess, hAbove, hNormal.imp id fun h => by dsimp only; omega⟩
    left
    rw [unit, unit, hMore, hParts]
  · have hMore : f.magnitude (ordinal + 1) = ⟨2 ^ (f.precision - 1), e + 1⟩ := by
      rw [← hOrdinal, show m + 1 = 2 ^ f.precision from hFull]
      exact f.magnitude_full hPrecision hAbove
    right
    refine ⟨by rw [unit, unit, hMore, hParts, zpow_add_one₀ two_ne_zero, mul_comm], ?_⟩
    have hPower : ((m : ℚ) + 1) = 2 ^ f.precision := by exact_mod_cast hFull
    rw [hNext, value, unit, hParts, Dyadic.value, ← hPower]
    ring

/-! ### Rounding by the middles -/

/-- A ratio rounded in its own units. -/
structure InUnits (num den r : ℕ) : Prop where
  nearest : f.nearest num den = min f.infinity (f.ordinal ⟨r, f.unitExponent num den⟩)
  error : |(r : ℚ) - num / den / 2 ^ f.unitExponent num den| ≤ 1 / 2
  value : f.value (f.ordinal ⟨r, f.unitExponent num den⟩) = r * (2 : ℚ) ^ f.unitExponent num den
  small : r ≤ 2 ^ f.precision
  normal : f.unitExponent num den = f.least ∨ 2 ^ (f.precision - 1) ≤ r

/-- The error in the units of the format. -/
theorem InUnits.scaled_error {f : BinaryFormat} {num den r : ℕ} (h : f.InUnits num den r) :
    (num : ℚ) / den ≤ r * (2 : ℚ) ^ f.unitExponent num den + 2 ^ f.unitExponent num den / 2 ∧
      r * (2 : ℚ) ^ f.unitExponent num den - 2 ^ f.unitExponent num den / 2 ≤ num / den := by
  have hPower : (0 : ℚ) < 2 ^ f.unitExponent num den := by positivity
  obtain ⟨hLow, hHigh⟩ := abs_le.mp h.error
  have hRatio : (num : ℚ) / den =
      num / den / 2 ^ f.unitExponent num den * 2 ^ f.unitExponent num den := by field_simp
  constructor
  · rw [hRatio]
    nlinarith
  · nlinarith

theorem least_le_unitExponent (num den : ℕ) : f.least ≤ f.unitExponent num den :=
  le_max_left _ _

/-- A ratio is less than the power of two that is no significand any more. -/
theorem div_unit_lt (hPrecision : 0 < f.precision) {num den : ℕ} (hNum : 0 < num)
    (hDen : 0 < den) : (num : ℚ) / den / 2 ^ f.unitExponent num den < 2 ^ f.precision := by
  have hOrder : binaryOrder num den + 1 ≤ f.precision + f.unitExponent num den := by
    unfold unitExponent
    omega
  rw [div_lt_iff₀ (by positivity), ← zpow_natCast, ← zpow_add₀ two_ne_zero]
  exact (binaryOrder_bounds hNum hDen).2.trans_le (zpow_le_zpow_right₀ one_le_two hOrder)

/-- Above the least units a ratio is at least the least normal significand. -/
theorem le_div_unit {num den : ℕ} (hNum : 0 < num) (hDen : 0 < den) :
    f.unitExponent num den = f.least ∨
      (2 : ℚ) ^ (f.precision - 1) ≤ num / den / 2 ^ f.unitExponent num den := by
  by_cases hLeast : f.unitExponent num den = f.least
  · exact .inl hLeast
  · right
    have hOrder : ((f.precision - 1 : ℕ) : ℤ) + f.unitExponent num den = binaryOrder num den := by
      unfold unitExponent at hLeast ⊢
      omega
    rw [le_div_iff₀ (by positivity), ← zpow_natCast, ← zpow_add₀ two_ne_zero, hOrder]
    exact (binaryOrder_bounds hNum hDen).1

/-- Every ratio is some number of units of a format, with a remainder that tells how to
round. -/
theorem exists_inUnits (hPrecision : 0 < f.precision) {num den : ℕ} (hNum : 0 < num)
    (hDen : 0 < den) : ∃ r, f.InUnits num den r := by
  obtain ⟨n, d, hUnits⟩ : ∃ n d, inUnits num den (f.unitExponent num den) = (n, d) := ⟨_, _, rfl⟩
  have hPos : 0 < (inUnits num den (f.unitExponent num den)).2 := inUnits_pos hDen _
  have hRatio := inUnits_value num den (f.unitExponent num den)
  rw [hUnits] at hPos hRatio
  have hError := abs_roundHalfEven_sub_le n hPos
  rw [hRatio] at hError
  have hAbs := abs_le.mp hError
  have hLess := f.div_unit_lt hPrecision hNum hDen
  have hSmall : roundHalfEven n d ≤ 2 ^ f.precision := by
    have hBelow : (roundHalfEven n d : ℚ) < (2 ^ f.precision : ℕ) + 1 := by
      push_cast
      linarith
    exact Nat.lt_succ_iff.mp (by exact_mod_cast hBelow)
  have hNormal : f.unitExponent num den = f.least ∨ 2 ^ (f.precision - 1) ≤ roundHalfEven n d := by
    refine (f.le_div_unit hNum hDen).imp id fun hMore => ?_
    have hAbove : ((2 ^ (f.precision - 1) : ℕ) : ℚ) < (roundHalfEven n d : ℚ) + 1 := by
      push_cast
      linarith
    exact Nat.lt_succ_iff.mp (by exact_mod_cast hAbove)
  refine ⟨roundHalfEven n d, ?_, hError, ?_, hSmall, hNormal⟩
  · rw [nearest, if_neg hNum.ne']
    simp only [hUnits]
  · exact f.value_ordinal hPrecision (f.least_le_unitExponent num den) hSmall hNormal

theorem strictMono_value (hPrecision : 0 < f.precision) : StrictMono f.value :=
  strictMono_nat_of_lt_succ fun ordinal => by
    rw [f.value_succ hPrecision]
    exact lt_add_of_pos_right _ (f.unit_pos ordinal)

/-- A number has less units than make a significand. -/
theorem value_add_unit_le (hPrecision : 0 < f.precision) (ordinal : ℕ) :
    f.value ordinal + f.unit ordinal ≤ 2 ^ f.precision * f.unit ordinal := by
  have hSmall := (f.holds_magnitude hPrecision ordinal).small
  have hMost : ((f.magnitude ordinal).significand : ℚ) + 1 ≤ 2 ^ f.precision := by
    exact_mod_cast hSmall
  calc f.value ordinal + f.unit ordinal
      = ((f.magnitude ordinal).significand + 1) * f.unit ordinal := by
        rw [value, Dyadic.value, unit]
        ring
    _ ≤ 2 ^ f.precision * f.unit ordinal :=
        mul_le_mul_of_nonneg_right hMost (f.unit_pos ordinal).le

/-- Where a ratio has greater units than a number, it is greater than that number, and is
rounded to a greater one. -/
theorem units_of_unit_lt (hPrecision : 0 < f.precision) {num den r ordinal : ℕ} (hNum : 0 < num)
    (hDen : 0 < den) (hRound : f.InUnits num den r)
    (h : f.unit ordinal < (2 : ℚ) ^ f.unitExponent num den) :
    f.value ordinal + f.unit ordinal ≤ num / den ∧
      f.value ordinal < r * (2 : ℚ) ^ f.unitExponent num den := by
  have hUnit := f.unit_pos ordinal
  have hBelow := f.value_add_unit_le hPrecision ordinal
  have hExponent : (f.magnitude ordinal).exponent < f.unitExponent num den :=
    (zpow_lt_zpow_iff_right₀ one_lt_two).mp h
  have hLeast : f.unitExponent num den ≠ f.least := by
    have hAbove := (f.holds_magnitude hPrecision ordinal).above
    omega
  have hTwice : 2 * f.unit ordinal ≤ (2 : ℚ) ^ f.unitExponent num den := by
    rw [unit, mul_comm, ← zpow_add_one₀ two_ne_zero]
    exact zpow_le_zpow_right₀ one_le_two (by omega)
  have hWhole : 2 ^ f.precision * f.unit ordinal ≤
      2 ^ (f.precision - 1) * (2 : ℚ) ^ f.unitExponent num den := by
    calc 2 ^ f.precision * f.unit ordinal = 2 ^ (f.precision - 1) * (2 * f.unit ordinal) := by
          rw [← mul_assoc, ← pow_succ, Nat.sub_add_cancel hPrecision]
      _ ≤ _ := by gcongr
  constructor
  · have hMore := (f.le_div_unit hNum hDen).resolve_left hLeast
    rw [le_div_iff₀ (by positivity)] at hMore
    linarith
  · have hMore : (2 : ℚ) ^ (f.precision - 1) ≤ r := by
      exact_mod_cast hRound.normal.resolve_left hLeast
    have hScaled : 2 ^ (f.precision - 1) * (2 : ℚ) ^ f.unitExponent num den ≤
        r * (2 : ℚ) ^ f.unitExponent num den := by gcongr
    linarith

/-- Before the middle after a number, nothing is rounded beyond that number. -/
theorem nearest_le (hPrecision : 0 < f.precision) {num den ordinal : ℕ} (hDen : 0 < den)
    (h : (num : ℚ) / den < f.middle ordinal) : f.nearest num den ≤ ordinal := by
  obtain rfl | hNum := Nat.eq_zero_or_pos num
  · simp [nearest]
  obtain ⟨r, hRound⟩ := f.exists_inUnits hPrecision hNum hDen
  refine hRound.nearest.le.trans ((min_le_right _ _).trans ?_)
  by_contra hBeyond
  have hUnit := f.unit_pos ordinal
  have hPower : (0 : ℚ) < 2 ^ f.unitExponent num den := by positivity
  have hNext := (f.strictMono_value hPrecision).monotone (Nat.succ_le_of_lt (not_le.mp hBeyond))
  rw [Nat.succ_eq_add_one, f.value_succ hPrecision, hRound.value] at hNext
  unfold middle at h
  by_cases hGreater : f.unit ordinal < (2 : ℚ) ^ f.unitExponent num den
  · have hMore := (f.units_of_unit_lt hPrecision hNum hDen hRound hGreater).1
    linarith
  · have hError := hRound.scaled_error.2
    linarith

/-- Beyond the middle after a number, everything is rounded beyond that number. -/
theorem lt_nearest (hPrecision : 0 < f.precision) {num den ordinal : ℕ}
    (hFinite : ordinal < f.infinity) (hDen : 0 < den) (h : f.middle ordinal < (num : ℚ) / den) :
    ordinal < f.nearest num den := by
  have hUnit := f.unit_pos ordinal
  have hValue := f.value_nonneg ordinal
  have hNum : 0 < num := by
    refine Nat.pos_of_ne_zero fun hZero => ?_
    rw [hZero, Nat.cast_zero, zero_div, middle] at h
    linarith
  obtain ⟨r, hRound⟩ := f.exists_inUnits hPrecision hNum hDen
  rw [hRound.nearest]
  refine lt_min hFinite ((f.strictMono_value hPrecision).lt_iff_lt.mp ?_)
  rw [hRound.value]
  unfold middle at h
  by_cases hGreater : f.unit ordinal < (2 : ℚ) ^ f.unitExponent num den
  · exact (f.units_of_unit_lt hPrecision hNum hDen hRound hGreater).2
  · have hError := hRound.scaled_error.1
    linarith

/-- What is rounded to a number lies between the middles around it. -/
theorem middles_of_nearest (hPrecision : 0 < f.precision) {num den ordinal : ℕ}
    (hFinite : ordinal + 1 < f.infinity) (hDen : 0 < den)
    (h : f.nearest num den = ordinal + 1) :
    f.middle ordinal ≤ num / den ∧ (num : ℚ) / den ≤ f.middle (ordinal + 1) := by
  refine ⟨not_lt.mp fun hLess => ?_, not_lt.mp fun hMore => ?_⟩
  · have hSmall := f.nearest_le hPrecision hDen hLess
    omega
  · have hGreat := f.lt_nearest hPrecision hFinite hDen hMore
    omega

/-- What lies between the middles around a number is rounded to it. -/
theorem nearest_of_middles (hPrecision : 0 < f.precision) {num den ordinal : ℕ}
    (hFinite : ordinal < f.infinity) (hDen : 0 < den)
    (hLow : f.middle ordinal < num / den) (hHigh : (num : ℚ) / den < f.middle (ordinal + 1)) :
    f.nearest num den = ordinal + 1 := by
  have hGreat := f.lt_nearest hPrecision hFinite hDen hLow
  have hSmall := f.nearest_le hPrecision hDen hHigh
  omega

/-! ### How far a ratio is moved -/

theorem value_nearest (hPrecision : 0 < f.precision) {num den : ℕ} (hNum : 0 < num)
    (hDen : 0 < den) (hFinite : f.nearest num den < f.infinity) :
    ∃ r, f.InUnits num den r ∧
      f.value (f.nearest num den) = r * (2 : ℚ) ^ f.unitExponent num den := by
  obtain ⟨r, hRound⟩ := f.exists_inUnits hPrecision hNum hDen
  refine ⟨r, hRound, ?_⟩
  have hNearest := hRound.nearest
  rw [hNearest, min_eq_right (by omega), hRound.value]

/-- A ratio in the normal range is moved by at most a half of its last place. For smaller
ratios the last place does not shrink any more, and the bound is an absolute one. -/
theorem abs_value_nearest_sub_le (hPrecision : 0 < f.precision) {num den : ℕ}
    (hDen : 0 < den) (hFinite : f.nearest num den < f.infinity)
    (hNormal : (2 : ℚ) ^ (f.least + (f.precision - 1 : ℕ)) ≤ num / den) :
    |f.value (f.nearest num den) - num / den| ≤ num / den / 2 ^ f.precision := by
  have hNum : 0 < num := by
    refine Nat.pos_of_ne_zero fun hZero => ?_
    have hPower : (0 : ℚ) < 2 ^ (f.least + (f.precision - 1 : ℕ)) := by positivity
    rw [hZero, Nat.cast_zero, zero_div] at hNormal
    linarith
  obtain ⟨r, hRound, hValue⟩ := f.value_nearest hPrecision hNum hDen hFinite
  have hScaled : 2 ^ (f.precision - 1) * (2 : ℚ) ^ f.unitExponent num den ≤ num / den := by
    obtain hLeast | hMore := f.le_div_unit hNum hDen
    · rwa [hLeast, ← zpow_natCast, ← zpow_add₀ two_ne_zero, add_comm]
    · rwa [le_div_iff₀ (by positivity)] at hMore
  have hHalf : (2 : ℚ) ^ f.unitExponent num den / 2 ≤ num / den / 2 ^ f.precision := by
    rw [le_div_iff₀ (by positivity)]
    calc (2 : ℚ) ^ f.unitExponent num den / 2 * 2 ^ f.precision
        = 2 ^ (f.precision - 1) * (2 : ℚ) ^ f.unitExponent num den := by
          rw [← Nat.sub_add_cancel hPrecision, pow_succ, Nat.add_sub_cancel]
          ring
      _ ≤ num / den := hScaled
  obtain ⟨hLow, hHigh⟩ := hRound.scaled_error
  rw [hValue, abs_le]
  constructor <;> linarith

/-- A ratio that the format has is not moved. -/
theorem value_nearest_of_exact (hPrecision : 0 < f.precision) {num den m : ℕ} {k : ℤ}
    (hDen : 0 < den) (hFinite : f.nearest num den < f.infinity) (hSmall : m < 2 ^ f.precision)
    (hLeast : f.least ≤ k) (h : (num : ℚ) / den = m * 2 ^ k) :
    f.value (f.nearest num den) = num / den := by
  have hDenPos : (0 : ℚ) < den := by exact_mod_cast hDen
  obtain rfl | hNum := Nat.eq_zero_or_pos num
  · simp [nearest, value, Dyadic.value, magnitude]
  have hPos : 0 < m := by
    refine Nat.pos_of_ne_zero fun hZero => ?_
    rw [hZero, Nat.cast_zero, zero_mul, div_eq_zero_iff] at h
    obtain h | h := h
    · exact hNum.ne' (by exact_mod_cast h)
    · exact hDenPos.ne' h
  obtain ⟨r, hRound, hValue⟩ := f.value_nearest hPrecision hNum hDen hFinite
  have hUnit : f.unitExponent num den ≤ k := by
    have hLog := (Nat.log2_lt hPos.ne').mpr hSmall
    have hOrder := binaryOrder_of_value hPos hDen h
    unfold unitExponent
    omega
  obtain ⟨j, hPlaces⟩ := Int.le.dest hUnit
  have hWhole : (num : ℚ) / den / 2 ^ f.unitExponent num den = (m * 2 ^ j : ℕ) := by
    rw [h, ← hPlaces, zpow_add₀ two_ne_zero, zpow_natCast]
    push_cast
    field_simp
  have hError := hRound.error
  rw [hWhole] at hError
  have hSame : r = m * 2 ^ j := by
    have hLess : |((r : ℤ) - (m * 2 ^ j : ℕ) : ℤ)| < 1 := by
      have hCast : (|((r : ℤ) - (m * 2 ^ j : ℕ) : ℤ)| : ℚ) < 1 := by
        push_cast at hError ⊢
        linarith
      exact_mod_cast hCast
    rw [Int.abs_lt_one_iff] at hLess
    omega
  rw [hValue, hSame, ← hWhole]
  field_simp

end BinaryFormat

end PathTracer.Decimal
