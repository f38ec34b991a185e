import PathTracer.Proofs.Binary32.Held
import PathTracer.Proofs.Binary32.Results

/-! Whole parts and fractions of positive numbers. Both are exact: the whole part is the greatest
natural number that is not above, and what is left of a number without it needs no more places. -/
namespace PathTracer.Binary32

open Float.Model (UnpackedFloat)
open Float.Model.UnpackedFloat (Sign roundToInt shiftToExponent decreaseExponent)

variable {x : Float32} {m : Nat} {e : Int}

/-! ### Magnitudes of few places -/

/-- What has at most twenty-four places is a number. -/
theorem exists_rounded_of_lt (hFits : m < 2 ^ 24) (hLeast : -149 ≤ e) :
    ∃ v, Rounded v ∧ valueOf v = m * 2 ^ e := by
  obtain rfl | hPos := Nat.eq_zero_or_pos m
  · exact ⟨.zero .positive, trivial, by rw [valueOf_zero, Nat.cast_zero, zero_mul]⟩
  · have hBits : m.log2 < 24 := (Nat.log2_lt hPos.ne').mpr hFits
    have hLow : 2 ^ m.log2 ≤ m := Nat.log2_self_le hPos.ne'
    have hHigh : m < 2 ^ (m.log2 + 1) := Nat.lt_log2_self
    obtain ⟨j, hj⟩ : ∃ j, j = min (23 - m.log2) (e + 149).toNat := ⟨_, rfl⟩
    have hCanonical : Canonical (m * 2 ^ j) (e - j) := by
      refine ⟨Nat.mul_pos hPos (Nat.two_pow_pos j), ?_, by omega, ?_⟩
      · calc m * 2 ^ j
          _ < 2 ^ (m.log2 + 1) * 2 ^ j := Nat.mul_lt_mul_of_pos_right hHigh (Nat.two_pow_pos j)
          _ = 2 ^ (m.log2 + 1 + j) := (pow_add _ _ _).symm
          _ ≤ 2 ^ 24 := Nat.pow_le_pow_right (by decide) (by omega)
      · by_cases hAll : j = 23 - m.log2
        · left
          calc 2 ^ 23
            _ = 2 ^ m.log2 * 2 ^ j := by rw [← pow_add, hAll, Nat.add_sub_cancel' (by omega)]
            _ ≤ m * 2 ^ j := Nat.mul_le_mul_right _ hLow
        · right
          omega
    refine ⟨.finite .positive (m * 2 ^ j) (e - j) hCanonical.pos, hCanonical, ?_⟩
    rw [valueOf_finite hCanonical.least, zpow_sub₀ two_ne_zero, zpow_natCast]
    simp only [Sign.apply, Int.cast_one, one_mul]
    push_cast
    field_simp

/-- A result whose exact value is that of a number is not rounded. -/
theorem Rounds.value_eq {y : ℝ} {r v : UnpackedFloat} (h : Rounds y r)
    (hUnpack : x.toModel.unpack = kept r) (hLess : |y| < overflow) (hv : Rounded v)
    (hSame : valueOf v = y) : x.isFinite = true ∧ value x = y := by
  refine ⟨(h.approximates hUnpack hLess).isFinite, ?_⟩
  rw [value, hUnpack, h.kept_eq hLess]
  rw [← hSame] at h ⊢
  exact le_antisymm (h.upper v hv le_rfl) (h.lower v hv le_rfl)

/-! ### Whole parts -/

/-- A positive finite number in memory. -/
theorem exists_positive (hPos : 0.0 < x) (hFinite : x.isFinite = true) :
    ∃ m e, ∃ h : Canonical m e, x.toModel.unpack = .finite .positive m e h.pos ∧
      value x = m * 2 ^ e := by
  have hReach := pos_iff_reaches.mp hPos
  change x.toModel.unpack.isFinite = true at hFinite
  unfold value
  rcases hUnpack : x.toModel.unpack with _ | _ | s | ⟨s, m, e, hm⟩
  · rw [hUnpack] at hFinite
    cases hFinite
  · rw [hUnpack] at hReach
    cases hReach
  · rw [hUnpack] at hReach
    cases hReach
  · rw [hUnpack] at hReach
    obtain rfl : s = .positive := hReach.1
    obtain ⟨hCanonical, -⟩ := canonical_of_unpack hUnpack
    refine ⟨m, e, hCanonical, rfl, ?_⟩
    rw [valueOf_finite hCanonical.least]
    simp [Sign.apply]

/-- What is read as a whole number is cut off. -/
theorem roundToInt_positive (m : Nat) (e : Int) :
    roundToInt .positive m e = ⌊(m : ℝ) * 2 ^ e⌋₊ := by
  have hCut : roundToInt .positive m e = (m * 2 ^ e.toNat / 2 ^ (-e).toNat : Nat) := by
    have hAmount : (0 - (e - e.toNat)).toNat = (-e).toNat := by omega
    unfold roundToInt decreaseExponent shiftToExponent
    simp only [mantissa_shiftRight, mantissa_ofMantissaAndAccuracy, Nat.shiftLeft_eq, Int.sub_zero,
      Sign.apply, hAmount]
  rw [hCut, Nat.cast_inj]
  obtain ⟨k, rfl | rfl⟩ := e.eq_nat_or_neg
  · rw [Int.toNat_natCast, Int.toNat_neg_natCast, pow_zero, Nat.div_one]
    exact_mod_cast (Nat.floor_natCast (R := ℝ) (m * 2 ^ k)).symm
  · rw [neg_neg, Int.toNat_natCast, Int.toNat_neg_natCast, pow_zero, mul_one, zpow_neg,
      zpow_natCast, ← div_eq_mul_inv]
    exact_mod_cast (Nat.floor_div_eq_div (K := ℝ) m (2 ^ k)).symm

section Positive

variable (hPos : 0.0 < x) (hFinite : x.isFinite = true)

include hPos hFinite

theorem toUInt32_positive : x.toUInt32.toNat = min ⌊value x⌋₊ (2 ^ 32 - 1) := by
  obtain ⟨m, e, hForm, hUnpack, hValue⟩ := exists_positive hPos hFinite
  have hRead : x.toModel.unpack.toInt 0 (UInt32.size - 1) = ⌊value x⌋₊ := by
    rw [hUnpack, hValue]
    exact roundToInt_positive m e
  have hSize : UInt32.size = 2 ^ 32 := rfl
  show (UInt32.ofNatClamp (x.toModel.unpack.toInt 0 (UInt32.size - 1)).toNat).toNat = _
  rw [hRead, Int.toNat_natCast, UInt32.ofNatClamp]
  split <;> rw [UInt32.toNat_ofNatLT] <;> omega

theorem toInt32_positive : toInt32 x = (min ⌊value x⌋₊ (2 ^ 31 - 1) : Nat) := by
  have hSide : ¬x < 0.0 := fun hBelow => lt_irrefl _ (lt_trans hPos hBelow)
  rw [toInt32, if_neg hSide, toUInt32_positive hPos hFinite]
  omega

theorem value_pos : 0 < value x := by
  rwa [value_lt_iff (by decide) hFinite, value_zero] at hPos

theorem abs_of_positive : x.abs = x := by
  refine eq_of_beq_of_pos ?_ hPos
  rw [value_eq_iff ((isFinite_abs x).trans hFinite) hFinite, value_abs,
    abs_of_pos (value_pos hPos hFinite)]

theorem abs_lt_wholeFrom_iff : x.abs < wholeFrom ↔ value x < 2 ^ 23 := by
  have hWhole : value wholeFrom = 2 ^ 23 := by
    rw [value_of_place (e := 0) (m := 2 ^ 23) rfl (by decide)]
    norm_num
  rw [abs_of_positive hPos hFinite, value_lt_iff hFinite (by decide), hWhole]

theorem floor_of_small (h : value x < 2 ^ 23) : floor x = .ofNat ⌊value x⌋₊ := by
  have hWhole : ⌊value x⌋₊ < 2 ^ 23 := by
    rw [Nat.floor_lt (value_pos hPos hFinite).le]
    exact_mod_cast h
  have hRead : x.toUInt32.toNat = ⌊value x⌋₊ := by
    rw [toUInt32_positive hPos hFinite]
    omega
  unfold floor wholePart
  rw [if_pos ((abs_lt_wholeFrom_iff hPos hFinite).mpr h), signBit_of_pos hPos,
    if_neg Bool.false_ne_true, abs_of_positive hPos hFinite, toFloat32_toUInt32, hRead,
    ofNat_eq_packedWhole hWhole]

theorem floor_of_great (h : ¬value x < 2 ^ 23) : floor x = x :=
  if_neg (mt (abs_lt_wholeFrom_iff hPos hFinite).mp h)

/-- The floor of a finite number that is not negative is the greatest whole number up to it,
without rounding. -/
theorem value_floor : (floor x).isFinite = true ∧ value (floor x) = ⌊value x⌋₊ := by
  by_cases hSmall : value x < 2 ^ 23
  · have hWhole : ⌊value x⌋₊ < 2 ^ 24 := by
      rw [Nat.floor_lt (value_pos hPos hFinite).le]
      exact hSmall.trans (by norm_num)
    rw [floor_of_small hPos hFinite hSmall]
    exact ⟨isFinite_ofNat hWhole, value_ofNat hWhole⟩
  · obtain ⟨m, e, hForm, hUnpack, hValue⟩ := exists_positive hPos hFinite
    have hGreat : 2 ^ 23 ≤ valueOf (.finite .positive m e hForm.pos) := by
      rw [← hUnpack]
      exact not_lt.mp hSmall
    obtain ⟨k, rfl⟩ := Int.eq_ofNat_of_zero_le (whole_of_great hForm hGreat).2
    rw [floor_of_great hPos hFinite hSmall, hValue]
    refine ⟨hFinite, ?_⟩
    have hNat : (m : ℝ) * 2 ^ (k : Int) = (m * 2 ^ k : Nat) := by
      push_cast
      rw [zpow_natCast]
    rw [hNat, Nat.floor_natCast]

/-- The fraction of a number has no more places than the number. -/
theorem exists_fract : ∃ v, Rounded v ∧ valueOf v = Int.fract (value x) := by
  obtain ⟨m, e, hForm, -, hValue⟩ := exists_positive hPos hFinite
  have hLeast := hForm.least
  rw [hValue]
  obtain ⟨k, rfl | rfl⟩ := e.eq_nat_or_neg
  · refine ⟨.zero .positive, trivial, ?_⟩
    rw [valueOf_zero]
    exact_mod_cast (Int.fract_natCast (R := ℝ) (m * 2 ^ k)).symm
  · obtain ⟨v, hv, hSame⟩ := exists_rounded_of_lt
      ((Nat.mod_le m (2 ^ k)).trans_lt hForm.fits) hLeast
    refine ⟨v, hv, ?_⟩
    rw [hSame, zpow_neg, zpow_natCast, ← div_eq_mul_inv, ← div_eq_mul_inv]
    exact_mod_cast (Int.fract_div_natCast_eq_div_natCast_mod (k := ℝ) (m := m) (n := 2 ^ k)).symm

/-- The fraction of a number is exact. -/
theorem value_sub_floor :
    (x - floor x).isFinite = true ∧ value (x - floor x) = Int.fract (value x) := by
  obtain ⟨hFloor, hWhole⟩ := value_floor hPos hFinite
  obtain ⟨v, hv, hSame⟩ := exists_fract hPos hFinite
  have hFract : value x - value (floor x) = Int.fract (value x) := by
    rw [hWhole, natCast_floor_eq_intCast_floor (value_pos hPos hFinite).le, Int.self_sub_floor]
  have hRounds := Rounds.sub (rounded_unpack x) (rounded_unpack (floor x)) hFinite hFloor
  change Rounds (value x - value (floor x)) _ at hRounds
  rw [hFract] at hRounds
  refine hRounds.value_eq (unpack_sub _ _) ?_ hv hSame
  rw [abs_of_nonneg (Int.fract_nonneg _)]
  exact lt_overflow ((Int.fract_lt_one _).le.trans (by norm_num))

theorem toInt32_floor : toInt32 (floor x) = (min ⌊value x⌋₊ (2 ^ 31 - 1) : Nat) := by
  by_cases hSmall : value x < 2 ^ 23
  · have hWhole : ⌊value x⌋₊ < 2 ^ 23 := by
      rw [Nat.floor_lt (value_pos hPos hFinite).le]
      exact_mod_cast hSmall
    rw [floor_of_small hPos hFinite hSmall, ofNat_eq_packedWhole hWhole, toInt32,
      if_neg (not_packedWhole_lt_zero (by omega)), toUInt32_packedWhole (by omega)]
    omega
  · rw [floor_of_great hPos hFinite hSmall, toInt32_positive hPos hFinite]

end Positive

end PathTracer.Binary32
