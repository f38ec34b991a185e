import PathTracer.Proofs.Binary32.Difference

/-! Finite numbers as real numbers. What is cut from an exact result is told by its
accuracy, so that a rounded result is within half a unit of its last place. -/
namespace PathTracer.Binary32

open Float.Model (Format UnpackedFloat totalExponent)
open Float.Model.UnpackedFloat (Sign Accuracy ExtendedMantissa shiftToTargetExponent
  shiftToExponent roundWithAccuracy decreaseExponent)

/-! ### Values -/

/-- The real number that a finite number stands for. -/
noncomputable def valueOf (x : UnpackedFloat) : ℝ :=
  units x / 2 ^ 149

/-- The real number in memory. -/
noncomputable def value (x : Float32) : ℝ :=
  valueOf x.toModel.unpack

/-- The greatest number and half a unit of its last place. Results from here on are infinite. -/
noncomputable def overflow : ℝ :=
  2 ^ 128 - 2 ^ 103

theorem cast_apply (s : Sign) (n : Int) : ((s.apply n : Int) : ℝ) = s.apply 1 * n := by
  cases s with
  | negative => simp [Sign.apply]
  | positive => simp [Sign.apply]

/-- A multiple of a power of two in units of the least magnitude. -/
theorem scaled_div {e : Int} (h : -149 ≤ e) (m : Nat) :
    ((m * 2 ^ (e + 149).toNat : Nat) : ℝ) / 2 ^ 149 = m * 2 ^ e := by
  have hShift : ((e + 149).toNat : Int) = e + 149 := by omega
  have hPow : (2 : ℝ) ^ (e + 149).toNat = 2 ^ e * 2 ^ 149 := by
    rw [← zpow_natCast, hShift, zpow_add₀ two_ne_zero]
    norm_num
  push_cast
  rw [hPow]
  field_simp

theorem valueOf_finite {s : Sign} {m : Nat} {e : Int} {hPos : 0 < m} (h : -149 ≤ e) :
    valueOf (.finite s m e hPos) = s.apply 1 * (m * 2 ^ e) := by
  rw [valueOf, units, cast_apply, Int.cast_natCast, mul_div_assoc, scaled_div h]

theorem valueOf_zero (s : Sign) : valueOf (.zero s) = 0 := by
  simp [valueOf, units]

theorem value_lt_iff {a b : Float32} (ha : a.isFinite = true) (hb : b.isFinite = true) :
    a < b ↔ value a < value b := by
  rw [lt_iff_units ha hb, value, value, valueOf, valueOf, div_lt_div_iff_of_pos_right (by positivity),
    Int.cast_lt]

theorem value_eq_iff {a b : Float32} (ha : a.isFinite = true) (hb : b.isFinite = true) :
    (a == b) = true ↔ value a = value b := by
  rw [beq_iff_units ha hb, value, value, valueOf, valueOf, div_left_inj' (by positivity),
    Int.cast_inj]

theorem value_le_iff {a b : Float32} (ha : a.isFinite = true) (hb : b.isFinite = true) :
    a ≤ b ↔ value a ≤ value b := by
  have hPlaces : a ≤ b ↔ ¬b < a := by
    obtain ⟨p, q, hp, hq, -⟩ := exists_places ha hb
    rw [le_iff_place, lt_iff_place, hp, hq]
    simp
  rw [hPlaces, value_lt_iff hb ha, not_lt]

/-- The value of a positive number by its place. -/
theorem value_of_place {x : Float32} {e m : Int} (h : place? x = some (toLex (1, toLex (e, m))))
    (hLeast : -149 ≤ e) : value x = m * 2 ^ e := by
  have hShift : ((1 * e + 149).toNat : Int) = e + 149 := by omega
  rw [value, valueOf, units_eq_of_place h]
  push_cast
  rw [← zpow_natCast, hShift, zpow_add₀ two_ne_zero]
  norm_num
  field_simp

theorem value_zero : value 0.0 = 0 :=
  valueOf_zero .positive

theorem value_one : value 1.0 = 1 := by
  rw [value_of_place (e := -23) (m := 2 ^ 23) rfl (by decide)]
  norm_num

/-- What is between finite numbers is finite. -/
theorem isFinite_of_le {a b x : Float32} (ha : a.isFinite = true) (hb : b.isFinite = true)
    (hLow : a ≤ x) (hHigh : x ≤ b) : x.isFinite = true := by
  obtain ⟨p, q, hp, hq, hLess⟩ := le_iff_place.mp hLow
  obtain ⟨q', r, hq', hr, hMore⟩ := le_iff_place.mp hHigh
  obtain rfl := Option.some.inj (hq.symm.trans hq')
  change a.toModel.unpack.isFinite = true at ha
  change b.toModel.unpack.isFinite = true at hb
  change x.toModel.unpack.isFinite = true
  unfold place? at *
  generalize a.toModel.unpack = u at *
  generalize b.toModel.unpack = v at *
  generalize x.toModel.unpack = w at *
  rcases w with (_ | _) | _ | _ | _
  · obtain rfl := Option.some.inj hq
    rcases u with _ | _ | _ | ⟨_ | _, _, _, _⟩ <;> simp_all [UnpackedFloat.isFinite, placeOf]
    all_goals
      subst hp
      simp [Prod.Lex.toLex_le_toLex] at hLess
  · obtain rfl := Option.some.inj hq
    rcases v with _ | _ | _ | ⟨_ | _, _, _, _⟩ <;> simp_all [UnpackedFloat.isFinite, placeOf]
    all_goals
      subst hr
      simp [Prod.Lex.toLex_le_toLex] at hMore
  · cases hq
  · rfl
  · rfl

/-! ### What is cut off -/

/-- What an accuracy says of the number that a mantissa was cut from. -/
def Measures (m : Nat) (x : ℝ) : Accuracy → Prop
  | .exact => x = m
  | .inexact .lt => m < x ∧ x < m + 1 / 2
  | .inexact .eq => x = m + 1 / 2
  | .inexact .gt => m + 1 / 2 < x ∧ x < m + 1

variable {m : Nat} {x : ℝ} {accuracy : Accuracy}

theorem Measures.floor_le (h : Measures m x accuracy) : m ≤ x := by
  rcases accuracy with _ | _ | _ | _ <;> simp only [Measures] at h <;> linarith

theorem Measures.rounded (h : Measures m x accuracy) :
    |(accuracy.roundToNearestEven m : ℝ) - x| ≤ 1 / 2 := by
  have hOdd : m % 2 = 0 ∨ m % 2 = 1 := Nat.mod_two_eq_zero_or_one m
  rw [abs_le]
  rcases accuracy with _ | _ | _ | _ <;> simp only [Measures] at h <;>
    simp only [Accuracy.roundToNearestEven]
  · constructor <;> linarith
  · constructor <;> linarith
  · rcases hOdd with hOdd | hOdd <;> rw [hOdd] <;> push_cast <;> constructor <;> linarith
  · push_cast
    constructor <;> linarith

/-- Shifting a significand down by one digit keeps the remark on what was cut off right. -/
theorem measures_shiftRightOne {em : ExtendedMantissa}
    (h : Measures em.mantissa x em.accuracy) :
    Measures em.shiftRightOne.mantissa (x / 2) em.shiftRightOne.accuracy := by
  obtain ⟨m, round, sticky⟩ := em
  obtain ⟨k, rfl | rfl⟩ := m.even_or_odd'
  · have hHalf : 2 * k / 2 = k := by omega
    have hEven : (2 * k % 2 != 0) = false := by
      rw [Nat.mul_mod_right]
      rfl
    rcases round with _ | _ <;> rcases sticky with _ | _
    all_goals
      simp only [ExtendedMantissa.accuracy, Measures] at h
      simp only [ExtendedMantissa.shiftRightOne, hHalf, hEven, Bool.or_false, Bool.or_true,
        Bool.or_self, ExtendedMantissa.accuracy, Measures]
      push_cast at h
      first | linarith | (constructor <;> linarith)
  · have hHalf : (2 * k + 1) / 2 = k := by omega
    have hOdd : ((2 * k + 1) % 2 != 0) = true := by
      rw [Nat.mul_add_mod]
      rfl
    rcases round with _ | _ <;> rcases sticky with _ | _
    all_goals
      simp only [ExtendedMantissa.accuracy, Measures] at h
      simp only [ExtendedMantissa.shiftRightOne, hHalf, hOdd, Bool.or_false, Bool.or_true,
        Bool.or_self, ExtendedMantissa.accuracy, Measures]
      push_cast at h
      first | linarith | (constructor <;> linarith)

theorem measures_shiftRight {em : ExtendedMantissa} (h : Measures em.mantissa x em.accuracy)
    (k : Nat) : Measures (em >>> k).mantissa (x / 2 ^ k) (em >>> k).accuracy := by
  show Measures (Nat.repeat ExtendedMantissa.shiftRightOne k em).mantissa _ _
  induction k with
  | zero => rwa [pow_zero, div_one]
  | succ k ih =>
      rw [Nat.repeat, pow_succ, ← div_div]
      exact measures_shiftRightOne ih

theorem measures_ofMantissaAndAccuracy (h : Measures m x accuracy) :
    Measures (ExtendedMantissa.ofMantissaAndAccuracy m accuracy).mantissa x
      (ExtendedMantissa.ofMantissaAndAccuracy m accuracy).accuracy := by
  rcases accuracy with _ | _ | _ | _ <;> exact h

/-! ### Rounding -/

variable {e : Int}

/-- The exponent of a result, at which nothing of a magnitude from the least on is lost. -/
theorem targetExponent_le {k : Int} (hLeast : -125 ≤ k) (hShift : e ≤
    Format.binary32.targetExponent (totalExponent m e)) (h : (m : ℝ) * 2 ^ e < 2 ^ k) :
    Format.binary32.targetExponent (totalExponent m e) ≤ k - 24 := by
  rw [targetExponent_eq] at *
  obtain rfl | hPos := Nat.eq_zero_or_pos m
  · have hLog : totalExponent 0 e = e + 1 := by
      rw [totalExponent]
      norm_num
      ring
    omega
  · have hLow : (2 : ℝ) ^ m.log2 ≤ m := by exact_mod_cast Nat.log2_self_le hPos.ne'
    have hTop : (2 : ℝ) ^ (m.log2 + e : Int) < 2 ^ k := by
      rw [zpow_add₀ two_ne_zero, zpow_natCast]
      exact (mul_le_mul_of_nonneg_right hLow (by positivity)).trans_lt h
    have hLess := (zpow_lt_zpow_iff_right₀ one_lt_two).mp hTop
    unfold totalExponent
    omega

/-- A result is the nearest multiple of the unit that its exponent stands for. The unit is
fixed by the magnitude before rounding. A carry may lead to the next one, which this says
nothing of. -/
theorem exists_rounded (hShift : e ≤ Format.binary32.targetExponent (totalExponent m e))
    (s : Sign) (accuracy : Accuracy) :
    ∃ n : Nat, Rounded (roundWithAccuracy .binary32 s m e accuracy) ∧
      valueOf (roundWithAccuracy .binary32 s m e accuracy) =
        s.apply 1 * (n * 2 ^ Format.binary32.targetExponent (totalExponent m e)) ∧
      ∀ x, Measures m x accuracy →
        |(n : ℝ) * 2 ^ Format.binary32.targetExponent (totalExponent m e) - x * 2 ^ e| ≤
          2 ^ (Format.binary32.targetExponent (totalExponent m e) - 1) := by
  have hBits := truncated_lt m e
  have hFull := truncated_full hShift
  have hLeast : -149 ≤ Format.binary32.targetExponent (totalExponent m e) := le_max_right _ _
  obtain ⟨em, hFirst, hCut, hMantissa⟩ := exists_shift hShift accuracy
  have hRounded := roundedMantissa_cases em
  rw [hMantissa] at hRounded
  generalize Format.binary32.targetExponent (totalExponent m e) = target at *
  refine ⟨em.roundedMantissa, ?_⟩
  rw [← and_assoc]
  constructor
  · rcases roundWithAccuracy_of_shift hFirst (by omega) hLeast (by omega) s with
      ⟨hZero, hNone⟩ | ⟨r, f, hCanonical, hFinite, _, _, hSame⟩
    · rw [hZero, hNone]
      exact ⟨trivial, by simp [valueOf_zero]⟩
    · rw [hFinite]
      refine ⟨hCanonical, ?_⟩
      rw [valueOf, units, cast_apply, Int.cast_natCast, hSame, mul_div_assoc, scaled_div hLeast]
  · intro x h
    have hHalf : |(em.roundedMantissa : ℝ) - x / 2 ^ (target - e).toNat| ≤ 1 / 2 := by
      rw [hCut]
      exact (measures_shiftRight (measures_ofMantissaAndAccuracy h) _).rounded
    have hPow : (2 : ℝ) ^ target = 2 ^ e * 2 ^ (target - e).toNat := by
      rw [← zpow_natCast, ← zpow_add₀ two_ne_zero]
      congr 1
      omega
    have hScaled : (em.roundedMantissa : ℝ) * 2 ^ target - x * 2 ^ e =
        (em.roundedMantissa - x / 2 ^ (target - e).toNat) * 2 ^ target := by
      rw [sub_mul, hPow]
      field_simp
    rw [hScaled, abs_mul, abs_of_pos (by positivity : (0 : ℝ) < 2 ^ target),
      zpow_sub_one₀ two_ne_zero, mul_comm, ← one_div]
    exact mul_le_mul_of_nonneg_left hHalf (by positivity)

end PathTracer.Binary32
