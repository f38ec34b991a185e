import PathTracer.Decimal.Shortest
import PathTracer.Proofs.Decimal.Rounding

/-! The shortest literal of a number reads back as the number. Each grid is tried
by reading its candidates back, so that only the last resort, the number written
out, needs an argument of its own. -/
namespace PathTracer.Decimal

/-- The exact value of a literal. -/
def Literal.value (d : Literal) : ℚ :=
  d.digits * (10 : ℚ) ^ d.exponent

theorem Dyadic.ratio_pos (d : Dyadic) : 0 < d.ratio.2 := by
  unfold ratio
  split
  · exact Nat.one_pos
  · exact Nat.pow_pos (by decide)

theorem Dyadic.ratio_value (d : Dyadic) : (d.ratio.1 : ℚ) / d.ratio.2 = d.value := by
  obtain ⟨m, e⟩ := d
  cases e with
  | ofNat e => simp [ratio, value]
  | negSucc e => simp [ratio, value, div_eq_mul_inv]

namespace Literal

theorem ratio_pos (d : Literal) : 0 < d.ratio.2 := by
  unfold ratio
  split
  · exact Nat.one_pos
  · exact Nat.pow_pos (by decide)

theorem ratio_value (d : Literal) : (d.ratio.1 : ℚ) / d.ratio.2 = d.value := by
  obtain ⟨m, e⟩ := d
  cases e with
  | ofNat e => simp [ratio, value]
  | negSucc e => simp [ratio, value, div_eq_mul_inv]

/-- Literals that are rounded by their value, not by their exponent. -/
structure Near (d : Literal) : Prop where
  below : -(reach : ℤ) ≤ d.exponent
  above : d.exponent ≤ reach

theorem Near.nearest_eq {d : Literal} (h : d.Near) (f : BinaryFormat) :
    d.nearest f = f.nearest d.ratio.1 d.ratio.2 := by
  obtain ⟨hBelow, hAbove⟩ := h
  unfold nearest
  by_cases hZero : d.digits = 0
  · have hRatio : d.ratio.1 = 0 := by
      unfold ratio
      split
      · simp [hZero]
      · exact hZero
    rw [if_pos hZero, BinaryFormat.nearest, if_pos hRatio]
  · rw [if_neg hZero, if_neg (by omega), if_neg (by omega)]

/-- Two writings of one value are read as the same number. -/
theorem Near.nearest_congr {d d' : Literal} (h : d.Near) (h' : d'.Near)
    (hValue : d.value = d'.value) (f : BinaryFormat) : d.nearest f = d'.nearest f := by
  rw [h.nearest_eq, h'.nearest_eq]
  refine f.nearest_congr d.ratio_pos d'.ratio_pos ?_
  rw [ratio_value, ratio_value, hValue]

end Literal

/-! ### The last resort -/

theorem least_le_magnitude (ordinal : ℕ) : -149 ≤ (single.magnitude ordinal).exponent :=
  (single.holds_magnitude (by decide) ordinal).above

/-- A binary fraction is a decimal one with as many places. -/
theorem exact_value (ordinal : ℕ) : (exact ordinal).value = (single.magnitude ordinal).value := by
  have hLeast := least_le_magnitude ordinal
  have hPower : (10 : ℚ) ^ 149 ≠ 0 := by positivity
  rw [← Dyadic.ratio_value]
  have hDvd : (single.magnitude ordinal).ratio.2 ∣ 10 ^ 149 := by
    generalize single.magnitude ordinal = d at hLeast
    obtain ⟨m, e⟩ := d
    cases e with
    | ofNat e => exact one_dvd _
    | negSucc e =>
        have hPlaces : e + 1 ≤ 149 := by
          dsimp only at hLeast
          omega
        exact (pow_dvd_pow 2 hPlaces).trans (pow_dvd_pow_of_dvd (by decide) 149)
  have hDen : ((single.magnitude ordinal).ratio.2 : ℚ) ≠ 0 := by
    exact_mod_cast (single.magnitude ordinal).ratio_pos.ne'
  unfold exact Literal.value
  dsimp only
  rw [Nat.pow_eq, Nat.cast_div (hDvd.mul_left _) hDen]
  push_cast
  field_simp
  norm_num

theorem exact_readsBack {ordinal : ℕ} (hFinite : ordinal < single.infinity) :
    (exact ordinal).nearest single = ordinal := by
  have hNear : (exact ordinal).Near := ⟨by simp [exact, Literal.reach], by simp [exact, Literal.reach]⟩
  rw [hNear.nearest_eq]
  refine single.nearest_of_value (by decide) hFinite (exact ordinal).ratio_pos ?_
  rw [Literal.ratio_value, exact_value]

/-! ### The search -/

theorem readsBack_of_choice {ordinal : ℕ} {near far d : Literal}
    (h : (if readsBack ordinal near then some near
      else if readsBack ordinal far then some far else none) = some d) :
    d.nearest single = ordinal ∧ (d = near ∨ d = far) := by
  split at h
  · rename_i hNear
    cases h
    exact ⟨by simpa [readsBack] using hNear, .inl rfl⟩
  · split at h
    · rename_i hFar
      cases h
      exact ⟨by simpa [readsBack] using hFar, .inr rfl⟩
    · cases h

/-- A neighbour is only offered if it reads back as the float that it stands for. -/
theorem neighbour?_readsBack {tie : Tie} {ordinal : ℕ} {exponent : ℤ} {d : Literal}
    (h : neighbour? tie ordinal exponent = some d) :
    d.nearest single = ordinal ∧ d.exponent = exponent := by
  obtain ⟨num, den, hRatio⟩ : ∃ num den, (single.magnitude ordinal).ratio = (num, den) := ⟨_, _, rfl⟩
  obtain ⟨n, m, hUnits⟩ : ∃ n m, inTens num den exponent = (n, m) := ⟨_, _, rfl⟩
  simp only [neighbour?, hRatio, hUnits] at h
  split at h
  · cases h
  · cases hPrefers : prefersBelow tie n m with
    | true =>
        rw [hPrefers, if_pos rfl] at h
        obtain ⟨hReads, rfl | rfl⟩ := readsBack_of_choice h
        · exact ⟨hReads, rfl⟩
        · exact ⟨hReads, rfl⟩
    | false =>
        rw [hPrefers, if_neg Bool.false_ne_true] at h
        obtain ⟨hReads, rfl | rfl⟩ := readsBack_of_choice h
        · exact ⟨hReads, rfl⟩
        · exact ⟨hReads, rfl⟩

/-- The search always ends with a literal that reads back, since the finest grid has one.
The induction is on the grids that are left. -/
theorem shortestFrom_readsBack (tie : Tie) {ordinal : ℕ} (hFinite : ordinal < single.infinity)
    (grids : ℕ) (exponent : ℤ) :
    (shortestFrom tie ordinal exponent grids).nearest single = ordinal ∧
      ((shortestFrom tie ordinal exponent grids).exponent = -149 ∨
        exponent - grids < (shortestFrom tie ordinal exponent grids).exponent ∧
          (shortestFrom tie ordinal exponent grids).exponent ≤ exponent) := by
  induction grids generalizing exponent with
  | zero => exact ⟨exact_readsBack hFinite, .inl rfl⟩
  | succ grids ih =>
      unfold shortestFrom
      split
      · rename_i d hNeighbour
        obtain ⟨hReads, rfl⟩ := neighbour?_readsBack hNeighbour
        exact ⟨hReads, .inr ⟨by omega, le_refl _⟩⟩
      · obtain ⟨hReads, hExponent⟩ := ih (exponent - 1)
        refine ⟨hReads, hExponent.imp id fun ⟨hLow, hHigh⟩ => ⟨?_, by omega⟩⟩
        push_cast
        omega

/-- The coarsest grid is not far above the greatest number. -/
theorem coarsestGrid_le {ordinal : ℕ} (hFinite : ordinal < single.infinity) :
    coarsestGrid ordinal ≤ 40 := by
  have hSmall := (single.holds_magnitude (by decide) ordinal).small
  have hLog : (single.magnitude ordinal).significand.log2 < 24 := by
    by_cases hZero : (single.magnitude ordinal).significand = 0
    · rw [hZero]
      decide
    · exact (Nat.log2_lt hZero).mpr hSmall
  have hExponent : (single.magnitude ordinal).exponent ≤ 104 := by
    have hQuotient : ordinal / 2 ^ 23 < 255 :=
      Nat.div_lt_of_lt_mul (by simpa [single] using hFinite)
    unfold BinaryFormat.magnitude
    dsimp only [single]
    split
    · change (-149 : ℤ) ≤ 104
      decide
    · dsimp only [Nat.pow_eq]
      omega
  unfold coarsestGrid
  dsimp only
  omega

/-- The shortest literal of a finite number reads back as the number. -/
theorem shortest_readsBack (tie : Tie) {ordinal : ℕ} (hFinite : ordinal < single.infinity) :
    (shortest tie ordinal).nearest single = ordinal ∧
      -149 ≤ (shortest tie ordinal).exponent ∧ (shortest tie ordinal).exponent ≤ 40 := by
  obtain ⟨hReads, hExponent⟩ := shortestFrom_readsBack tie hFinite
    (coarsestGrid ordinal + 149).toNat (coarsestGrid ordinal)
  have hCoarsest := coarsestGrid_le hFinite
  refine ⟨hReads, ?_⟩
  unfold shortest
  dsimp only
  omega

end PathTracer.Decimal
