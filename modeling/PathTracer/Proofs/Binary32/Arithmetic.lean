import PathTracer.Proofs.Binary32.Value

/-! Errors of sums, differences, products, quotients and square roots. A result is within
half a unit of the last place of the exact one, and it is finite unless the exact one is
beyond the greatest number. -/
namespace PathTracer.Binary32

open Float.Model (Format UnpackedFloat totalExponent)
open Float.Model.UnpackedFloat (Sign Accuracy pack unpack roundWithAccuracy decreaseExponent)

variable {s t : Sign} {m n : Nat} {e f k : Int} {x y : ℝ} {accuracy : Accuracy}

/-! ### Nearness -/

/-- A number is near another if it has no other side and its error is at most half a unit of
the last of twenty-four places. -/
structure Near (x r : ℝ) : Prop where
  error : ∀ k : Int, -125 ≤ k → |x| < 2 ^ k → |r - x| ≤ 2 ^ (k - 25)
  nonneg : 0 ≤ x → 0 ≤ r
  nonpos : x ≤ 0 → r ≤ 0

theorem Near.refl (x : ℝ) : Near x x where
  error k _ _ := by
    rw [sub_self, abs_zero]
    positivity
  nonneg h := h
  nonpos h := h

/-- The error told by the exact number and the least magnitude. -/
theorem Near.abs_sub_le {r : ℝ} (h : Near x r) : |r - x| ≤ |x| / 2 ^ 24 + 1 / 2 ^ 150 := by
  by_cases hSmall : |x| < 2 ^ (-125 : Int)
  · have hError := h.error (-125) le_rfl hSmall
    norm_num at hError ⊢
    linarith [abs_nonneg x]
  · have hPos : 0 < |x| := lt_of_lt_of_le (by positivity) (not_lt.mp hSmall)
    have hLow : (2 : ℝ) ^ Int.log 2 |x| ≤ |x| := by
      exact_mod_cast Int.zpow_log_le_self (b := 2) (by decide) hPos
    have hHigh : |x| < (2 : ℝ) ^ (Int.log 2 |x| + 1) := by
      exact_mod_cast Int.lt_zpow_succ_log_self (b := 2) (by decide) |x|
    have hLeast : -125 < Int.log 2 |x| + 1 :=
      (zpow_lt_zpow_iff_right₀ one_lt_two).mp ((not_lt.mp hSmall).trans_lt hHigh)
    have hError := h.error _ hLeast.le hHigh
    have hUnit : (2 : ℝ) ^ (Int.log 2 |x| + 1 - 25) = 2 ^ Int.log 2 |x| / 2 ^ 24 := by
      rw [show Int.log 2 |x| + 1 - 25 = Int.log 2 |x| - 24 by ring, zpow_sub₀ two_ne_zero]
      norm_cast
    rw [hUnit] at hError
    have hScaled : (2 : ℝ) ^ Int.log 2 |x| / 2 ^ 24 ≤ |x| / 2 ^ 24 := by gcongr
    linarith [show (0 : ℝ) < 1 / 2 ^ 150 by positivity]

/-! ### Order -/

/-- Mantissas at a common exponent keep their value. -/
theorem aligned_value {E : Int} (hLess : E ≤ e) (s : Sign) (m : Nat) :
    ((s.apply (m <<< (e - E).toNat : Nat) : Int) : ℝ) * 2 ^ E = s.apply 1 * (m * 2 ^ e) := by
  have hShift : e = (e - E).toNat + E := by omega
  conv_rhs => rw [hShift]
  rw [cast_apply, Nat.shiftLeft_eq, zpow_add₀ two_ne_zero, zpow_natCast]
  push_cast
  ring

/-- A sign is one or minus one. -/
theorem abs_apply_one (s : Sign) : |(s.apply 1 : ℝ)| = 1 := by
  cases s <;> simp [Sign.apply]

/-- A number that is a multiple of a power of two, or too small to have to be one. -/
inductive OnGrid (target : Int) (y : ℝ) : Prop where
  | multiple (j : Int) (h : y = j * 2 ^ target)
  | small (hLeast : -149 < target) (hSmall : |y| < 2 ^ (target + 23))

/-- The grid of a precision is symmetric about zero. -/
theorem OnGrid.neg {target : Int} (h : OnGrid target y) : OnGrid target (-y) := by
  cases h with
  | multiple j h => exact .multiple (-j) (by rw [h]; push_cast; ring)
  | small hLeast hSmall => exact .small hLeast (by rwa [abs_neg])

/-- Numbers in the form of memory are on every grid. -/
theorem onGrid_valueOf {u : UnpackedFloat} (h : Rounded u) {target : Int}
    (hLeast : -149 ≤ target) : OnGrid target (valueOf u) := by
  rcases u with _ | _ | s | ⟨s, m, e, hm⟩
  · exact .multiple 0 (by simp [valueOf, units])
  · exact .multiple 0 (by simp [valueOf, units])
  · exact .multiple 0 (by simp [valueOf, units])
  · have hCanonical : Canonical m e := h
    rw [valueOf_finite hCanonical.least]
    by_cases hLess : target ≤ e
    · exact .multiple _ (aligned_value hLess s m).symm
    · have hFits : (m : ℝ) < 2 ^ 24 := by exact_mod_cast hCanonical.fits
      have hLeast' := hCanonical.least
      refine .small (by omega) ?_
      rw [abs_mul, abs_apply_one, one_mul, abs_of_nonneg (by positivity)]
      calc (m : ℝ) * 2 ^ e
        _ < 2 ^ 24 * 2 ^ e := mul_lt_mul_of_pos_right hFits (by positivity)
        _ = 2 ^ (24 + e) := by rw [zpow_add₀ two_ne_zero]; norm_cast
        _ ≤ 2 ^ (target + 23) := zpow_le_zpow_right₀ one_le_two (by omega)

/-- Two multiples that are less than one step apart are in the order of their factors. -/
theorem multiple_le {i j : Int} {p : ℝ} (hPos : 0 < p) (h : i * p < j * p + p) :
    (i : ℝ) * p ≤ j * p := by
  have hLess : (i : ℝ) < j + 1 := lt_of_mul_lt_mul_right (by linarith) hPos.le
  have hInt : i ≤ j := Int.lt_add_one_iff.mp (by exact_mod_cast hLess)
  exact mul_le_mul_of_nonneg_right (by exact_mod_cast hInt) hPos.le

/-- The nearest multiple is not on another side of any multiple. -/
theorem nearest_multiple {n j : Int} {p : ℝ} (hPos : 0 < p) (h : |n * p - x| ≤ p / 2) :
    (j * p ≤ x → (j : ℝ) * p ≤ n * p) ∧ (x ≤ j * p → (n : ℝ) * p ≤ j * p) := by
  obtain ⟨hLow, hHigh⟩ := abs_le.mp h
  exact ⟨fun hSide => multiple_le hPos (by linarith),
    fun hSide => multiple_le hPos (by linarith)⟩

/-- Between a number and its rounding lies no point of the grid. This is what rounding to
nearest means for comparisons with floats. -/
theorem OnGrid.nearest {n : Nat} {target : Int} (hy : OnGrid target y)
    (hError : |(n : ℝ) * 2 ^ target - x| ≤ 2 ^ (target - 1))
    (hFull : target = -149 ∨ 2 ^ (target + 23) ≤ x) :
    (y ≤ x → y ≤ n * 2 ^ target) ∧ (x ≤ y → n * 2 ^ target ≤ y) := by
  have hHalf : |((n : Int) : ℝ) * 2 ^ target - x| ≤ 2 ^ target / 2 := by
    rwa [zpow_sub_one₀ two_ne_zero, ← div_eq_mul_inv] at hError
  have hUnit : (0 : ℝ) < 2 ^ target := by positivity
  rcases hy with ⟨j, rfl⟩ | ⟨hLeast, hSmall⟩
  · exact nearest_multiple hUnit hHalf
  · have hMore : 2 ^ (target + 23) ≤ x := hFull.resolve_left hLeast.ne'
    have hPow : ((2 ^ 23 : Int) : ℝ) * 2 ^ target = 2 ^ (target + 23) := by
      rw [zpow_add₀ two_ne_zero, mul_comm]
      norm_num
    have hResult := (nearest_multiple (j := 2 ^ 23) hUnit hHalf).1 (hPow.trans_le hMore)
    rw [hPow] at hResult
    have hBelow := (abs_lt.mp hSmall).2
    exact ⟨fun _ => hBelow.le.trans hResult, fun hSide => by linarith⟩

/-- The same below zero: rounding is symmetric. -/
theorem OnGrid.nearest_apply {n : Nat} {target : Int} (hy : OnGrid target y) (s : Sign)
    (hError : |(n : ℝ) * 2 ^ target - x| ≤ 2 ^ (target - 1))
    (hFull : target = -149 ∨ 2 ^ (target + 23) ≤ x) :
    (y ≤ s.apply 1 * x → y ≤ s.apply 1 * (n * 2 ^ target)) ∧
      (s.apply 1 * x ≤ y → s.apply 1 * (n * 2 ^ target) ≤ y) := by
  cases s with
  | negative =>
      obtain ⟨hLow, hHigh⟩ := hy.neg.nearest hError hFull
      simp only [Sign.apply, Int.cast_neg, Int.cast_one, neg_one_mul]
      exact ⟨fun hSide => le_neg.mp (hHigh (le_neg.mp hSide)),
        fun hSide => neg_le.mp (hLow (neg_le.mp hSide))⟩
  | positive => simpa only [Sign.apply, Int.cast_one, one_mul] using hy.nearest hError hFull

/-- A result with a greater exponent than the least has its highest place in use. -/
theorem target_full (hShift : e ≤ Format.binary32.targetExponent (totalExponent m e))
    (hFloor : m ≤ x) : Format.binary32.targetExponent (totalExponent m e) = -149 ∨
      2 ^ (Format.binary32.targetExponent (totalExponent m e) + 23) ≤ x * 2 ^ e := by
  refine (truncated_full hShift).symm.imp_right fun hFull => ?_
  have hCut : 2 ^ 23 * 2 ^ (Format.binary32.targetExponent (totalExponent m e) - e).toNat ≤ m :=
    (Nat.mul_le_mul_right _ hFull).trans (Nat.div_mul_le_self _ _)
  generalize Format.binary32.targetExponent (totalExponent m e) = target at *
  have hReal : (2 : ℝ) ^ 23 * 2 ^ (target - e).toNat ≤ x :=
    le_trans (by exact_mod_cast hCut) hFloor
  have hPow : (2 : ℝ) ^ (target + 23) = 2 ^ 23 * 2 ^ (target - e).toNat * 2 ^ e := by
    rw [← zpow_natCast 2 23, ← zpow_natCast, ← zpow_add₀ two_ne_zero, ← zpow_add₀ two_ne_zero]
    congr 1
    omega
  rw [hPow]
  exact mul_le_mul_of_nonneg_right hReal (by positivity)

/-- What rounding gives for an exact number. No other number is between the two. -/
structure Rounds (x : ℝ) (r : UnpackedFloat) : Prop where
  rounded : Rounded r
  isFinite : r.isFinite = true
  near : Near x (valueOf r)
  lower : ∀ v, Rounded v → valueOf v ≤ x → valueOf v ≤ valueOf r
  upper : ∀ v, Rounded v → x ≤ valueOf v → valueOf r ≤ valueOf v

/-- A float is its own rounding. -/
theorem Rounds.refl {u : UnpackedFloat} (h : Rounded u) (hFinite : u.isFinite = true) :
    Rounds (valueOf u) u :=
  ⟨h, hFinite, .refl _, fun _ _ hSide => hSide, fun _ _ hSide => hSide⟩

/-- Zero of either sign is a rounding of zero. -/
theorem Rounds.zero (s : Sign) : Rounds 0 (.zero s) :=
  valueOf_zero s ▸ Rounds.refl (u := .zero s) trivial rfl

/-- Rounding to an unbounded exponent is always finite. Overflow is a second step, after
rounding. -/
theorem isFinite_roundWithAccuracy (s : Sign) (m : Nat) (e : Int) (accuracy : Accuracy) :
    (roundWithAccuracy .binary32 s m e accuracy).isFinite = true := by
  unfold roundWithAccuracy
  dsimp only
  split <;> rfl

/-- A significand with a remark on what was cut off is rounded as the exact number, so that
the sum, quotient and root below need not be computed in full. The condition says that
enough digits were kept. -/
theorem Rounds.roundWithAccuracy (hShift : e ≤ Format.binary32.targetExponent (totalExponent m e))
    (s : Sign) (h : Measures m x accuracy) :
    Rounds (s.apply 1 * (x * 2 ^ e)) (roundWithAccuracy .binary32 s m e accuracy) := by
  obtain ⟨n, hRounded, hValue, hError⟩ := exists_rounded hShift s accuracy
  have hFloor := h.floor_le
  have hExact : 0 ≤ x * 2 ^ e := mul_nonneg ((Nat.cast_nonneg m).trans hFloor) (by positivity)
  have hTarget (k : Int) (hLeast : -125 ≤ k) (hMost : x * 2 ^ e < 2 ^ k) :=
    targetExponent_le hLeast hShift
      ((mul_le_mul_of_nonneg_right hFloor (by positivity)).trans_lt hMost)
  have hFull := target_full hShift hFloor
  have hLeast : -149 ≤ Format.binary32.targetExponent (totalExponent m e) := le_max_right _ _
  replace hError := hError x h
  have hOrder (v : UnpackedFloat) (hv : Rounded v) :=
    (onGrid_valueOf hv hLeast).nearest_apply s hError hFull
  rw [← hValue] at hOrder
  refine ⟨hRounded, isFinite_roundWithAccuracy s m e accuracy, ⟨fun k hLow hMost => ?_, ?_, ?_⟩,
    fun v hv => (hOrder v hv).1, fun v hv => (hOrder v hv).2⟩
  · rw [abs_mul, abs_apply_one, one_mul, abs_of_nonneg hExact] at hMost
    rw [hValue, ← mul_sub, abs_mul, abs_apply_one, one_mul]
    have hLess := hTarget k hLow hMost
    exact hError.trans (zpow_le_zpow_right₀ one_le_two (by omega))
  · simpa only [valueOf_zero] using (hOrder (.zero .positive) trivial).1
  · simpa only [valueOf_zero] using (hOrder (.zero .positive) trivial).2

/-- An exact significand and exponent are rounded to nearest. -/
theorem Rounds.round (hPos : 0 < m) (s : Sign) (e : Int) :
    Rounds (s.apply 1 * (m * 2 ^ e)) (UnpackedFloat.round .binary32 s m e) := by
  unfold UnpackedFloat.round decreaseExponent
  dsimp only
  generalize hTarget : Format.binary32.targetExponent (totalExponent m e) = target
  generalize hAmount : (e - target).toNat = amount
  have hTotal : totalExponent (m <<< amount) (e - amount) = totalExponent m e := by
    rw [Nat.shiftLeft_eq, totalExponent, log2_mul_two_pow hPos, totalExponent]
    push_cast
    ring
  have hShift : e - amount ≤
      Format.binary32.targetExponent (totalExponent (m <<< amount) (e - amount)) := by
    rw [hTotal, hTarget]
    omega
  have hSame : (m : ℝ) * 2 ^ e = (m <<< amount : Nat) * 2 ^ (e - amount) := by
    rw [Nat.shiftLeft_eq, zpow_sub₀ two_ne_zero, zpow_natCast]
    push_cast
    field_simp
  rw [hSame]
  exact .roundWithAccuracy hShift s rfl

/-- A signed significand is rounded to nearest. The sign that is given counts only for zero.
-/
theorem Rounds.normalize (D : Int) (E : Int) (zero : Sign) :
    Rounds (D * 2 ^ E) (UnpackedFloat.normalize .binary32 D E zero) := by
  unfold UnpackedFloat.normalize
  split
  · rename_i hSign
    have hNegative : D < 0 := Int.compare_eq_lt.mp hSign
    have hMantissa : (D : ℝ) = -((-D).toNat : ℝ) := by
      have hInt : D = -((-D).toNat : Int) := by omega
      exact_mod_cast congrArg (Int.cast : Int → ℝ) hInt
    have hRound := Rounds.round (m := (-D).toNat) (by omega) .negative E
    rwa [show ((Sign.negative.apply 1 : Int) : ℝ) = -1 by simp [Sign.apply], neg_one_mul, ← neg_mul,
      ← hMantissa] at hRound
  · rename_i hSign
    rw [Int.compare_eq_eq.mp hSign, Int.cast_zero, zero_mul]
    exact .zero zero
  · rename_i hSign
    have hPositive : 0 < D := Int.compare_eq_gt.mp hSign
    have hMantissa : (D : ℝ) = (D.toNat : ℝ) := by
      have hInt : D = (D.toNat : Int) := by omega
      exact_mod_cast congrArg (Int.cast : Int → ℝ) hInt
    have hRound := Rounds.round (m := D.toNat) (by omega) .positive E
    rwa [show ((Sign.positive.apply 1 : Int) : ℝ) = 1 by simp [Sign.apply], one_mul,
      ← hMantissa] at hRound

/-! ### Operations -/

/-- The negation of a float has the opposite value. -/
theorem valueOf_neg (u : UnpackedFloat) : valueOf u.neg = -valueOf u := by
  rcases u with _ | _ | _ | ⟨s, m, e, hPos⟩
  · simp [UnpackedFloat.neg, valueOf, units]
  · simp [UnpackedFloat.neg, valueOf, units]
  · simp [UnpackedFloat.neg, valueOf, units]
  · cases s with
    | negative => simp [UnpackedFloat.neg, valueOf, units, Sign.apply, neg_div]
    | positive => simp [UnpackedFloat.neg, valueOf, units, Sign.apply, neg_div]

variable {u v : UnpackedFloat}

/-- The sum of finite floats is the rounded sum of their values. -/
theorem Rounds.add (hu : Rounded u) (hv : Rounded v) (hFinite : u.isFinite = true)
    (hOther : v.isFinite = true) : Rounds (valueOf u + valueOf v) (u.add .binary32 v) := by
  rcases u with _ | _ | s | ⟨s, m, e, hm⟩
  · cases hFinite
  · cases hFinite
  all_goals
    rcases v with _ | _ | t | ⟨t, n, f, hn⟩
    · cases hOther
    · cases hOther
  · rw [valueOf_zero, valueOf_zero, add_zero]
    unfold UnpackedFloat.add
    dsimp only
    split <;> exact .zero _
  · rw [valueOf_zero, zero_add]
    exact .refl hv rfl
  · rw [valueOf_zero, add_zero]
    exact .refl hu rfl
  · rw [valueOf_finite (Canonical.least hu), valueOf_finite (Canonical.least hv),
      ← aligned_value (min_le_left e f), ← aligned_value (min_le_right e f), ← add_mul,
      ← Int.cast_add]
    exact .normalize _ _ _

/-- The difference of finite floats is the rounded difference of their values. -/
theorem Rounds.sub (hu : Rounded u) (hv : Rounded v) (hFinite : u.isFinite = true)
    (hOther : v.isFinite = true) : Rounds (valueOf u - valueOf v) (u.sub .binary32 v) := by
  rcases u with _ | _ | s | ⟨s, m, e, hm⟩
  · cases hFinite
  · cases hFinite
  all_goals
    rcases v with _ | _ | t | ⟨t, n, f, hn⟩
    · cases hOther
    · cases hOther
  · rw [valueOf_zero, valueOf_zero, sub_zero]
    unfold UnpackedFloat.sub
    dsimp only
    split <;> exact .zero _
  · rw [valueOf_zero, zero_sub, ← valueOf_neg]
    exact .refl hv rfl
  · rw [valueOf_zero, sub_zero]
    exact .refl hu rfl
  · rw [valueOf_finite (Canonical.least hu), valueOf_finite (Canonical.least hv),
      ← aligned_value (min_le_left e f), ← aligned_value (min_le_right e f), ← sub_mul,
      ← Int.cast_sub]
    exact .normalize _ _ _

/-- Signs multiply. -/
theorem apply_mul_apply (s t : Sign) :
    (((s * t).apply 1 : Int) : ℝ) = s.apply 1 * t.apply 1 := by
  have hInt : (s * t).apply 1 = s.apply 1 * t.apply 1 := by cases s <;> cases t <;> rfl
  rw [hInt, Int.cast_mul]

/-- The product of finite floats is the rounded product of their values. -/
theorem Rounds.mul (hu : Rounded u) (hv : Rounded v) (hFinite : u.isFinite = true)
    (hOther : v.isFinite = true) : Rounds (valueOf u * valueOf v) (u.mul .binary32 v) := by
  rcases u with _ | _ | s | ⟨s, m, e, hm⟩
  · cases hFinite
  · cases hFinite
  all_goals
    rcases v with _ | _ | t | ⟨t, n, f, hn⟩
    · cases hOther
    · cases hOther
  · rw [valueOf_zero, zero_mul]
    exact .zero _
  · rw [valueOf_zero, zero_mul]
    exact .zero _
  · rw [valueOf_zero, mul_zero]
    exact .zero _
  · have hProduct : valueOf (.finite s m e hm) * valueOf (.finite t n f hn) =
        (s * t).apply 1 * ((m * n : Nat) * 2 ^ (e + f)) := by
      rw [valueOf_finite (Canonical.least hu), valueOf_finite (Canonical.least hv),
        apply_mul_apply, zpow_add₀ two_ne_zero]
      push_cast
      ring
    rw [hProduct]
    exact .roundWithAccuracy (Canonical.mul_shift hu hv) _ rfl

/-- Signs divide as they multiply. -/
theorem apply_div_apply (s t : Sign) :
    (((s / t).apply 1 : Int) : ℝ) = s.apply 1 / t.apply 1 := by
  have hInt : (s / t).apply 1 = s.apply 1 * t.apply 1 := by cases s <;> cases t <;> rfl
  rw [hInt, Int.cast_mul, div_eq_mul_inv]
  cases t <;> norm_num [Sign.apply]

/-- A quotient with remainder tells the exact quotient well enough for rounding. -/
theorem measures_accuracyOfFraction {q r d : Nat} (hPos : 0 < d) (hLess : r < d) :
    Measures q (q + r / d) (UnpackedFloat.accuracyOfFraction r d) := by
  have hDen : (0 : ℝ) < d := by exact_mod_cast hPos
  have hBelow : (r : ℝ) / d < 1 := (div_lt_one hDen).mpr (by exact_mod_cast hLess)
  unfold UnpackedFloat.accuracyOfFraction
  split
  · rename_i hNone
    simp [Measures, hNone]
  · rename_i hSome
    have hAbove : 0 < (r : ℝ) / d := div_pos (by exact_mod_cast Nat.pos_of_ne_zero hSome) hDen
    rcases hCompare : compare (2 * r) d with _ | _ | _
    · have hHalf : (r : ℝ) / d < 1 / 2 := by
        rw [div_lt_div_iff₀ hDen two_pos]
        exact_mod_cast (by have := Nat.compare_eq_lt.mp hCompare; omega : r * 2 < 1 * d)
      exact ⟨by linarith, by linarith⟩
    · have hHalf : (r : ℝ) / d = 1 / 2 := by
        rw [div_eq_div_iff hDen.ne' two_ne_zero]
        exact_mod_cast (by have := Nat.compare_eq_eq.mp hCompare; omega : r * 2 = 1 * d)
      show _ = _
      rw [hHalf]
    · have hHalf : 1 / 2 < (r : ℝ) / d := by
        rw [div_lt_div_iff₀ two_pos hDen]
        exact_mod_cast (by have := Nat.compare_eq_gt.mp hCompare; omega : 1 * d < r * 2)
      exact ⟨by linarith, by linarith⟩

/-- A quotient has bits enough, and its accuracy is told by the remainder. Dividing shifts
the first operand up far enough for this. -/
theorem exists_quotient (hm : 0 < m) (hn : 0 < n) (e f : Int) :
    ∃ q target accuracy x, UnpackedFloat.divCore .binary32 m e n f = (q, target, accuracy) ∧
      target ≤ Format.binary32.targetExponent (totalExponent q target) ∧
      Measures q x accuracy ∧ x * 2 ^ target = m * 2 ^ e / (n * 2 ^ f) := by
  generalize hTarget : min (e - f) (Format.binary32.targetExponent
    (totalExponent m e - totalExponent n f)) = target
  generalize hAmount : (e - f - target).toNat = amount
  have hDivides : (e - f) = target + amount := by omega
  refine ⟨_, target, _, (m <<< amount / n : Nat) + ((m <<< amount) % n : Nat) / n, ?_, ?_,
    measures_accuracyOfFraction hn (Nat.mod_lt _ hn), ?_⟩
  · unfold UnpackedFloat.divCore
    dsimp only
    rw [hTarget, hAmount]
  · rw [Nat.shiftLeft_eq]
    have hLow : 2 ^ (m.log2 + amount) ≤ m * 2 ^ amount := by
      rw [pow_add]
      exact Nat.mul_le_mul_right _ (Nat.log2_self_le hm.ne')
    have hHigh : n < 2 ^ (n.log2 + 1) := Nat.lt_log2_self
    rw [targetExponent_eq] at *
    by_cases hNone : m * 2 ^ amount / n = 0
    · have hLess : m.log2 + amount < n.log2 + 1 := by
        refine (Nat.pow_lt_pow_iff_right (by decide : 1 < 2)).mp (hLow.trans_lt ?_)
        exact ((Nat.div_eq_zero_iff_lt hn).mp hNone).trans hHigh
      rw [hNone]
      unfold totalExponent at *
      omega
    · have hBits : m.log2 + amount - (n.log2 + 1) ≤ (m * 2 ^ amount / n).log2 := by
        refine (Nat.le_log2 hNone).mpr ?_
        by_cases hLess : n.log2 + 1 ≤ m.log2 + amount
        · rw [Nat.le_div_iff_mul_le hn]
          calc 2 ^ (m.log2 + amount - (n.log2 + 1)) * n
            _ ≤ 2 ^ (m.log2 + amount - (n.log2 + 1)) * 2 ^ (n.log2 + 1) :=
              Nat.mul_le_mul_left _ hHigh.le
            _ ≤ m * 2 ^ amount := by rwa [← pow_add, Nat.sub_add_cancel hLess]
        · rw [Nat.sub_eq_zero_of_le (by omega), pow_zero]
          exact Nat.one_le_iff_ne_zero.mpr hNone
      unfold totalExponent at *
      omega
  · have hDen : (n : ℝ) ≠ 0 := by exact_mod_cast hn.ne'
    have hSplit : ((m <<< amount / n : Nat) : ℝ) + ((m <<< amount) % n : Nat) / n =
        m * 2 ^ amount / n := by
      have hNat : n * (m <<< amount / n) + m <<< amount % n = m * 2 ^ amount := by
        rw [Nat.div_add_mod, Nat.shiftLeft_eq]
      have hReal : (n : ℝ) * (m <<< amount / n : Nat) + (m <<< amount % n : Nat) =
          m * 2 ^ amount := by exact_mod_cast hNat
      rw [eq_div_iff hDen, add_mul, div_mul_cancel₀ _ hDen, mul_comm, hReal]
    have hPow : (2 : ℝ) ^ e = 2 ^ target * 2 ^ amount * 2 ^ f := by
      rw [← zpow_natCast, ← zpow_add₀ two_ne_zero, ← zpow_add₀ two_ne_zero, ← hDivides]
      congr 1
      omega
    rw [hSplit, hPow]
    field_simp

/-- The quotient of finite floats is the rounded quotient of their values, unless it is
divided by zero. -/
theorem Rounds.div (hu : Rounded u) (hv : Rounded v) (hFinite : u.isFinite = true)
    (hOther : v.isFinite = true) (hSome : valueOf v ≠ 0) :
    Rounds (valueOf u / valueOf v) (u.div .binary32 v) := by
  rcases u with _ | _ | s | ⟨s, m, e, hm⟩
  · cases hFinite
  · cases hFinite
  all_goals
    rcases v with _ | _ | t | ⟨t, n, f, hn⟩
    · cases hOther
    · cases hOther
    · exact absurd (valueOf_zero t) hSome
  · rw [valueOf_zero, zero_div]
    exact .zero _
  · obtain ⟨q, target, accuracy, x, hCore, hShift, hMeasures, hValue⟩ := exists_quotient hm hn e f
    have hQuotient : valueOf (.finite s m e hm) / valueOf (.finite t n f hn) =
        (s / t).apply 1 * (x * 2 ^ target) := by
      rw [valueOf_finite (Canonical.least hu), valueOf_finite (Canonical.least hv), hValue,
        mul_div_mul_comm, apply_div_apply]
    rw [hQuotient]
    unfold UnpackedFloat.div
    simp only [hCore]
    exact .roundWithAccuracy hShift _ hMeasures

/-- The whole part of a root tells the exact root well enough for rounding, by whether its
square leaves a remainder. -/
theorem measures_sqrt (M : Nat) :
    Measures M.sqrt √M (if M - M.sqrt * M.sqrt = 0 then .exact
      else .inexact (if M - M.sqrt * M.sqrt ≤ M.sqrt then .lt else .gt)) := by
  have hLow : M.sqrt * M.sqrt ≤ M := Nat.sqrt_le M
  have hHigh : M < (M.sqrt + 1) * (M.sqrt + 1) := Nat.lt_succ_sqrt M
  generalize M.sqrt = root at *
  have hRoot : (0 : ℝ) ≤ root := root.cast_nonneg
  split
  · have hSquare : M = root * root := by omega
    rw [hSquare]
    push_cast
    exact Real.sqrt_mul_self hRoot
  · have hAbove : (root : ℝ) < √M := by
      rw [Real.lt_sqrt hRoot, pow_two]
      exact_mod_cast (by omega : root * root < M)
    split
    · refine ⟨hAbove, ?_⟩
      rw [Real.sqrt_lt' (by positivity)]
      have hMost : (M : ℝ) ≤ root * root + root := by
        exact_mod_cast (by omega : M ≤ root * root + root)
      linarith [mul_self_nonneg (root : ℝ)]
    · refine ⟨?_, ?_⟩
      · rw [Real.lt_sqrt (by positivity)]
        have hLeast : (root : ℝ) * root + root + 1 ≤ M := by
          exact_mod_cast (by omega : root * root + root + 1 ≤ M)
        linarith
      · rw [Real.sqrt_lt' (by positivity), pow_two]
        exact_mod_cast hHigh

/-- A square root has bits enough, and its accuracy is told by the remainder. -/
theorem exists_root (hm : 0 < m) (e : Int) :
    ∃ q target accuracy x, UnpackedFloat.sqrtCore .binary32 m e = (q, target, accuracy) ∧
      target ≤ Format.binary32.targetExponent (totalExponent q target) ∧
      Measures q x accuracy ∧ x * 2 ^ target = √(m * 2 ^ e) := by
  generalize hTarget : min (e.ediv 2) (Format.binary32.targetExponent
    ((totalExponent m e + 1).ediv 2)) = target
  generalize hAmount : (e - 2 * target).toNat = amount
  have hHalf : e = amount + 2 * target := by
    have hLess : target ≤ e / 2 := hTarget ▸ min_le_left _ _
    omega
  have hLog : (m <<< amount).log2 = m.log2 + amount := by
    rw [Nat.shiftLeft_eq, log2_mul_two_pow hm]
  have hValue : √((m <<< amount : Nat) : ℝ) * 2 ^ target = √(m * 2 ^ e) := by
    have hSquare : (m : ℝ) * 2 ^ e = (m <<< amount : Nat) * (2 ^ target) ^ 2 := by
      rw [Nat.shiftLeft_eq, hHalf, zpow_add₀ two_ne_zero, zpow_natCast, mul_comm 2 target,
        zpow_mul, zpow_ofNat]
      push_cast
      ring
    rw [hSquare, Real.sqrt_mul (Nat.cast_nonneg _), Real.sqrt_sq (by positivity)]
  refine ⟨(m <<< amount).sqrt, target, _, √((m <<< amount : Nat) : ℝ), ?_, ?_, measures_sqrt _,
    hValue⟩
  · unfold UnpackedFloat.sqrtCore
    dsimp only
    rw [hTarget, hAmount]
  · have hBits : (m.log2 + amount) / 2 ≤ (m <<< amount).sqrt.log2 := by
      have hLow : 2 ^ ((m.log2 + amount) / 2) ≤ (m <<< amount).sqrt := by
        rw [Nat.le_sqrt, ← pow_add]
        refine (Nat.pow_le_pow_right (by decide) ?_).trans
          (Nat.log2_self_le (n := m <<< amount) ?_)
        · omega
        · rw [Nat.shiftLeft_eq]
          exact (Nat.mul_pos hm (Nat.two_pow_pos _)).ne'
      exact (Nat.le_log2 ((Nat.two_pow_pos _).trans_le hLow).ne').mpr hLow
    change min (e / 2) (Format.binary32.targetExponent ((totalExponent m e + 1) / 2)) = target
      at hTarget
    rw [targetExponent_eq] at *
    unfold totalExponent at *
    omega

/-- The root of a finite float that is not negative is the rounded root of its value. -/
theorem Rounds.sqrt (hu : Rounded u) (hFinite : u.isFinite = true) (hSide : 0 ≤ valueOf u) :
    Rounds √(valueOf u) (u.sqrt .binary32) := by
  rcases u with _ | _ | s | ⟨_ | _, m, e, hm⟩
  · cases hFinite
  · cases hFinite
  · rw [valueOf_zero, Real.sqrt_zero]
    exact .zero s
  · rw [valueOf_finite (Canonical.least hu)] at hSide
    have hPos : (0 : ℝ) < m * 2 ^ e := mul_pos (by exact_mod_cast hm) (by positivity)
    have hNegative : ((Sign.negative.apply 1 : Int) : ℝ) = -1 := by simp [Sign.apply]
    rw [hNegative] at hSide
    linarith
  · obtain ⟨q, target, accuracy, x, hCore, hShift, hMeasures, hValue⟩ := exists_root hm e
    have hPositive : ((Sign.positive.apply 1 : Int) : ℝ) = 1 := by simp [Sign.apply]
    have hRoot : √(valueOf (.finite .positive m e hm)) =
        Sign.positive.apply 1 * (x * 2 ^ target) := by
      rw [valueOf_finite (Canonical.least hu), hPositive, one_mul, one_mul, hValue]
    rw [hRoot]
    unfold UnpackedFloat.sqrt
    simp only [hCore]
    exact .roundWithAccuracy hShift _ hMeasures

/-! ### Results in memory -/

/-- A sum is rounded to the precision of floats, whatever its operands are. -/
theorem rounded_add (hu : Rounded u) (hv : Rounded v) : Rounded (u.add .binary32 v) := by
  by_cases hFinite : u.isFinite = true ∧ v.isFinite = true
  · exact (Rounds.add hu hv hFinite.1 hFinite.2).rounded
  · rcases u with _ | _ | _ | _ <;> rcases v with _ | _ | _ | _
    all_goals first | exact trivial | exact absurd ⟨rfl, rfl⟩ hFinite | skip
    unfold UnpackedFloat.add
    dsimp only
    split <;> exact trivial

/-- The sum of two floats is that of their parts, kept if it does not overflow. -/
theorem unpack_add (a b : Float32) : (a + b).toModel.unpack =
    kept (UnpackedFloat.add .binary32 a.toModel.unpack b.toModel.unpack) :=
  unpack_pack (rounded_add (rounded_unpack a) (rounded_unpack b))

/-- A quotient is rounded to the precision of floats, whatever its operands are. -/
theorem rounded_div (hu : Rounded u) (hv : Rounded v) : Rounded (u.div .binary32 v) := by
  rcases u with _ | _ | _ | ⟨s, m, e, hm⟩ <;> rcases v with _ | _ | _ | ⟨t, n, f, hn⟩
  all_goals try exact trivial
  obtain ⟨q, target, accuracy, x, hCore, hShift, hMeasures, _⟩ := exists_quotient hm hn e f
  unfold UnpackedFloat.div
  simp only [hCore]
  exact (Rounds.roundWithAccuracy hShift _ hMeasures).rounded

/-- The quotient of two floats is that of their parts, kept if it does not overflow. -/
theorem unpack_div (a b : Float32) : (a / b).toModel.unpack =
    kept (UnpackedFloat.div .binary32 a.toModel.unpack b.toModel.unpack) :=
  unpack_pack (rounded_div (rounded_unpack a) (rounded_unpack b))

/-- A root is rounded to the precision of floats. -/
theorem rounded_sqrt (hu : Rounded u) : Rounded (u.sqrt .binary32) := by
  rcases u with ⟨_ | _⟩ | _ | _ | ⟨_ | _, m, e, hm⟩
  all_goals try exact trivial
  obtain ⟨q, target, accuracy, x, hCore, hShift, hMeasures, _⟩ := exists_root hm e
  unfold UnpackedFloat.sqrt
  simp only [hCore]
  exact (Rounds.roundWithAccuracy hShift _ hMeasures).rounded

/-- The root of a float is that of its parts. -/
theorem unpack_sqrt (a : Float32) : a.sqrt.toModel.unpack =
    kept (UnpackedFloat.sqrt .binary32 a.toModel.unpack) :=
  unpack_pack (rounded_sqrt (rounded_unpack a))

/-- Below the overflow a rounding is kept as it is. -/
theorem Rounds.kept_eq (h : Rounds x u) (hLess : |x| < overflow) : kept u = u := by
  rcases u with _ | _ | _ | ⟨s, m, e, hm⟩
  · rfl
  · rfl
  · rfl
  · by_cases hHigh : e ≤ 104
    · rw [kept, if_pos hHigh]
    · exfalso
      have hCanonical : Canonical m e := h.rounded
      have hFull : 2 ^ 23 ≤ m := hCanonical.full.resolve_right (by omega)
      have hValue : |valueOf (.finite s m e hm)| = m * 2 ^ e := by
        rw [valueOf_finite hCanonical.least, abs_mul, abs_apply_one, one_mul, abs_of_nonneg]
        positivity
      have hGreat : (2 : ℝ) ^ 128 ≤ |valueOf (.finite s m e hm)| := by
        rw [hValue, show (128 : Nat) = 23 + 105 from rfl, pow_add]
        have hPow : (2 : ℝ) ^ 105 ≤ 2 ^ e := by
          rw [← zpow_natCast]
          exact zpow_le_zpow_right₀ one_le_two (by push_cast; omega)
        exact mul_le_mul (by exact_mod_cast hFull) hPow (by positivity) (by positivity)
      have hError := h.near.error 128 (by decide) (by
        unfold overflow at hLess
        norm_num at hLess ⊢
        linarith)
      have hTriangle := abs_sub_abs_le_abs_sub (valueOf (.finite s m e hm)) x
      unfold overflow at hLess
      norm_num at hLess hGreat hError
      linarith

/-- No finite float is beyond the greatest one. -/
theorem abs_value_le {a : Float32} (ha : a.isFinite = true) : |value a| ≤ 2 ^ 128 - 2 ^ 104 := by
  change a.toModel.unpack.isFinite = true at ha
  unfold value
  rcases hUnpack : a.toModel.unpack with _ | _ | s | ⟨s, m, e, hm⟩
  · rw [hUnpack] at ha
    cases ha
  · rw [hUnpack] at ha
    cases ha
  · rw [valueOf_zero]
    norm_num
  · obtain ⟨hCanonical, hHigh⟩ := canonical_of_unpack hUnpack
    have hMost : (m : ℝ) ≤ 2 ^ 24 - 1 := by
      have hNat : m + 1 ≤ 2 ^ 24 := hCanonical.fits
      have hReal : ((m + 1 : Nat) : ℝ) ≤ (2 ^ 24 : Nat) := by exact_mod_cast hNat
      push_cast at hReal
      linarith
    have hPow : (2 : ℝ) ^ e ≤ 2 ^ 104 := by
      rw [← zpow_natCast]
      exact zpow_le_zpow_right₀ one_le_two (by exact_mod_cast hHigh)
    rw [valueOf_finite hCanonical.least, abs_mul, abs_apply_one, one_mul,
      abs_of_nonneg (by positivity)]
    calc (m : ℝ) * 2 ^ e
      _ ≤ (2 ^ 24 - 1) * 2 ^ 104 := mul_le_mul hMost hPow (by positivity) (by norm_num)
      _ = 2 ^ 128 - 2 ^ 104 := by norm_num

/-- Numbers other than zero are not below the least magnitude. -/
theorem least_le_abs_value {a : Float32} (h : value a ≠ 0) : 1 / 2 ^ 149 ≤ |value a| := by
  unfold value valueOf at *
  have hUnits : units a.toModel.unpack ≠ 0 := by
    intro hZero
    rw [hZero, Int.cast_zero, zero_div] at h
    exact h rfl
  rw [abs_div, abs_of_pos (by positivity : (0 : ℝ) < 2 ^ 149), ← Int.cast_abs]
  gcongr
  exact_mod_cast Int.one_le_abs hUnits

/-- A finite number near an exact one. -/
structure Approximates (c : Float32) (x : ℝ) : Prop where
  isFinite : c.isFinite = true
  near : Near x (value c)

/-- A result whose parts round a number below the overflow is finite and the float next to
that number. -/
theorem Rounds.approximates {c : Float32} (h : Rounds x u) (hUnpack : c.toModel.unpack = kept u)
    (hLess : |x| < overflow) : Approximates c x := by
  rw [h.kept_eq hLess] at hUnpack
  refine ⟨?_, ?_⟩
  · show c.toModel.unpack.isFinite = true
    rw [hUnpack, h.isFinite]
  · rw [value, hUnpack]
    exact h.near

section Operations

variable {a b : Float32} (ha : a.isFinite = true) (hb : b.isFinite = true)

include ha

include hb in
/-- The sum of two finite floats is the float next to the exact sum, as long as that does
not overflow. -/
theorem approximates_add (hLess : |value a + value b| < overflow) :
    Approximates (a + b) (value a + value b) :=
  (Rounds.add (rounded_unpack a) (rounded_unpack b) ha hb).approximates (unpack_add a b) hLess

include hb in
/-- The difference of two finite floats is the float next to the exact difference, as long
as that does not overflow. -/
theorem approximates_sub (hLess : |value a - value b| < overflow) :
    Approximates (a - b) (value a - value b) :=
  (Rounds.sub (rounded_unpack a) (rounded_unpack b) ha hb).approximates (unpack_sub a b) hLess

include hb in
/-- The product of two finite floats is the float next to the exact product, as long as that
does not overflow. -/
theorem approximates_mul (hLess : |value a * value b| < overflow) :
    Approximates (a * b) (value a * value b) :=
  (Rounds.mul (rounded_unpack a) (rounded_unpack b) ha hb).approximates (unpack_mul a b) hLess

include hb in
/-- The quotient of two finite floats is the float next to the exact quotient, as long as
that does not overflow. -/
theorem approximates_div (hSome : value b ≠ 0) (hLess : |value a / value b| < overflow) :
    Approximates (a / b) (value a / value b) :=
  (Rounds.div (rounded_unpack a) (rounded_unpack b) ha hb hSome).approximates (unpack_div a b)
    hLess

/-- A square root is never too great to be a number. -/
theorem approximates_sqrt (hSide : 0 ≤ value a) : Approximates a.sqrt √(value a) := by
  refine (Rounds.sqrt (rounded_unpack a) ha hSide).approximates (unpack_sqrt a) ?_
  have hMost := (abs_le.mp (abs_value_le ha)).2
  have hRoot : √(value a) ≤ 2 ^ 64 :=
    Real.sqrt_le_iff.mpr ⟨by positivity, by norm_num at hMost ⊢; linarith⟩
  change |√(value a)| < overflow
  rw [abs_of_nonneg (Real.sqrt_nonneg _)]
  unfold overflow
  norm_num at hRoot ⊢
  linarith

end Operations

end PathTracer.Binary32
