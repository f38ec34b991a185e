import PathTracer.Proofs.Decimal.Middles
import PathTracer.Proofs.Decimal.Shortest

/-! How near the shortest literal of a number is to the number. It is the nearer of the
two neighbours on its grid, unless that one does not read back, and its grid is so fine
because the next coarser one has no neighbour that does. -/
namespace PathTracer.Decimal

/-! ### Neighbours on a grid -/

theorem inTens_pos {num den : ℕ} (hDen : 0 < den) (exponent : ℤ) :
    0 < (inTens num den exponent).2 := by
  unfold inTens
  split
  · exact Nat.mul_pos hDen (Nat.pow_pos (by decide))
  · exact hDen

/-- The ratio in units of a power of ten. -/
theorem inTens_value (num den : ℕ) (exponent : ℤ) :
    ((inTens num den exponent).1 : ℚ) / (inTens num den exponent).2 =
      num / den / (10 : ℚ) ^ exponent := by
  unfold inTens
  split
  · rename_i e
    simp [div_div]
  · rename_i e
    simp only [Nat.pow_eq, Nat.cast_mul, Nat.cast_pow, Nat.cast_ofNat, zpow_negSucc, div_inv_eq_mul]
    ring

/-- Two points that follow each other on a grid, the number between them, and which of them is
the nearer one. -/
structure Between (ordinal : ℕ) (exponent : ℤ) (k : ℕ) (prefersBelow : Bool) : Prop where
  below : Literal.value ⟨k, exponent⟩ ≤ single.value ordinal
  above : single.value ordinal < Literal.value ⟨k + 1, exponent⟩
  near : if prefersBelow then single.value ordinal - Literal.value ⟨k, exponent⟩ ≤ 10 ^ exponent / 2
    else Literal.value ⟨k + 1, exponent⟩ - single.value ordinal ≤ 10 ^ exponent / 2

/-- The neighbour that is preferred is at most half a step away. A tie goes to either, which
is left to the style. -/
theorem prefersBelow_spec (tie : Tie) {n d : ℕ} (hd : 0 < d) :
    if prefersBelow tie n d then (n : ℚ) / d - (n / d : ℕ) ≤ 1 / 2
      else ((n / d : ℕ) : ℚ) + 1 - n / d ≤ 1 / 2 := by
  rw [div_eq_whole_add_rest n hd]
  split
  · rename_i hBelow
    have hRest : 2 * (n % d) ≤ d := by
      unfold prefersBelow at hBelow
      simp only [Bool.or_eq_true, Bool.and_eq_true, decide_eq_true_eq] at hBelow
      omega
    have hPart := div_le_half hd hRest
    linarith
  · rename_i hAbove
    have hRest : d ≤ 2 * (n % d) := by
      unfold prefersBelow at hAbove
      simp only [Bool.or_eq_true, decide_eq_true_eq] at hAbove
      omega
    have hPart := half_le_div hd hRest
    linarith

/-- A magnitude lies between two neighbours on every grid of powers of ten. -/
theorem exists_between (tie : Tie) (ordinal : ℕ) (exponent : ℤ) :
    ∃ n d : ℕ, inTens (single.magnitude ordinal).ratio.1 (single.magnitude ordinal).ratio.2 exponent =
        (n, d) ∧ 0 < d ∧ single.value ordinal = n / d * 10 ^ exponent ∧
      Between ordinal exponent (n / d) (prefersBelow tie n d) := by
  obtain ⟨n, d, hUnits⟩ : ∃ n d, inTens (single.magnitude ordinal).ratio.1
    (single.magnitude ordinal).ratio.2 exponent = (n, d) := ⟨_, _, rfl⟩
  have hPower : (0 : ℚ) < 10 ^ exponent := by positivity
  have hPos : 0 < d := by
    have hSome : 0 < (inTens (single.magnitude ordinal).ratio.1
      (single.magnitude ordinal).ratio.2 exponent).2 := inTens_pos (Dyadic.ratio_pos _) exponent
    rwa [hUnits] at hSome
  have hDen : (0 : ℚ) < d := by exact_mod_cast hPos
  have hValue : single.value ordinal = n / d * 10 ^ exponent := by
    have hRatio := inTens_value (single.magnitude ordinal).ratio.1
      (single.magnitude ordinal).ratio.2 exponent
    rw [hUnits, Dyadic.ratio_value] at hRatio
    rw [hRatio, BinaryFormat.value]
    field_simp
  refine ⟨n, d, hUnits, hPos, hValue, ?_, ?_, ?_⟩
  · rw [hValue, Literal.value]
    gcongr
    exact Nat.cast_div_le
  · rw [hValue, Literal.value]
    gcongr
    rw [div_lt_iff₀ hDen]
    exact_mod_cast Nat.lt_mul_of_div_lt (Nat.lt_succ_self _) hPos
  · have hNear := prefersBelow_spec tie (n := n) hPos
    rw [hValue]
    unfold Literal.value
    push_cast
    split
    · rw [if_pos ‹_›] at hNear
      nlinarith
    · rw [if_neg ‹_›] at hNear
      nlinarith

/-- A point of a grid that is at most half a step from a number and does not read back. -/
structure Repelled (ordinal : ℕ) (exponent : ℤ) (w : Literal) : Prop where
  grid : w.exponent = exponent
  misread : w.nearest single ≠ ordinal
  near : |w.value - single.value ordinal| ≤ 10 ^ exponent / 2

theorem value_succ_digits (k : ℕ) (e : ℤ) :
    Literal.value ⟨k + 1, e⟩ = Literal.value ⟨k, e⟩ + 10 ^ e := by
  unfold Literal.value
  push_cast
  ring

/-- What a grid offers for a number: nothing where the number is too small for it, else the nearer
neighbour or, where that does not read back, the other one or nothing. -/
inductive Offers (ordinal : ℕ) (e : ℤ) : Option Literal → Prop
  | small : single.value ordinal < 10 ^ e / 2 → Offers ordinal e none
  | nearer {d : Literal} : 10 ^ e / 2 ≤ single.value ordinal →
      |d.value - single.value ordinal| ≤ 10 ^ e / 2 → Offers ordinal e (some d)
  | farther {w d : Literal} : 10 ^ e / 2 ≤ single.value ordinal → Repelled ordinal e w →
      d.value ≤ single.value ordinal + 10 ^ e → Offers ordinal e (some d)
  | neither {w : Literal} : Repelled ordinal e w → Offers ordinal e none

/-- The choice between two neighbours, the first of which is the nearer one. The other one
is asked only where the nearer one does not read back. -/
theorem offers_choice {ordinal : ℕ} {e : ℤ} {near far : Literal}
    (hLarge : 10 ^ e / 2 ≤ single.value ordinal) (hGrid : near.exponent = e)
    (hNear : |near.value - single.value ordinal| ≤ 10 ^ e / 2)
    (hFar : far.value ≤ single.value ordinal + 10 ^ e) :
    Offers ordinal e (if readsBack ordinal near then some near
      else if readsBack ordinal far then some far else none) := by
  split
  · exact .nearer hLarge hNear
  · rename_i hMisread
    have hRepelled : Repelled ordinal e near := ⟨hGrid, by simpa [readsBack] using hMisread, hNear⟩
    split
    · exact .farther hLarge hRepelled hFar
    · exact .neither hRepelled

/-- What a grid offers is the choice between the two neighbours of the number on it. -/
theorem offers_neighbour? (tie : Tie) (ordinal : ℕ) (e : ℤ) :
    Offers ordinal e (neighbour? tie ordinal e) := by
  obtain ⟨n, d, hUnits, hPos, hValue, hBelow, hAbove, hNear⟩ := exists_between tie ordinal e
  have hPower : (0 : ℚ) < 10 ^ e := by positivity
  have hDen : (0 : ℚ) < d := by exact_mod_cast hPos
  have hNext := value_succ_digits (n / d) e
  unfold neighbour?
  simp only [hUnits]
  split
  · rename_i hSmall
    refine .small ?_
    have hHalf : (n : ℚ) / d < 1 / 2 := by
      rw [div_lt_div_iff₀ hDen two_pos]
      exact_mod_cast (by omega : n * 2 < 1 * d)
    rw [hValue]
    nlinarith
  · rename_i hSome
    have hLarge : 10 ^ e / 2 ≤ single.value ordinal := by
      have hHalf := half_le_div hPos (not_lt.mp hSome)
      rw [hValue]
      nlinarith
    cases hPrefers : prefersBelow tie n d with
    | true =>
        rw [hPrefers, if_pos rfl] at hNear
        rw [if_pos rfl]
        refine offers_choice hLarge rfl ?_ (by linarith)
        rwa [abs_sub_comm, abs_of_nonneg (by linarith)]
    | false =>
        rw [hPrefers, if_neg Bool.false_ne_true] at hNear
        rw [if_neg Bool.false_ne_true]
        refine offers_choice hLarge rfl ?_ (by linarith)
        rwa [abs_of_nonneg (by linarith)]

/-- The literal that is offered is half a step away at most, if the nearer neighbour reads back. -/
theorem Offers.near_or_far {ordinal : ℕ} {e : ℤ} {d : Literal} (h : Offers ordinal e (some d)) :
    |d.value - single.value ordinal| ≤ 10 ^ e / 2 ∨ ∃ w, Repelled ordinal e w := by
  cases h with
  | nearer _ hNear => exact .inl hNear
  | farther _ hRepelled _ => exact .inr ⟨_, hRepelled⟩

theorem Offers.bounds {ordinal : ℕ} {e : ℤ} {d : Literal} (h : Offers ordinal e (some d)) :
    10 ^ e / 2 ≤ single.value ordinal ∧ d.value ≤ single.value ordinal + 10 ^ e := by
  cases h with
  | nearer hLarge hNear =>
      have hPower : (0 : ℚ) < 10 ^ e := by positivity
      exact ⟨hLarge, by linarith [(abs_le.mp hNear).2]⟩
  | farther hLarge _ hFar => exact ⟨hLarge, hFar⟩

/-! ### Points that read back -/

theorem single_precision : 0 < single.precision := by decide

/-- What lies strictly between the middles around a number reads back as the number. -/
theorem reads_of_middles {ordinal : ℕ} {w : Literal} (hFinite : ordinal < single.infinity)
    (hNear : w.Near) (hLow : single.middle ordinal < w.value)
    (hHigh : w.value < single.middle (ordinal + 1)) : w.nearest single = ordinal + 1 := by
  rw [hNear.nearest_eq]
  refine single.nearest_of_middles single_precision hFinite w.ratio_pos ?_ ?_
  · rwa [w.ratio_value]
  · rwa [w.ratio_value]

theorem middle_eq (ordinal : ℕ) :
    single.middle ordinal = single.value (ordinal + 1) - single.unit ordinal / 2 := by
  rw [BinaryFormat.middle, single.value_succ single_precision]
  ring

theorem unit_le_succ (ordinal : ℕ) : single.unit ordinal ≤ single.unit (ordinal + 1) := by
  have hUnit := single.unit_pos ordinal
  obtain hSame | ⟨hTwice, -⟩ := single.unit_succ single_precision ordinal
  · exact hSame.ge
  · linarith

theorem value_succ_le (ordinal : ℕ) : single.value (ordinal + 1) ≤ 2 ^ 24 * single.unit ordinal := by
  rw [single.value_succ single_precision]
  exact single.value_add_unit_le single_precision ordinal

/-- A point that does not read back is at least half a unit away. -/
theorem Repelled.unit_le {ordinal : ℕ} {e : ℤ} {w : Literal} (h : Repelled (ordinal + 1) e w)
    (hFinite : ordinal < single.infinity) (hLow : -400 ≤ e) (hHigh : e ≤ 400) :
    single.unit ordinal ≤ 10 ^ e := by
  by_contra hLess
  have hUnits := unit_le_succ ordinal
  obtain ⟨hBelow, hAbove⟩ := abs_le.mp h.near
  refine h.misread (reads_of_middles hFinite ?_ ?_ ?_)
  · exact ⟨by rw [h.grid, Literal.reach]; exact hLow, by rw [h.grid, Literal.reach]; exact hHigh⟩
  · rw [middle_eq]
    linarith
  · rw [BinaryFormat.middle]
    linarith

/-- Where a grid has no point, the number has few digits in its steps. -/
theorem Offers.value_le {ordinal : ℕ} {e : ℤ} (h : Offers (ordinal + 1) e none)
    (hFinite : ordinal < single.infinity) (hLow : -400 ≤ e) (hHigh : e ≤ 400) :
    single.value (ordinal + 1) ≤ 2 ^ 24 * 10 ^ e := by
  have hPower : (0 : ℚ) < 10 ^ e := by positivity
  cases h with
  | small hSmall => linarith
  | neither hRepelled =>
      have hUnits := hRepelled.unit_le hFinite hLow hHigh
      have hValue := value_succ_le ordinal
      linarith

/-! ### The grid of the shortest literal -/

theorem least_le_unit (ordinal : ℕ) : (2 : ℚ) ^ (-149 : ℤ) ≤ single.unit ordinal :=
  zpow_le_zpow_right₀ one_le_two (least_le_magnitude ordinal)

theorem unit_le_value (ordinal : ℕ) : single.unit ordinal ≤ single.value (ordinal + 1) := by
  rw [single.value_succ single_precision]
  linarith [single.value_nonneg ordinal]

theorem value_lt_range {ordinal : ℕ} (h : ordinal < single.infinity) : single.value ordinal < 2 ^ 128 := by
  have hInfinity : single.magnitude single.infinity = ⟨2 ^ 23, 105⟩ := by decide
  refine (single.strictMono_value single_precision h).trans_eq ?_
  rw [BinaryFormat.value, hInfinity, Dyadic.value]
  norm_num

/-- The finest grid that is needed has a point for every number. -/
theorem neighbour?_finest (tie : Tie) {ordinal : ℕ} (hFinite : ordinal < single.infinity) :
    neighbour? tie (ordinal + 1) (-45) ≠ none := by
  intro hNone
  have hPower : (0 : ℚ) < 10 ^ (-45 : ℤ) := by positivity
  have hFine : (10 : ℚ) ^ (-45 : ℤ) < 2 ^ (-149 : ℤ) := by norm_num
  have hUnit := least_le_unit ordinal
  have hValue := unit_le_value ordinal
  have hOffers := offers_neighbour? tie (ordinal + 1) (-45)
  rw [hNone] at hOffers
  cases hOffers with
  | small hSmall =>
      have hLess := hSmall.trans (half_lt_self hPower)
      exact (hLess.trans (hFine.trans_le (hUnit.trans hValue))).false
  | neither hRepelled =>
      have hCoarse := hRepelled.unit_le hFinite (by decide) (by decide)
      linarith

/-- The search ends at a point of a grid, and the next coarser grid, if it was tried, has
none. Nothing is said here of grids that are coarser still. -/
theorem shortestFrom_spec (tie : Tie) {ordinal : ℕ} (hFinite : ordinal < single.infinity)
    (grids : ℕ) {e : ℤ} (hLow : -45 ≤ e) (hEnough : e - grids < -45) :
    ∃ d, shortestFrom tie (ordinal + 1) e grids = d ∧
      neighbour? tie (ordinal + 1) d.exponent = some d ∧ -45 ≤ d.exponent ∧
        (d.exponent = e ∨ neighbour? tie (ordinal + 1) (d.exponent + 1) = none) := by
  induction grids generalizing e with
  | zero =>
      rw [Nat.cast_zero, sub_zero] at hEnough
      omega
  | succ grids ih =>
      unfold shortestFrom
      split
      · rename_i d hSome
        obtain ⟨-, hExponent⟩ := neighbour?_readsBack hSome
        exact ⟨d, rfl, by rwa [hExponent], by omega, .inl hExponent⟩
      · rename_i hNone
        have hFiner : -45 ≤ e - 1 := by
          have hOther : e ≠ -45 := fun hSame => neighbour?_finest tie hFinite (hSame ▸ hNone)
          omega
        push_cast at hEnough
        obtain ⟨d, hSearch, hSome, hLeast, hCoarser⟩ := ih hFiner (by omega)
        refine ⟨d, hSearch, hSome, hLeast, .inr ?_⟩
        obtain hSame | hCoarser := hCoarser
        · rwa [hSame, sub_add_cancel]
        · exact hCoarser

theorem exponent_le {ordinal : ℕ} (h : ordinal < single.infinity) :
    (single.magnitude ordinal).exponent ≤ 104 := by
  have hQuotient : ordinal / 2 ^ 23 < 255 := Nat.div_lt_of_lt_mul (by simpa [single] using h)
  unfold BinaryFormat.magnitude
  dsimp only [single]
  split
  · change (-149 : ℤ) ≤ 104
    decide
  · dsimp only [Nat.pow_eq]
    omega

/-- The order that is taken for the coarsest grid is above that of the power of two. -/
theorem coarsest_powers {i : ℕ} (h : i < 278) : -45 ≤ ((i : ℕ) - 149 : ℤ) * 30103 / 100000 + 1 ∧
    (2 : ℚ) ^ ((i : ℤ) - 149) ≤ 10 ^ (((i : ℕ) - 149 : ℤ) * 30103 / 100000 + 1) := by
  have hAll : ∀ i : Fin 278, -45 ≤ ((i : ℕ) - 149 : ℤ) * 30103 / 100000 + 1 ∧
      2 ^ (i : ℕ) * 10 ^ 149 ≤
        10 ^ (((i : ℕ) - 149 : ℤ) * 30103 / 100000 + 1 + 149).toNat * 2 ^ 149 := by decide +kernel
  obtain ⟨hLow, hPowers⟩ := hAll ⟨i, h⟩
  dsimp only at hLow hPowers
  refine ⟨hLow, ?_⟩
  obtain ⟨c, hGrid⟩ : ∃ c : ℕ, ((i : ℤ) - 149) * 30103 / 100000 + 1 = c - 149 :=
    ⟨(((i : ℤ) - 149) * 30103 / 100000 + 1 + 149).toNat, by omega⟩
  rw [hGrid, sub_add_cancel, Int.toNat_natCast] at hPowers
  have hCast : (2 : ℚ) ^ i * 10 ^ 149 ≤ 10 ^ c * 2 ^ 149 := by exact_mod_cast hPowers
  rw [hGrid]
  calc (2 : ℚ) ^ ((i : ℤ) - 149) = 2 ^ i / 2 ^ 149 := by
        rw [zpow_sub₀ two_ne_zero, zpow_natCast]
        rfl
    _ ≤ 10 ^ c / 10 ^ 149 := by
        rw [div_le_div_iff₀ (by positivity) (by positivity)]
        exact hCast
    _ = 10 ^ ((c : ℤ) - 149) := by
        rw [zpow_sub₀ (by norm_num), zpow_natCast]
        rfl

/-- The coarsest grid has no step below the number. -/
theorem value_le_coarsest {ordinal : ℕ} (hFinite : ordinal + 1 < single.infinity) :
    single.value (ordinal + 1) ≤ 10 ^ coarsestGrid (ordinal + 1) ∧
      -45 ≤ coarsestGrid (ordinal + 1) := by
  obtain ⟨hSmall, hAbove, -⟩ := single.holds_magnitude single_precision (ordinal + 1)
  have hMost := exponent_le hFinite
  have hPos : 0 < (single.magnitude (ordinal + 1)).significand := by
    refine Nat.pos_of_ne_zero fun hZero => (single.unit_pos ordinal).not_ge ?_
    refine (unit_le_value ordinal).trans ?_
    rw [BinaryFormat.value, Dyadic.value, hZero, Nat.cast_zero, zero_mul]
  rw [BinaryFormat.value]
  unfold coarsestGrid
  generalize single.magnitude (ordinal + 1) = d at hSmall hAbove hMost hPos ⊢
  obtain ⟨m, e⟩ := d
  dsimp only at hSmall hAbove hMost hPos ⊢
  have hLog := (Nat.log2_lt hPos.ne').mpr hSmall
  have hLeast : -149 ≤ e := hAbove
  have hPrecision : m.log2 < 24 := hLog
  obtain ⟨i, hOrder⟩ : ∃ i : ℕ, e + m.log2 + 1 = i - 149 :=
    ⟨(e + m.log2 + 1 + 149).toNat, by omega⟩
  obtain ⟨hLow, hPowers⟩ := coarsest_powers (i := i) (by omega)
  rw [hOrder]
  refine ⟨le_trans ?_ hPowers, hLow⟩
  have hSignificand : (m : ℚ) ≤ 2 ^ (m.log2 + 1) := by exact_mod_cast Nat.lt_log2_self.le
  rw [← hOrder, Dyadic.value, add_assoc, zpow_add₀ two_ne_zero, mul_comm]
  gcongr
  exact_mod_cast hSignificand

/-- The shortest literal of a number is a point of a grid of the kind that is written, with few
digits. -/
theorem shortest_spec (tie : Tie) {ordinal : ℕ} (hFinite : ordinal + 1 < single.infinity) :
    ∃ d, shortest tie (ordinal + 1) = d ∧ neighbour? tie (ordinal + 1) d.exponent = some d ∧
      d.nearest single = ordinal + 1 ∧ -45 ≤ d.exponent ∧ d.exponent ≤ 38 ∧
        0 < d.digits ∧ d.digits < 2 ^ 28 := by
  have hBefore : ordinal < single.infinity := by omega
  obtain ⟨hCoarsest, hLeast⟩ := value_le_coarsest hFinite
  obtain ⟨d, hSearch, hSome, hLow, hCoarser⟩ := shortestFrom_spec tie hBefore
    (coarsestGrid (ordinal + 1) + 149).toNat hLeast (by omega)
  obtain ⟨hReads, -⟩ := neighbour?_readsBack hSome
  obtain ⟨hHalf, hValue⟩ := (hSome ▸ offers_neighbour? tie (ordinal + 1) d.exponent).bounds
  have hPower : (0 : ℚ) < 10 ^ d.exponent := by positivity
  have hHigh : d.exponent ≤ 38 := by
    have hRange := value_lt_range hFinite
    have hLess : (10 : ℚ) ^ d.exponent < 10 ^ (39 : ℤ) := by
      have hDouble : (10 : ℚ) ^ d.exponent < 2 * 2 ^ 128 := by linarith
      exact hDouble.trans (by norm_num)
    have hExponent := (zpow_lt_zpow_iff_right₀ (by norm_num)).mp hLess
    omega
  refine ⟨d, hSearch, hSome, hReads, hLow, hHigh, ?_, ?_⟩
  · refine Nat.pos_of_ne_zero fun hZero => ?_
    rw [Literal.nearest, if_pos hZero] at hReads
    cases hReads
  · have hMost : single.value (ordinal + 1) ≤ 2 ^ 24 * 10 * 10 ^ d.exponent := by
      obtain hSame | hNone := hCoarser
      · rw [← hSame] at hCoarsest
        linarith
      · have hValueNext := (hNone ▸ offers_neighbour? tie (ordinal + 1) (d.exponent + 1)).value_le
          hBefore (by omega) (by omega)
        rwa [zpow_add_one₀ (by norm_num), mul_comm (10 ^ d.exponent), ← mul_assoc] at hValueNext
    have hDigits : (d.digits : ℚ) ≤ 2 ^ 24 * 10 + 1 := by
      rw [Literal.value] at hValue
      refine le_of_mul_le_mul_right ?_ hPower
      linarith
    have hCast : d.digits ≤ 2 ^ 24 * 10 + 1 := by exact_mod_cast hDigits
    omega

end PathTracer.Decimal
