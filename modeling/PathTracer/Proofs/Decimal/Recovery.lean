import PathTracer.Proofs.Decimal.Misses
import PathTracer.Proofs.Decimal.Nearness
import PathTracer.Proofs.Decimal.Spelling

/-! The shortest literal of a number is read back by scaling as well. Scaling moves a
literal so little that it could cross a middle only from close by. On a fine grid the
literal is the nearer neighbour of the number, and not close to a middle; on a coarse one
it has few digits, and the literals of few digits close to a middle are all known. -/
namespace PathTracer.Decimal

/-! ### Numbers of binary64 between the middles -/

theorem narrow_of_middles {ordinal wide : ℕ} (hFinite : ordinal < single.infinity)
    (hLow : single.middle ordinal < double.value wide)
    (hHigh : double.value wide < single.middle (ordinal + 1)) : narrow wide = ordinal + 1 := by
  refine single.nearest_of_middles single_precision hFinite (Dyadic.ratio_pos _) ?_ ?_
  · rwa [Dyadic.ratio_value]
  · rwa [Dyadic.ratio_value]

/-- What is scaled without rounding is rounded as the literal itself. -/
theorem narrow_of_value_eq {d : Literal} {wide : ℕ} (hNear : d.Near)
    (h : double.value wide = d.value) : narrow wide = d.nearest single := by
  rw [hNear.nearest_eq, narrow]
  refine single.nearest_congr (Dyadic.ratio_pos _) d.ratio_pos ?_
  rw [Dyadic.ratio_value, Literal.ratio_value, ← h, BinaryFormat.value]

theorem Literal.Moderate.near {d : Literal} (h : d.Moderate) : d.Near := by
  obtain ⟨-, -, hLow, hHigh⟩ := h
  exact ⟨by rw [reach]; omega, by rw [reach]; omega⟩

/-- A middle is half a unit above a number. -/
theorem exists_middle (ordinal : ℕ) : ∃ (m : ℕ) (q : ℤ), m < 2 ^ 25 ∧ -150 ≤ q ∧
    single.middle ordinal = m * 2 ^ q ∧ single.unit ordinal = 2 ^ (q + 1) := by
  obtain ⟨hSmall, hAbove, -⟩ := single.holds_magnitude single_precision ordinal
  refine ⟨2 * (single.magnitude ordinal).significand + 1, (single.magnitude ordinal).exponent - 1,
    ?_, ?_, ?_, by rw [sub_add_cancel]; rfl⟩
  · have hPrecision : (single.magnitude ordinal).significand < 2 ^ 24 := hSmall
    omega
  · have hLeast : -149 ≤ (single.magnitude ordinal).exponent := hAbove
    omega
  · rw [BinaryFormat.middle, BinaryFormat.value, BinaryFormat.unit, Dyadic.value,
      zpow_sub_one₀ two_ne_zero]
    push_cast
    ring

/-- A number that is both decimal and binary, without fractions. -/
theorem whole_of_dyadic {n m : ℕ} {e q : ℤ} (h : Literal.value ⟨n, e⟩ = m * 2 ^ q) :
    n * 10 ^ e.toNat * 2 ^ (-q).toNat = m * 2 ^ q.toNat * 10 ^ (-e).toNat := by
  have hTen : (10 : ℚ) ^ e.toNat = 10 ^ e * 10 ^ (-e).toNat := by
    rw [← zpow_natCast, ← zpow_natCast, ← zpow_add₀ (by norm_num)]
    congr 1
    omega
  have hTwo : (2 : ℚ) ^ q.toNat = 2 ^ q * 2 ^ (-q).toNat := by
    rw [← zpow_natCast, ← zpow_natCast, ← zpow_add₀ two_ne_zero]
    congr 1
    omega
  have hCast : (n * 10 ^ e.toNat * 2 ^ (-q).toNat : ℚ) = m * 2 ^ q.toNat * 10 ^ (-e).toNat := by
    rw [hTen, hTwo]
    rw [Literal.value] at h
    linear_combination (10 ^ (-e).toNat * 2 ^ (-q).toNat : ℚ) * h
  exact_mod_cast hCast

/-- A power of five in a number is not that of a power of two. -/
theorem five_pow_le {n k j : ℕ} (hPos : 0 < n) (h : 5 ^ k ∣ n * 2 ^ j) : 5 ^ k ≤ n :=
  Nat.le_of_dvd hPos (Nat.Coprime.dvd_of_dvd_mul_right (Nat.Coprime.pow k j (by decide)) h)

/-- A decimal literal that is a binary number of few digits has a small exponent. -/
theorem exponent_of_dyadic {n m : ℕ} {e q : ℤ} (hPos : 0 < n) (hDigits : n < 2 ^ 53)
    (hMiddle : m < 2 ^ 25) (h : Literal.value ⟨n, e⟩ = m * 2 ^ q) : -22 ≤ e ∧ e ≤ 22 := by
  have hWhole := whole_of_dyadic h
  have hFive (k : ℕ) : 5 ^ k ∣ 10 ^ k := pow_dvd_pow_of_dvd (by decide) k
  constructor
  · by_contra hLow
    obtain ⟨k, hPlaces⟩ := Nat.exists_eq_add_of_le (show 23 ≤ (-e).toNat by omega)
    have hDvd : 5 ^ 23 ∣ n * 2 ^ (-q).toNat := by
      rw [show e.toNat = 0 by omega, pow_zero, mul_one] at hWhole
      rw [hWhole, hPlaces, pow_add]
      exact ((hFive 23).mul_right _).mul_left _
    have hLeast := five_pow_le hPos hDvd
    omega
  · by_contra hHigh
    obtain ⟨k, hPlaces⟩ := Nat.exists_eq_add_of_le (show 23 ≤ e.toNat by omega)
    have hSome : 0 < m := by
      refine Nat.pos_of_ne_zero fun hZero => ?_
      rw [hZero, zero_mul, zero_mul] at hWhole
      have hProduct : 0 < n * 10 ^ e.toNat * 2 ^ (-q).toNat := by positivity
      omega
    have hDvd : 5 ^ 23 ∣ m * 2 ^ q.toNat := by
      rw [show (-e).toNat = 0 by omega, pow_zero, mul_one] at hWhole
      rw [← hWhole, hPlaces, pow_add]
      exact (((hFive 23).mul_right _).mul_left _).mul_right _
    have hLeast := five_pow_le hSome hDvd
    omega

/-- A literal in the very middle between two numbers is scaled without rounding. -/
theorem narrow_of_middle {d : Literal} {ordinal : ℕ} (h : d.Moderate)
    (hMiddle : d.value = single.middle ordinal) : narrow d.wide = d.nearest single := by
  obtain ⟨m, q, hSmall, hLeast, hValue, -⟩ := exists_middle ordinal
  rw [hValue] at hMiddle
  obtain ⟨hLow, hHigh⟩ := exponent_of_dyadic h.pos h.small hSmall hMiddle
  exact narrow_of_value_eq h.near
    (Literal.value_wide h hLow hHigh (by omega) (by omega) hMiddle)

/-! ### Close to a middle -/

/-- Where scaling crosses a middle, the literal is close to it. -/
theorem close_of_crossed {v y b : ℚ} (hPos : 0 < v) (hScaled : |y - v| ≤ v * (9 / 2 ^ 55))
    (hCrossed : y ≤ b ∧ b ≤ v ∨ v ≤ b ∧ b ≤ y) : |v - b| ≤ b * (5 / 2 ^ 54) := by
  obtain ⟨hLow, hHigh⟩ := abs_le.mp hScaled
  rw [abs_le]
  obtain ⟨hBelow, hAbove⟩ | ⟨hBelow, hAbove⟩ := hCrossed
  · constructor <;> linarith
  · constructor <;> linarith

/-- The literal that a grid offers for a number, which it reads back as. -/
structure Offered (tie : Tie) (ordinal : ℕ) (d : Literal) : Prop where
  finite : ordinal + 1 < single.infinity
  offer : neighbour? tie (ordinal + 1) d.exponent = some d
  low : -45 ≤ d.exponent
  high : d.exponent ≤ 38
  pos : 0 < d.digits
  small : d.digits < 2 ^ 28

namespace Offered

variable {tie : Tie} {ordinal : ℕ} {d : Literal} (h : Offered tie ordinal d)

include h

theorem moderate : d.Moderate := by
  obtain ⟨-, -, hLow, hHigh, hPos, hSmall⟩ := h
  exact ⟨hPos, by omega, by omega, by omega⟩

theorem reads : d.nearest single = ordinal + 1 :=
  (neighbour?_readsBack h.offer).1

theorem between : single.middle ordinal ≤ d.value ∧ d.value ≤ single.middle (ordinal + 1) := by
  have hReads := h.reads
  rw [h.moderate.near.nearest_eq] at hReads
  have hMiddles := single.middles_of_nearest single_precision h.finite d.ratio_pos hReads
  rwa [d.ratio_value] at hMiddles

/-- The literal is the nearer neighbour, or the other one where the nearer one does not read
back. -/
theorem near_or_far : |d.value - single.value (ordinal + 1)| ≤ 10 ^ d.exponent / 2 ∨
    ∃ w, Repelled (ordinal + 1) d.exponent w :=
  (h.offer ▸ offers_neighbour? tie (ordinal + 1) d.exponent).near_or_far

/-- On a coarse grid a literal close to the middle after some number reads as it should. -/
theorem narrow_of_coarse {b : ℚ} {m : ℕ} {q : ℤ} (hMiddle : m ≤ 2 ^ 25 + 2) (hValue : b = m * 2 ^ q)
    (hCoarse : (2 : ℚ) ^ (q + 1) ≤ 10 ^ d.exponent) (hNe : d.value ≠ b)
    (hClose : |d.value - b| ≤ b * (5 / 2 ^ 54)) : narrow d.wide = ordinal + 1 := by
  rw [hValue] at hNe hClose
  exact ((checked h.low h.high).readsRight h.pos hMiddle hCoarse hNe hClose).trans h.reads

/-- A literal close to the middle below its number reads as it should. -/
theorem narrow_of_close_below (hNe : d.value ≠ single.middle ordinal)
    (hClose : |d.value - single.middle ordinal| ≤ single.middle ordinal * (5 / 2 ^ 54)) :
    narrow d.wide = ordinal + 1 := by
  have hBefore : ordinal < single.infinity := by
    have hFinite := h.finite
    omega
  obtain ⟨m, q, hSmall, -, hValue, hUnit⟩ := exists_middle ordinal
  by_cases hCoarse : single.unit ordinal ≤ 10 ^ d.exponent
  · exact h.narrow_of_coarse (by omega) hValue (hUnit ▸ hCoarse) hNe hClose
  · have hFine := (checked h.low h.high).le_of_lt (k := q + 1) (hUnit ▸ not_le.mp hCoarse)
    rw [← hUnit] at hFine
    obtain hNear | ⟨w, hRepelled⟩ := h.near_or_far
    · have hBelow := value_succ_le ordinal
      have hPos := single.unit_pos ordinal
      have hMiddle := middle_eq ordinal
      obtain ⟨hLow, -⟩ := abs_le.mp hNear
      obtain ⟨-, hHigh⟩ := abs_le.mp hClose
      linarith
    · exact absurd (hRepelled.unit_le hBefore (by linarith [h.low]) (by linarith [h.high])) hCoarse

/-- A literal close to the middle above its number reads as it should. -/
theorem narrow_of_close_above (hNe : d.value ≠ single.middle (ordinal + 1))
    (hClose : |d.value - single.middle (ordinal + 1)| ≤
      single.middle (ordinal + 1) * (5 / 2 ^ 54)) : narrow d.wide = ordinal + 1 := by
  have hBefore : ordinal < single.infinity := by
    have hFinite := h.finite
    omega
  obtain ⟨m, q, hSmall, -, hValue, hUnit⟩ := exists_middle (ordinal + 1)
  by_cases hCoarse : single.unit (ordinal + 1) ≤ 10 ^ d.exponent
  · exact h.narrow_of_coarse (by omega) hValue (hUnit ▸ hCoarse) hNe hClose
  · have hFine := (checked h.low h.high).le_of_lt (k := q + 1) (hUnit ▸ not_le.mp hCoarse)
    rw [← hUnit] at hFine
    obtain hNear | ⟨w, hRepelled⟩ := h.near_or_far
    · have hBelow := single.value_add_unit_le single_precision (ordinal + 1)
      have hPos := single.unit_pos (ordinal + 1)
      obtain ⟨-, hHigh⟩ := abs_le.mp hNear
      obtain ⟨hLow, -⟩ := abs_le.mp hClose
      rw [show single.precision = 24 from rfl] at hBelow
      rw [BinaryFormat.middle] at hLow
      linarith
    · -- The nearer neighbour lies beyond the closer middle below, so that the units start again
      -- at the number.
      have hUnits := hRepelled.unit_le hBefore (by linarith [h.low]) (by linarith [h.high])
      obtain ⟨k, j, -, -, -, hLess⟩ := exists_middle ordinal
      obtain hSame | ⟨hTwice, hStart⟩ := single.unit_succ single_precision ordinal
      · exact absurd (hSame ▸ hUnits) hCoarse
      · refine h.narrow_of_coarse (m := 2 ^ 25 + 2) (q := j) le_rfl ?_ (hLess ▸ hUnits) hNe hClose
        rw [zpow_add_one₀ two_ne_zero] at hLess
        rw [BinaryFormat.middle, hStart, hTwice, hLess, show single.precision = 24 from rfl]
        push_cast
        ring

/-- Scaling and rounding once more give the number. -/
theorem narrow_wide : narrow d.wide = ordinal + 1 := by
  obtain ⟨hLow, hHigh⟩ := h.between
  have hScaled := Literal.abs_value_wide_sub_le h.moderate
  have hBefore : ordinal < single.infinity := by
    have hFinite := h.finite
    omega
  have hPos : (0 : ℚ) < d.value := lt_of_lt_of_le (by positivity) h.moderate.value_bounds.1
  by_cases hBelow : d.value = single.middle ordinal
  · exact (narrow_of_middle h.moderate hBelow).trans h.reads
  by_cases hAbove : d.value = single.middle (ordinal + 1)
  · exact (narrow_of_middle h.moderate hAbove).trans h.reads
  by_cases hCrossedBelow : double.value d.wide ≤ single.middle ordinal
  · exact h.narrow_of_close_below hBelow
      (close_of_crossed hPos hScaled (.inl ⟨hCrossedBelow, hLow⟩))
  by_cases hCrossedAbove : single.middle (ordinal + 1) ≤ double.value d.wide
  · exact h.narrow_of_close_above hAbove
      (close_of_crossed hPos hScaled (.inr ⟨hHigh, hCrossedAbove⟩))
  exact narrow_of_middles hBefore (not_le.mp hCrossedBelow) (not_le.mp hCrossedAbove)

end Offered

/-- The shortest literal of a number is one that is offered. -/
theorem offered_shortest (tie : Tie) {ordinal : ℕ} (hFinite : ordinal + 1 < single.infinity) :
    Offered tie ordinal (shortest tie (ordinal + 1)) := by
  obtain ⟨d, rfl, hSome, -, hLow, hHigh, hPos, hSmall⟩ := shortest_spec tie hFinite
  exact ⟨hFinite, hSome, hLow, hHigh, hPos, hSmall⟩

/-! ### Spelled numbers -/

/-- Digits are worth less than the power of ten of their number. -/
theorem digitsValue_lt {digits : List Char} (h : ∀ c ∈ digits, c.isDigit = true) (before : ℕ) :
    digitsValue digits before < (before + 1) * 10 ^ digits.length := by
  induction digits generalizing before with
  | nil => simp [digitsValue]
  | cons c rest ih =>
      have hDigit : digitValue c < 10 := by
        have hRange := h c List.mem_cons_self
        unfold digitValue
        simp only [Char.isDigit, Bool.and_eq_true, decide_eq_true_eq, UInt32.le_iff_toNat_le] at hRange
        have hLast : c.toNat ≤ 57 := hRange.2
        have hFirst : '0'.toNat = 48 := rfl
        omega
      have hRest := ih (fun d hd => h d (List.mem_cons_of_mem _ hd)) (before * 10 + digitValue c)
      have hStep : (before * 10 + digitValue c + 1) * 10 ^ rest.length ≤
          (before + 1) * 10 * 10 ^ rest.length := Nat.mul_le_mul_right _ (by omega)
      rw [List.length_cons, pow_succ, mul_comm (10 ^ rest.length), ← mul_assoc]
      exact hRest.trans_le hStep

theorem lt_pow_length_digitsOf (n : ℕ) : n < 10 ^ (digitsOf n).length := by
  have hDigits : ∀ c ∈ digitsOf n, c.isDigit = true := fun _ => isDigit_of_mem_digitsOf
  have hValue := digitsValue_lt hDigits 0
  rwa [digitsValue_digitsOf, Nat.zero_add, Nat.one_mul] at hValue

/-- A literal without places, or with a superfluous one, is scaled without rounding. -/
theorem narrow_whole {d : Literal} {n : ℕ} (hPos : 0 < n) (hSmall : n < 2 ^ 49)
    (hWhole : d = ⟨n, 0⟩ ∨ d = ⟨n * 10, -1⟩) : d.Moderate ∧ narrow d.wide = d.nearest single := by
  have hParts : d.digits = n ∧ d.exponent = 0 ∨ d.digits = n * 10 ∧ d.exponent = -1 := by
    obtain rfl | rfl := hWhole
    · exact .inl ⟨rfl, rfl⟩
    · exact .inr ⟨rfl, rfl⟩
  have hModerate : d.Moderate := ⟨by omega, by omega, by omega, by omega⟩
  have hValue : d.value = n * 2 ^ (0 : ℤ) := by
    obtain rfl | rfl := hWhole
    · simp [Literal.value]
    · simp [Literal.value]
  refine ⟨hModerate, narrow_of_value_eq hModerate.near ?_⟩
  exact Literal.value_wide hModerate (by omega) (by omega) (by omega) (by decide) hValue

/-- Settings spell a literal with its own digits, or as a small whole number with its zeros.
The zeros are read as digits then. -/
theorem literal_settings (d : Literal) (hPos : 0 < d.digits) :
    (Style.settings.numeral d).literal = d ∨ ∃ n < 2 ^ 49, 0 < n ∧
      ((Style.settings.numeral d).literal = ⟨n, 0⟩ ∨
        (Style.settings.numeral d).literal = ⟨n * 10, -1⟩) := by
  obtain ⟨n, e⟩ := d
  unfold Style.numeral Style.settings
  dsimp only at hPos ⊢
  split
  · rename_i hPlain
    refine (Style.literal_positionalNumeral _ n e).imp id fun ⟨hWhole, hLiteral⟩ =>
      ⟨n * 10 ^ e.toNat, ?_, Nat.mul_pos hPos (Nat.pow_pos (by decide)), hLiteral⟩
    have hOrder : e.toNat + (digitsOf n).length ≤ 13 := by
      simp only [Bool.or_eq_true, Bool.and_eq_true, decide_eq_true_eq] at hPlain
      omega
    calc n * 10 ^ e.toNat < 10 ^ (digitsOf n).length * 10 ^ e.toNat :=
          Nat.mul_lt_mul_of_pos_right (lt_pow_length_digitsOf n) (Nat.pow_pos (by decide))
      _ = 10 ^ (e.toNat + (digitsOf n).length) := by rw [← pow_add, add_comm]
      _ ≤ 10 ^ 13 := Nat.pow_le_pow_right (by decide) hOrder
      _ < 2 ^ 49 := by decide
  · exact .inl (Style.literal_scientificNumeral _ n e)

/-- The literal that settings spell a positive number as is read back by scaling. -/
theorem narrow_spelled {ordinal : ℕ} (hFinite : ordinal + 1 < single.infinity) :
    (Style.settings.numeral (shortest .even (ordinal + 1))).literal.Moderate ∧
      narrow (Style.settings.numeral (shortest .even (ordinal + 1))).literal.wide = ordinal + 1 := by
  have hOffered := offered_shortest .even hFinite
  obtain ⟨hValue, hNear⟩ := Style.settings.literal_numeral hOffered.moderate.near
  generalize shortest .even (ordinal + 1) = d at hOffered hValue hNear ⊢
  obtain hSame | ⟨n, hSmall, hPos, hWhole⟩ := literal_settings d hOffered.pos
  · rw [hSame]
    exact ⟨hOffered.moderate, hOffered.narrow_wide⟩
  · obtain ⟨hModerate, hNarrow⟩ := narrow_whole hPos hSmall hWhole
    refine ⟨hModerate, hNarrow.trans ?_⟩
    rw [hNear.nearest_congr hOffered.moderate.near hValue, hOffered.reads]

/-- Scaling reads every finite number from its spelling in settings, whose digits fit into a
coefficient. -/
theorem throughDouble?_spelled {x : Float32} (h : x.isFinite = true) :
    (Style.settings.numeral (literalOf .settings x)).literal.digits < coefficientBound ∧
      (Style.settings.numeral (literalOf .settings x)).literal.throughDouble?
        (Binary32.signBit x) = some x := by
  have hFinite := toOrdinal_lt h
  rw [← congrArg some (ofOrdinal_toOrdinal h)]
  unfold literalOf
  split
  · rename_i hZero
    rw [hZero]
    exact ⟨by decide, Literal.throughDouble?_zero _ _⟩
  · rename_i hSome
    obtain ⟨ordinal, hNext⟩ := Nat.exists_eq_succ_of_ne_zero hSome
    rw [Nat.succ_eq_add_one] at hNext
    rw [hNext] at hFinite ⊢
    obtain ⟨hModerate, hNarrow⟩ := narrow_spelled hFinite
    refine ⟨hModerate.small.trans (by decide), ?_⟩
    change (Style.settings.numeral (shortest .even (ordinal + 1))).literal.throughDouble? _ = _
    rw [Literal.throughDouble?_eq hModerate, hNarrow]

end PathTracer.Decimal
