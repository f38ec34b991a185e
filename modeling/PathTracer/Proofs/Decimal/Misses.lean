import PathTracer.Proofs.Decimal.Brackets
import PathTracer.Proofs.Decimal.Scaling

/-! Decimal literals close to the middle between two numbers of binary32. A short
literal that is so close that scaling might cross the middle is a denominator of a
fraction close to a power of ten. There are few of them, and they are read one by
one. -/
namespace PathTracer.Decimal

/-! ### Powers of ten in binary -/

/-- A power of ten is a ratio between two and four times a power of two: the numerator of that
ratio. -/
def tensNum : ℤ → ℕ
  | .ofNat k => 2 * 5 ^ k
  | .negSucc k => 2 ^ (Nat.log2 (5 ^ (k + 1)) + 2)

/-- The denominator of that ratio. -/
def tensDen : ℤ → ℕ
  | .ofNat k => 2 ^ Nat.log2 (5 ^ k)
  | .negSucc k => 5 ^ (k + 1)

/-- The exponent of that power of two. -/
def tensOrder : ℤ → ℤ
  | .ofNat k => k + Nat.log2 (5 ^ k) - 1
  | .negSucc k => -(k + 1 : ℕ) - Nat.log2 (5 ^ (k + 1)) - 2

theorem tensDen_pos (e : ℤ) : 0 < tensDen e := by
  cases e with
  | ofNat k => exact Nat.two_pow_pos _
  | negSucc k => exact Nat.pow_pos (by decide)

/-- A power of ten is a fraction of natural numbers and a power of two, which keeps the
numbers of the search small. -/
theorem ten_zpow_eq (e : ℤ) : (10 : ℚ) ^ e = tensNum e / tensDen e * 2 ^ tensOrder e := by
  cases e with
  | ofNat k =>
      simp only [tensNum, tensDen, tensOrder, Int.ofNat_eq_natCast]
      rw [zpow_sub_one₀ two_ne_zero, zpow_add₀ two_ne_zero, zpow_natCast, zpow_natCast, zpow_natCast,
        show (10 : ℚ) = 2 * 5 by norm_num, mul_pow]
      push_cast
      field_simp
  | negSucc k =>
      simp only [tensNum, tensDen, tensOrder]
      rw [zpow_sub₀ two_ne_zero, zpow_sub₀ two_ne_zero, zpow_neg, zpow_natCast, zpow_natCast,
        zpow_negSucc, show (10 : ℚ) = 2 * 5 by norm_num, mul_pow]
      push_cast
      field_simp
      ring

/-! ### Short literals -/

/-- The greatest multiple of a power of ten that is tried. -/
def mostMultiple (e : ℤ) : ℕ :=
  (2 ^ 25 + 3) * tensDen e / tensNum e

/-- How close to a middle a multiple has to be for scaling to cross it. -/
def slack (e : ℤ) : ℕ :=
  tensDen e * (2 ^ 25 + 2) * 5 / 2 ^ 54

theorem le_slack {e x : ℤ} (h : ((|x| : ℤ) : ℚ) ≤ tensDen e * (2 ^ 25 + 2) * (5 / 2 ^ 54)) :
    |x| ≤ slack e := by
  have hWhole : |x| * 2 ^ 54 ≤ tensDen e * (2 ^ 25 + 2) * 5 := by
    rw [mul_div_assoc', le_div_iff₀ (by positivity)] at h
    exact_mod_cast h
  have hNonneg := abs_nonneg x
  unfold slack
  omega

/-- The fractions around a power of ten beyond which no multiple is tried. -/
def bracket (e : ℤ) : Bracket :=
  .narrowed (mostMultiple e) 2000 (.start (tensNum e) (tensDen e))

/-- A power of ten is not close to the next power of two, and the few multiples of it that are
close to a middle are read as they should. -/
structure Checked (e : ℤ) : Prop where
  low : 2 * tensDen e ≤ tensNum e
  high : 64 * tensNum e ≤ 255 * tensDen e
  close : slack e = 0 ∨ (bracket e).Sharp (mostMultiple e) (slack e) ∧
    ∀ n ∈ (bracket e).suspects (slack e), n % 2 = 1 ∧
      narrow (Literal.wide ⟨n, e⟩) = Literal.nearest single ⟨n, e⟩

instance (e : ℤ) : Decidable (Checked e) :=
  decidable_of_iff ((2 * tensDen e ≤ tensNum e ∧ 64 * tensNum e ≤ 255 * tensDen e) ∧
    (slack e = 0 ∨ (bracket e).Sharp (mostMultiple e) (slack e) ∧
      ∀ n ∈ (bracket e).suspects (slack e), n % 2 = 1 ∧
        narrow (Literal.wide ⟨n, e⟩) = Literal.nearest single ⟨n, e⟩))
    ⟨fun h => ⟨h.1.1, h.1.2, h.2⟩, fun h => ⟨⟨h.low, h.high⟩, h.close⟩⟩

/-- The exponents of the literals that are written. -/
theorem checked {e : ℤ} (hLow : -45 ≤ e) (hHigh : e ≤ 38) : Checked e := by
  have hAll : ∀ i : Fin 84, Checked ((i : ℕ) - 45 : ℤ) := by decide +kernel
  have hIndex := hAll ⟨(e + 45).toNat, by omega⟩
  rwa [show (((e + 45).toNat : ℕ) - 45 : ℤ) = e by omega] at hIndex

namespace Checked

variable {e : ℤ} (h : Checked e)

include h

/-- A power of ten below a power of two is below it by some part. -/
theorem le_of_lt {k : ℤ} (hLess : (10 : ℚ) ^ e < 2 ^ k) : (10 : ℚ) ^ e ≤ 255 / 256 * 2 ^ k := by
  have hDen : (0 : ℚ) < tensDen e := by exact_mod_cast tensDen_pos e
  have hLow : (2 : ℚ) ≤ tensNum e / tensDen e := by
    rw [le_div_iff₀ hDen]
    exact_mod_cast h.low
  have hHigh : (tensNum e : ℚ) / tensDen e ≤ 255 / 64 := by
    rw [div_le_div_iff₀ hDen (by norm_num), mul_comm]
    exact_mod_cast h.high
  have hPower : (0 : ℚ) < 2 ^ tensOrder e := by positivity
  have hBelow : (2 : ℚ) ^ (tensOrder e + 1) < 2 ^ k := by
    refine lt_of_le_of_lt ?_ hLess
    rw [ten_zpow_eq, zpow_add_one₀ two_ne_zero, mul_comm]
    gcongr
  have hOrder : tensOrder e + 2 ≤ k := by
    have hExponent := (zpow_lt_zpow_iff_right₀ one_lt_two).mp hBelow
    omega
  calc (10 : ℚ) ^ e ≤ 255 / 64 * 2 ^ tensOrder e := by
        rw [ten_zpow_eq]
        gcongr
    _ = 255 / 256 * 2 ^ (tensOrder e + 2) := by
        rw [zpow_add₀ two_ne_zero]
        norm_num
        ring
    _ ≤ 255 / 256 * 2 ^ k := by
        gcongr
        exact one_le_two

/-- Units up to half a power of ten are up to the power of two that it is told by. -/
theorem le_tensOrder {q : ℤ} (hCoarse : (2 : ℚ) ^ (q + 1) ≤ 10 ^ e) : q ≤ tensOrder e := by
  have hDen : (0 : ℚ) < tensDen e := by exact_mod_cast tensDen_pos e
  have hHigh : (tensNum e : ℚ) / tensDen e < 2 ^ (2 : ℤ) := by
    rw [div_lt_iff₀ hDen]
    have hCast : (64 * tensNum e : ℚ) ≤ 255 * tensDen e := by exact_mod_cast h.high
    norm_num
    linarith
  have hBelow : (2 : ℚ) ^ (q + 1) < 2 ^ (tensOrder e + 2) := by
    refine hCoarse.trans_lt ?_
    rw [ten_zpow_eq, add_comm, zpow_add₀ two_ne_zero]
    gcongr
  have hExponent := (zpow_lt_zpow_iff_right₀ one_lt_two).mp hBelow
  omega

/-- Only multiples that are tried come close to a middle. -/
theorem le_mostMultiple {d m : ℕ} (hMiddle : m ≤ 2 ^ 25 + 2)
    (hClose : |(m * tensDen e : ℤ) - d * tensNum e| ≤ slack e) : d ≤ mostMultiple e := by
  have hLow := h.low
  have hDen := tensDen_pos e
  have hSmall : slack e ≤ tensDen e := by
    unfold slack
    omega
  have hProduct : m * tensDen e ≤ (2 ^ 25 + 2) * tensDen e := Nat.mul_le_mul_right _ hMiddle
  have hNear := (abs_le.mp hClose).1
  rw [← Nat.cast_mul, ← Nat.cast_mul] at hNear
  rw [mostMultiple, Nat.le_div_iff_mul_le (by omega)]
  omega

/-- An odd multiple of a power of ten, but for a factor, so close to a middle that scaling might
cross it is read as it should. -/
theorem readsRight_of_close {n m j : ℕ} (hPos : 0 < n) (hMiddle : m ≤ 2 ^ 25 + 2)
    (hApart : m * tensDen e ≠ n * 2 ^ j * tensNum e)
    (hClose : |(m * tensDen e : ℤ) - (n * 2 ^ j : ℕ) * tensNum e| ≤ slack e) :
    narrow (Literal.wide ⟨n, e⟩) = Literal.nearest single ⟨n, e⟩ := by
  obtain hNone | ⟨hSharp, hSuspects⟩ := h.close
  · rw [hNone, Nat.cast_zero, abs_nonpos_iff, sub_eq_zero] at hClose
    exact absurd (by exact_mod_cast hClose) hApart
  · have hMem := ((Bracket.spans_start _ _).narrowed _ _).mem_suspects hSharp
      (Nat.mul_pos hPos (Nat.two_pow_pos j)) (h.le_mostMultiple hMiddle hClose) hApart hClose
    obtain ⟨hOdd, hReads⟩ := hSuspects _ hMem
    have hSame : j = 0 := by
      by_contra hSome
      obtain ⟨k, rfl⟩ := Nat.exists_eq_succ_of_ne_zero hSome
      rw [pow_succ, ← mul_assoc, Nat.mul_mod_left] at hOdd
      cases hOdd
    rwa [hSame, pow_zero, mul_one] at hReads

/-- On a grid that is no finer than the units around a middle, a multiple so close to the middle
that scaling might cross it is read as it should. -/
theorem readsRight {n m : ℕ} {q : ℤ} (hPos : 0 < n) (hMiddle : m ≤ 2 ^ 25 + 2)
    (hCoarse : (2 : ℚ) ^ (q + 1) ≤ 10 ^ e) (hNe : Literal.value ⟨n, e⟩ ≠ m * 2 ^ q)
    (hClose : |Literal.value ⟨n, e⟩ - m * 2 ^ q| ≤ m * 2 ^ q * (5 / 2 ^ 54)) :
    narrow (Literal.wide ⟨n, e⟩) = Literal.nearest single ⟨n, e⟩ := by
  have hDen : (0 : ℚ) < tensDen e := by exact_mod_cast tensDen_pos e
  have hUnit : (0 : ℚ) < 2 ^ q := by positivity
  -- In units of the grid's own power of two the literal has more digits, and the middle as many.
  obtain ⟨j, hPlaces⟩ := Int.le.dest (h.le_tensOrder hCoarse)
  have hDifference : (m * tensDen e - (n * 2 ^ j : ℕ) * tensNum e : ℚ) =
      (m * 2 ^ q - Literal.value ⟨n, e⟩) * (tensDen e / 2 ^ q) := by
    rw [Literal.value, ten_zpow_eq, ← hPlaces, zpow_add₀ two_ne_zero, zpow_natCast]
    push_cast
    field_simp
  have hSlack : |(m * tensDen e : ℤ) - (n * 2 ^ j : ℕ) * tensNum e| ≤ slack e := by
    refine le_slack ?_
    have hMost : (m : ℚ) ≤ 2 ^ 25 + 2 := by exact_mod_cast hMiddle
    push_cast at hDifference ⊢
    rw [hDifference, abs_mul, abs_sub_comm, abs_of_pos (div_pos hDen hUnit)]
    calc |Literal.value ⟨n, e⟩ - m * 2 ^ q| * (tensDen e / 2 ^ q)
        ≤ m * 2 ^ q * (5 / 2 ^ 54) * (tensDen e / 2 ^ q) := by gcongr
      _ = tensDen e * m * (5 / 2 ^ 54) := by field_simp
      _ ≤ tensDen e * (2 ^ 25 + 2) * (5 / 2 ^ 54) := by gcongr
  have hApart : m * tensDen e ≠ n * 2 ^ j * tensNum e := by
    intro hSame
    have hZero : (m * tensDen e - (n * 2 ^ j : ℕ) * tensNum e : ℚ) = 0 := by
      rw [sub_eq_zero]
      exact_mod_cast hSame
    rw [hDifference, mul_eq_zero, sub_eq_zero] at hZero
    exact hZero.elim (fun h => hNe h.symm) (div_pos hDen hUnit).ne'
  exact h.readsRight_of_close hPos hMiddle hApart hSlack

end Checked

end PathTracer.Decimal
