import Mathlib

/-! Fractions around a ratio. Two neighbouring fractions with the ratio between
them are narrowed as Euclid's algorithm does, on differences. No fraction with a
smaller denominator than the two have together is nearer to the ratio than they
are. -/
namespace PathTracer.Decimal

/-- Two fractions around a ratio `num / den`: their denominators, and how far the ratio's
multiple is from their numerators, in parts of `den`. -/
structure Bracket where
  aboveDen : ℕ
  above : ℕ
  belowDen : ℕ
  below : ℕ

namespace Bracket

/-- The fractions of denominator zero and one around every ratio. -/
def start (num den : ℕ) : Bracket :=
  ⟨0, den, 1, num⟩

/-- Put the fraction between the two in the place of that on its side of the ratio. -/
def step (b : Bracket) : Bracket :=
  if b.below ≤ b.above then { b with aboveDen := b.aboveDen + b.belowDen, above := b.above - b.below }
  else { b with belowDen := b.aboveDen + b.belowDen, below := b.below - b.above }

/-- Narrow until the next denominator would exceed a bound. -/
def narrowed (most : ℕ) : ℕ → Bracket → Bracket
  | 0, b => b
  | fuel + 1, b => if most < b.aboveDen + b.belowDen then b else narrowed most fuel b.step

/-- Every multiple of the ratio, with its distance from a whole number, is made of the two. -/
def Spans (b : Bracket) (num den : ℕ) : Prop :=
  ∀ d m : ℤ, ∃ i j : ℤ, d = i * b.aboveDen + j * b.belowDen ∧
    m * den - d * num = i * b.above - j * b.below

theorem spans_start (num den : ℕ) : (start num den).Spans num den := fun d m =>
  ⟨m, d, by simp [start], by simp [start]⟩

/-- One step of the expansion keeps the ratio between the two fractions of a bracket. -/
theorem Spans.step {b : Bracket} {num den : ℕ} (h : b.Spans num den) : b.step.Spans num den := by
  intro d m
  obtain ⟨i, j, hDen, hRest⟩ := h d m
  unfold Bracket.step
  split
  · rename_i hLess
    refine ⟨i, j - i, ?_, ?_⟩
    · push_cast
      linarith
    · push_cast [Nat.cast_sub hLess]
      linarith
  · rename_i hMore
    refine ⟨i - j, j, ?_, ?_⟩
    · push_cast
      linarith
    · push_cast [Nat.cast_sub (not_le.mp hMore).le]
      linarith

theorem Spans.narrowed {b : Bracket} {num den : ℕ} (h : b.Spans num den) (most fuel : ℕ) :
    (b.narrowed most fuel).Spans num den := by
  induction fuel generalizing b with
  | zero => exact h
  | succ fuel ih =>
      unfold Bracket.narrowed
      split
      · exact h
      · exact ih h.step

/-- Whether a multiple up to `most` can come closer than `slack` only as the denominator of one
of the two fractions. -/
def Sharp (b : Bracket) (most slack : ℕ) : Prop :=
  most < b.aboveDen + b.belowDen ∧
    (b.above ≤ slack → slack < b.below ∧ (most < 2 * b.aboveDen ∨ slack < 2 * b.above)) ∧
    (b.below ≤ slack → slack < b.above ∧ (most < 2 * b.belowDen ∨ slack < 2 * b.below))

instance (b : Bracket) (most slack : ℕ) : Decidable (b.Sharp most slack) :=
  inferInstanceAs (Decidable (_ ∧ _))

/-- The denominators that come closer than `slack`. -/
def suspects (b : Bracket) (slack : ℕ) : List ℕ :=
  (if b.above ≤ slack then [b.aboveDen] else []) ++ if b.below ≤ slack then [b.belowDen] else []

/-- A combination of the two that is close, on the side of the first, is the first itself. -/
theorem eq_of_combination {i j x : ℤ} {p r q s most slack d : ℕ} (hDen : (d : ℤ) = i * p + j * q)
    (hRest : x = i * r - j * s) (hPos : 0 < d) (hMost : d ≤ most) (hSum : most < p + q)
    (hSide : 0 < x) (hClose : x ≤ slack)
    (hSharp : r ≤ slack → slack < s ∧ (most < 2 * p ∨ slack < 2 * r)) : r ≤ slack ∧ d = p := by
  have hFirst : 1 ≤ i := by
    by_contra hNone
    have hAbove : i ≤ 0 := by omega
    obtain hLess | hMore := le_or_gt j 0
    · have hDenLess : i * p + j * q ≤ 0 := add_nonpos
        (mul_nonpos_of_nonpos_of_nonneg hAbove p.cast_nonneg)
        (mul_nonpos_of_nonpos_of_nonneg hLess q.cast_nonneg)
      omega
    · have hRestLess : i * r - j * s ≤ 0 := sub_nonpos.mpr
        ((mul_nonpos_of_nonpos_of_nonneg hAbove r.cast_nonneg).trans
          (mul_nonneg hMore.le s.cast_nonneg))
      omega
  have hSecond : j ≤ 0 := by
    by_contra hSome
    have hDenMore : (p : ℤ) + q ≤ i * p + j * q := add_le_add
      (le_mul_of_one_le_left p.cast_nonneg hFirst)
      (le_mul_of_one_le_left q.cast_nonneg (by omega))
    omega
  have hMore : (r : ℤ) ≤ i * r := le_mul_of_one_le_left r.cast_nonneg hFirst
  have hBack : j * (s : ℤ) ≤ 0 := mul_nonpos_of_nonpos_of_nonneg hSecond s.cast_nonneg
  obtain ⟨hOther, hOnce⟩ := hSharp (by omega)
  have hNone : j = 0 := by
    by_contra hSome
    have hRestMore : (s : ℤ) ≤ -j * s := le_mul_of_one_le_left s.cast_nonneg (by omega)
    rw [neg_mul] at hRestMore
    omega
  rw [hNone, zero_mul, add_zero] at hDen
  rw [hNone, zero_mul, sub_zero] at hRest
  have hOne : i = 1 := by
    by_contra hSome
    have hTwice : 2 ≤ i := by omega
    have hDenTwice : 2 * (p : ℤ) ≤ i * p := mul_le_mul_of_nonneg_right hTwice p.cast_nonneg
    have hRestTwice : 2 * (r : ℤ) ≤ i * r := mul_le_mul_of_nonneg_right hTwice r.cast_nonneg
    omega
  rw [hOne, one_mul] at hDen
  exact ⟨by omega, by omega⟩

/-- A multiple of the ratio that is no whole number, but close to one, is that of a suspect. -/
theorem Spans.mem_suspects {b : Bracket} {num den most slack d m : ℕ} (h : b.Spans num den)
    (hSharp : b.Sharp most slack) (hPos : 0 < d) (hMost : d ≤ most) (hNe : m * den ≠ d * num)
    (hClose : |(m * den : ℤ) - d * num| ≤ slack) : d ∈ b.suspects slack := by
  obtain ⟨i, j, hDen, hRest⟩ := h d m
  obtain ⟨hSum, hAbove, hBelow⟩ := hSharp
  obtain ⟨hLow, hHigh⟩ := abs_le.mp hClose
  unfold suspects
  obtain hSide | hSide := lt_or_gt_of_ne (sub_ne_zero.mpr (mod_cast hNe : (m * den : ℤ) ≠ d * num))
  · obtain ⟨hLeast, rfl⟩ := eq_of_combination (x := d * num - m * den) (hDen.trans (add_comm _ _))
      (by linarith) hPos hMost (by omega) (by linarith) (by linarith) hBelow
    simp [hLeast]
  · obtain ⟨hLeast, rfl⟩ := eq_of_combination hDen hRest hPos hMost hSum hSide hHigh hAbove
    simp [hLeast]

end Bracket

end PathTracer.Decimal
