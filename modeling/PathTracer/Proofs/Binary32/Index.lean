import PathTracer.Proofs.Binary32.Difference
import PathTracer.Render.Tracer

/-! Indices as numbers. The sign of an index can be told from its number however large it
is, and indices that are held exactly are told apart by their numbers. -/
namespace PathTracer

namespace Binary32

open Float.Model (Format UnpackedFloat totalExponent)
open Float.Model.UnpackedFloat (Sign roundWithAccuracy unpack)

/-! ### Signs -/

theorem totalExponent_mul_two_pow {n : Nat} (hPos : 0 < n) (j : Nat) :
    totalExponent (n * 2 ^ j) (-j) = n.log2 + 1 := by
  unfold totalExponent
  rw [log2_mul_two_pow hPos]
  push_cast
  omega

/-- Whole numbers from one on. -/
theorem reaches_ofNat {n : Nat} (hPos : 0 < n) :
    Reaches .positive 1 (Float32.ofNat n).toModel.unpack := by
  by_cases hSmall : n < 2 ^ 24
  · rw [ofNat_eq_packedWhole_of_lt hSmall, unpack_packedWhole hPos hSmall]
    refine ⟨rfl, ?_⟩
    rw [mantissaOf, totalExponent_mul_two_pow hPos]
    omega
  · have hTotal : totalExponent (n * 2 ^ 24) (-24) = n.log2 + 1 :=
      totalExponent_mul_two_pow hPos 24
    have hMantissa : 0 < n * 2 ^ 24 := Nat.mul_pos hPos (by decide)
    have hShift :
        (-24 : Int) ≤ Format.binary32.targetExponent (totalExponent (n * 2 ^ 24) (-24)) := by
      rw [targetExponent_eq]
      omega
    have hUnpack : (Float32.ofNat n).toModel.unpack =
        kept (roundWithAccuracy .binary32 .positive (n * 2 ^ 24) (-24) .exact) := by
      rw [ofNat_eq_rounded (by omega)]
      exact unpack_pack (rounded_roundWithAccuracy hMantissa hShift _ _)
    rw [hUnpack]
    exact (Reaches.roundWithAccuracy hMantissa hShift _ (by decide) (by omega)).kept

theorem pos_ofNat {n : Nat} (hPos : 0 < n) : 0.0 < Float32.ofNat n :=
  pos_iff_reaches.mpr ((reaches_ofNat hPos).mono (by decide))

/-- The sign of an index, or of minus one for none, is that of its number. -/
theorem ofInt_sign {n : Int} (h : -1 ≤ n) :
    (0.0 ≤ Float32.ofInt n ↔ 0 ≤ n) ∧ (Float32.ofInt n < 0.0 ↔ n < 0) := by
  obtain rfl | rfl | hPos : n = -1 ∨ n = 0 ∨ 0 < n := by omega
  · decide
  · decide
  · lift n to Nat using hPos.le
    have hAbove : 0.0 < Float32.ofInt n := pos_ofNat (Int.natCast_pos.mp hPos)
    have hNotBelow : ¬Float32.ofInt n < 0.0 :=
      fun hBelow => Binary32.lt_irrefl _ (Binary32.lt_trans hAbove hBelow)
    exact ⟨iff_of_true (Binary32.le_of_lt hAbove) hPos.le, iff_of_false hNotBelow hPos.le.not_gt⟩

/-! ### Differences -/

theorem units_wholeOf {n : Nat} (hPos : 0 < n) (h : n < 2 ^ 24) :
    units (wholeOf n hPos h) = n * 2 ^ 149 := by
  have hBits : missingBits n ≤ 23 := Nat.sub_le 23 _
  have hShift : (-(missingBits n : Int) + 149).toNat = 149 - missingBits n := by omega
  have hPow : 2 ^ missingBits n * 2 ^ (149 - missingBits n) = 2 ^ 149 := by
    rw [← pow_add, show missingBits n + (149 - missingBits n) = 149 by omega]
  show ((mantissaOf n * 2 ^ (-(missingBits n : Int) + 149).toNat : Nat) : Int) = _
  rw [hShift, mantissaOf, mul_assoc, hPow]
  push_cast
  rfl

/-- What is held exactly. -/
theorem exact_ofInt {n : Int} (hLeast : -1 ≤ n) (hMost : n < 2 ^ 24) :
    (Float32.ofInt n).isFinite = true ∧
      units (Float32.ofInt n).toModel.unpack = n * 2 ^ 149 := by
  obtain rfl | rfl | hPos : n = -1 ∨ n = 0 ∨ 0 < n := by omega
  · decide
  · decide
  · lift n to Nat using hPos.le
    replace hPos : 0 < n := Int.natCast_pos.mp hPos
    have hLess : n < 2 ^ 24 := by exact_mod_cast hMost
    have hUnpack : (Float32.ofInt n).toModel.unpack = wholeOf n hPos hLess := by
      show (Float32.ofNat n).toModel.unpack = _
      rw [ofNat_eq_packedWhole_of_lt hLess, unpack_packedWhole hPos hLess]
    refine ⟨?_, hUnpack ▸ units_wholeOf hPos hLess⟩
    show (Float32.ofInt n).toModel.unpack.isFinite = true
    rw [hUnpack]
    rfl

theorem sub_self_ofInt {n : Int} (hLeast : -1 ≤ n) (hMost : n < 2 ^ 24) :
    Float32.ofInt n - Float32.ofInt n = 0.0 := by
  obtain rfl | hNat : n = -1 ∨ 0 ≤ n := by omega
  · decide
  · lift n to Nat using hNat
    have hLess : n < 2 ^ 24 := by exact_mod_cast hMost
    show Float32.ofNat n - Float32.ofNat n = 0.0
    rw [ofNat_eq_packedWhole_of_lt hLess, sub_packedWhole hLess]

/-- Different indices are one or more apart. -/
theorem one_le_abs_sub {m n : Int} (hFirst : -1 ≤ m) (hMost : m < 2 ^ 24) (hSecond : -1 ≤ n)
    (hLast : n < 2 ^ 24) (h : m ≠ n) : 1.0 ≤ (Float32.ofInt m - Float32.ofInt n).abs := by
  obtain ⟨hFinite, hUnits⟩ := exact_ofInt hFirst hMost
  obtain ⟨hOther, hOthers⟩ := exact_ofInt hSecond hLast
  have hGap : units (Float32.ofInt m).toModel.unpack - units (Float32.ofInt n).toModel.unpack =
      (m - n) * 2 ^ 149 := by
    rw [hUnits, hOthers, Int.sub_mul]
  have hPow : (0 : Int) < 2 ^ 149 := by positivity
  rcases lt_or_gt_of_ne h with hLess | hMore
  · refine one_le_abs (reaches_sub (s := .negative) hFinite hOther (by decide) ?_)
    show (2 : Int) ^ 149 ≤ -(_ - _)
    rw [hGap]
    nlinarith
  · refine one_le_abs (reaches_sub (s := .positive) hFinite hOther (by decide) ?_)
    show (2 : Int) ^ 149 ≤ _ - _
    rw [hGap]
    nlinarith

end Binary32

/-- Numbers of materials stand for the same one exactly if they are of one index. -/
theorem sameMaterial_ofInt {m n : Int} (hFirst : -1 ≤ m) (hMost : m < 2 ^ 24)
    (hSecond : -1 ≤ n) (hLast : n < 2 ^ 24) :
    sameMaterial (.ofInt m) (.ofInt n) = decide (m = n) := by
  unfold sameMaterial
  rw [decide_eq_decide]
  constructor
  · intro hNear
    by_contra hDiffer
    have hApart := Binary32.one_le_abs_sub hFirst hMost hSecond hLast hDiffer
    exact absurd (Binary32.lt_of_le_of_lt hApart hNear) (by decide)
  · rintro rfl
    rw [Binary32.sub_self_ofInt hFirst hMost]
    decide

end PathTracer
