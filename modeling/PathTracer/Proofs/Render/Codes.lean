import PathTracer.Proofs.Binary32.Floor
import PathTracer.Render.Pass.Resolve

/-! Codes of blended hits. A code is the index of the second material plus the share of the first,
in one number, so that the share loses places as the index grows. From `2 ^ 15` on the greatest
share is rounded up to the next index. -/
namespace PathTracer

/-! ### Sums of an index and a share -/

namespace Binary32

open Float.Model (UnpackedFloat)

/-- Clamping a finite number gives a finite number between the bounds, and the number itself
between them. Nothing is rounded. -/
theorem value_clamp {w low high : Float32} (hw : w.isFinite = true) (hLow : low.isFinite = true)
    (hHigh : high.isFinite = true) (h : value low ≤ value high) :
    (Scalar.clamp w low high).isFinite = true ∧
      value (Scalar.clamp w low high) = min (value high) (max (value low) (value w)) := by
  unfold Scalar.clamp
  dsimp only
  split
  · rename_i hBelow
    rw [value_lt_iff hw hLow] at hBelow
    rw [if_neg (mt (value_lt_iff hHigh hLow).mp h.not_gt), max_eq_left hBelow.le, min_eq_right h]
    exact ⟨hLow, rfl⟩
  · rename_i hAbove
    rw [value_lt_iff hw hLow, not_lt] at hAbove
    rw [max_eq_right hAbove]
    split
    · rename_i hGreat
      exact ⟨hHigh, (min_eq_left ((value_lt_iff hHigh hw).mp hGreat).le).symm⟩
    · rename_i hSmall
      rw [value_lt_iff hHigh hw, not_lt] at hSmall
      exact ⟨hw, (min_eq_right hSmall).symm⟩

/-- A share that leaves something for either of two materials. -/
structure IsShare (c : Float32) : Prop where
  isFinite : c.isFinite = true
  pos : 0 < value c
  le : value c ≤ 16760439 / 2 ^ 24

theorem value_leastShare : value 0.0001 = 13743895 / 2 ^ 37 := by
  rw [value_of_place (e := -37) (m := 13743895) rfl (by decide)]
  norm_num

theorem value_greatestShare : value 0.999 = 16760439 / 2 ^ 24 := by
  rw [value_of_place (e := -24) (m := 16760439) rfl (by decide)]
  norm_num

variable {n : Nat} {c d : Float32}

theorem IsShare.lt_one (h : IsShare c) : value c < 1 := by
  have hMost := h.le
  norm_num at hMost ⊢
  linarith

section Small

variable (hn : n < 2 ^ 24) (hc : IsShare c)

include hn hc

/-- The code of an index that is held, by its exact sum. It is not below either part of the
sum, and the error is at most half of a last place. -/
theorem rounds_code : (Float32.ofNat n + c).isFinite = true ∧
    (n : ℝ) ≤ value (Float32.ofNat n + c) ∧ value c ≤ value (Float32.ofNat n + c) ∧
    ∀ k : Int, -125 ≤ k → n + value c < 2 ^ k →
      |value (Float32.ofNat n + c) - (n + value c)| ≤ 2 ^ (k - 25) := by
  have hIndex : (n : ℝ) < 2 ^ 24 := by exact_mod_cast hn
  have hShare := hc.lt_one
  have hSum : 0 ≤ (n : ℝ) + value c := add_nonneg n.cast_nonneg hc.pos.le
  have hCode := approximates_add (isFinite_ofNat hn) hc.isFinite (by
    rw [value_ofNat hn, abs_of_nonneg hSum]
    exact lt_overflow (by linarith [show (2 : ℝ) ^ 24 + 1 ≤ 2 ^ 127 by norm_num]))
  have hMore := value_le_add hCode.isFinite ((value_ofNat hn).symm ▸ n.cast_nonneg) hc.pos.le
  have hError := hCode.near.error
  rw [value_ofNat hn] at hMore hError
  rw [abs_of_nonneg hSum] at hError
  exact ⟨hCode.isFinite, hMore.1, hMore.2, hError⟩

/-- Codes of one index are multiples of the unit of its highest place, and half of this unit is
the most that is lost. -/
theorem exists_multiple (hPos : 0 < n) : ∃ j : Int,
    value (Float32.ofNat n + c) = j * (1 / 2 ^ missingBits n) ∧
      |value (Float32.ofNat n + c) - (n + value c)| ≤ 1 / 2 ^ missingBits n / 2 := by
  obtain ⟨hFinite, hLow, -, hError⟩ := rounds_code hn hc
  have hLog : n.log2 < 24 := (Nat.log2_lt hPos.ne').mpr hn
  have hFloor : (2 : ℝ) ^ (n.log2 : Int) ≤ n := by exact_mod_cast Nat.log2_self_le hPos.ne'
  have hNext : (n : ℝ) + 1 ≤ 2 ^ ((n.log2 : Int) + 1) := by exact_mod_cast Nat.lt_log2_self
  have hShare := hc.lt_one
  have hUnit : (2 : ℝ) ^ (-(missingBits n : Int)) = 1 / 2 ^ missingBits n := by
    rw [zpow_neg, zpow_natCast, one_div]
  have hPlace : (n.log2 : Int) = -(missingBits n : Int) + 23 := by
    unfold missingBits
    omega
  obtain ⟨j, hj⟩ | ⟨_, hSmall⟩ := onGrid_valueOf (rounded_unpack (Float32.ofNat n + c))
    (by omega : -149 ≤ -(missingBits n : Int))
  · refine ⟨j, hUnit ▸ hj, ?_⟩
    have hHalf := hError (n.log2 + 1) (by omega) (by linarith)
    rwa [hPlace, show -(missingBits n : Int) + 23 + 1 - 25 = -(missingBits n : Int) - 1 by ring,
      zpow_sub_one₀ two_ne_zero, hUnit, ← div_eq_mul_inv] at hHalf
  · have hBelow := (abs_lt.mp hSmall).2
    rw [← hPlace] at hBelow
    exact absurd (hFloor.trans hLow) (not_le.mpr hBelow)

end Small

/-- Below `2 ^ 15` half a unit is less than what the greatest share leaves. -/
theorem code_lt (hn : n < 2 ^ 15) (hc : IsShare c) : value (Float32.ofNat n + c) < n + 1 := by
  obtain ⟨-, -, -, hError⟩ := rounds_code (hn.trans (by decide)) hc
  have hIndex : (n : ℝ) + 1 ≤ 2 ^ 15 := by exact_mod_cast hn
  have hShare := hc.le
  have hHalf := (abs_le.mp (hError 15 (by decide) (by
    rw [zpow_ofNat]
    linarith [hc.lt_one]))).2
  norm_num at hHalf hShare
  linarith

theorem isShare_greatest : IsShare 0.999 :=
  ⟨by decide, by rw [value_greatestShare]; norm_num, value_greatestShare.le⟩

/-- From there on the greatest share is lost. -/
theorem le_code (hLow : 2 ^ 15 ≤ n) (hn : n < 2 ^ 24) : n + 1 ≤ value (Float32.ofNat n + 0.999) := by
  have hPos : 0 < n := by omega
  obtain ⟨j, hCode, hError⟩ := exists_multiple hn isShare_greatest hPos
  have hBits : missingBits n ≤ 8 := by
    have hLog : 15 ≤ n.log2 := (Nat.le_log2 hPos.ne').mpr hLow
    unfold missingBits
    omega
  have hGreat : (1 : ℝ) / 2 ^ 8 ≤ 1 / 2 ^ missingBits n :=
    one_div_le_one_div_of_le (by positivity) (pow_le_pow_right₀ one_le_two hBits)
  -- the next index is a multiple of the unit as well
  have hNext : (n : ℝ) + 1 = ((n + 1) * 2 ^ missingBits n : Int) * (1 / 2 ^ missingBits n) := by
    push_cast
    field_simp
  by_contra hLess
  rw [not_le, hCode, hNext] at hLess
  have hStep := multiple_le (i := j + 1) (j := (n + 1) * 2 ^ missingBits n) (p := 1 / 2 ^ missingBits n)
    (by positivity) (by push_cast at hLess ⊢; linarith)
  rw [← hNext] at hStep
  rw [hCode, value_greatestShare] at hError
  have hBelow := (abs_le.mp hError).1
  push_cast at hStep
  norm_num at hBelow hStep hGreat
  linarith

/-- A greater share has no lesser code. -/
theorem code_mono (hn : n < 2 ^ 15) (hc : IsShare c) (hd : IsShare d) (h : value c ≤ value d) :
    value (Float32.ofNat n + c) ≤ value (Float32.ofNat n + d) := by
  rcases h.lt_or_eq with hLess | hSame
  · rcases Nat.eq_zero_or_pos n with rfl | hPos
    · have hAlone {b : Float32} (hb : b.isFinite = true) : value (Float32.ofNat 0 + b) = value b := by
        have hSum := add_beq_of_value (a := Float32.ofNat 0) (by decide) hb hb
          (by rw [value_ofNat (by decide), Nat.cast_zero, zero_add])
        exact (value_eq_iff (isFinite_of_beq hSum hb) hb).mp hSum
      rw [hAlone hc.isFinite, hAlone hd.isFinite]
      exact h
    · obtain ⟨i, hFirst, hError⟩ := exists_multiple (hn.trans (by decide)) hc hPos
      obtain ⟨j, hSecond, hOther⟩ := exists_multiple (hn.trans (by decide)) hd hPos
      by_contra hBack
      rw [not_le, hFirst, hSecond] at hBack
      have hStep := multiple_le (i := j + 1) (j := i) (p := 1 / 2 ^ missingBits n) (by positivity)
        (by push_cast; linarith)
      push_cast at hStep
      rw [hFirst] at hError
      rw [hSecond] at hOther
      linarith [(abs_le.mp hError).2, (abs_le.mp hOther).1]
  · obtain rfl : c = d := by
      refine eq_of_beq_of_pos ((value_eq_iff hc.isFinite hd.isFinite).mpr hSame) ?_
      rw [value_lt_iff (by decide) hd.isFinite, value_zero]
      exact hd.pos
    exact le_rfl

section Great

variable (hLow : 2 ^ 24 ≤ n) (hMost : n < 2 ^ 31)

include hLow hMost

theorem le_value_ofNat : 2 ^ 24 ≤ value (Float32.ofNat n) := by
  obtain ⟨hRounds, hKept⟩ := rounds_ofNat (n := n) (by omega)
  have hLeast : value 16777216.0 = 2 ^ 24 := by
    rw [value_of_place (e := 1) (m := 2 ^ 23) rfl (by decide)]
    norm_num
  rw [← hLeast]
  refine hRounds.le_value hKept (approximates_ofNat (hMost.trans (by decide))).isFinite ?_
  rw [hLeast]
  exact_mod_cast hLow

/-- The numbers for such indices are even, and half of the unit of the highest place is no less
than one. -/
theorem exists_even : ∃ (m : Nat) (p : ℝ) (e : Int), value (Float32.ofNat n) = m * p ∧ p = 2 ^ e ∧
    0 ≤ e ∧ 2 ≤ p ∧ 2 ^ 23 ≤ (m : ℝ) ∧ (m : ℝ) + 1 ≤ 2 ^ 24 := by
  obtain ⟨m, e, hForm, hUnpack, -⟩ := exists_ofNat (n := n) (by omega) (by omega)
  have hIndex : value (Float32.ofNat n) = m * 2 ^ (e : Int) := by
    rw [value, hUnpack, valueOf_whole hForm]
    push_cast
    rw [zpow_natCast]
  have hFits : (m : ℝ) + 1 ≤ 2 ^ 24 := by exact_mod_cast hForm.fits
  have hLeast := le_value_ofNat hLow hMost
  have hSome : e ≠ 0 := by
    rintro rfl
    rw [hIndex, Nat.cast_zero, zpow_zero, mul_one] at hLeast
    linarith
  refine ⟨m, _, e, hIndex, rfl, by omega, ?_, ?_, hFits⟩
  · rw [zpow_natCast]
    exact le_self_pow₀ one_le_two hSome
  · exact_mod_cast hForm.full.resolve_right (by omega)

/-- From `2 ^ 24` on no share is left of the sum. -/
theorem code_eq (hc : IsShare c) : Float32.ofNat n + c = .ofNat n := by
  obtain ⟨m, p, e, hIndex, hPow, hExponent, hUnit, hFull, hFits⟩ := exists_even hLow hMost
  have hFinite := (approximates_ofNat (hMost.trans (by decide))).isFinite
  have hShare : Within 1 c := ⟨hc.isFinite, by rw [abs_of_pos hc.pos]; exact hc.lt_one.le⟩
  have hCode := (within_ofNat (n := n) (by omega) (hMost.trans (by decide))).approximates_add hShare
    (by norm_num)
  have hBelow := hc.lt_one
  have hNonneg : 0 ≤ (m : ℝ) * p := by positivity
  have hMore := (value_le_add hCode.isFinite (hIndex ▸ hNonneg) hc.pos.le).1
  have hTop : (m : ℝ) * p + p ≤ 2 ^ (e + 24) := by
    rw [zpow_add₀ two_ne_zero, ← hPow, mul_comm p]
    linarith [mul_le_mul_of_nonneg_right hFits (by positivity : 0 ≤ p)]
  have hError := hCode.near.error (e + 24) (by omega)
  rw [hIndex] at hError hMore
  rw [abs_of_nonneg (add_nonneg hNonneg hc.pos.le), show e + 24 - 25 = e - 1 by ring,
    zpow_sub_one₀ two_ne_zero, ← div_eq_mul_inv, ← hPow] at hError
  replace hError := abs_le.mp (hError (by linarith))
  have hSame : value (Float32.ofNat n + c) = m * p := by
    obtain ⟨j, hj⟩ | ⟨-, hSmall⟩ := onGrid_valueOf (rounded_unpack (Float32.ofNat n + c))
      (by omega : -149 ≤ e)
    · change value (Float32.ofNat n + c) = j * 2 ^ e at hj
      rw [← hPow] at hj
      have hStep := multiple_le (i := j) (j := m) (p := p) (by positivity) (by
        rw [← hj]
        push_cast
        linarith)
      rw [← hj] at hStep
      exact le_antisymm hStep hMore
    · have hLess := (abs_lt.mp hSmall).2
      change value (Float32.ofNat n + c) < 2 ^ (e + 23) at hLess
      rw [zpow_add₀ two_ne_zero, ← hPow, mul_comm p] at hLess
      have hScaled := mul_le_mul_of_nonneg_right hFull (by positivity : 0 ≤ p)
      exact absurd (hScaled.trans hMore) (not_le.mpr hLess)
  refine eq_of_beq_of_pos ?_ (pos_ofNat (by omega))
  rw [value_eq_iff hCode.isFinite hFinite, hSame, hIndex]

/-- Such indices are their own floors. -/
theorem toInt32_floor_ofNat :
    toInt32 (floor (.ofNat n)) = n ↔ Held n ∨ (n : Int) = 2 ^ 31 - 1 := by
  have hPos : 0.0 < Float32.ofNat n := pos_ofNat (by omega)
  have hFinite := (approximates_ofNat (hMost.trans (by decide))).isFinite
  have hGreat : ¬(Float32.ofNat n).abs < wholeFrom := by
    rw [abs_lt_wholeFrom_iff hPos hFinite, not_lt]
    exact le_trans (by norm_num) (le_value_ofNat hLow hMost)
  have hSame : floor (.ofNat n) = round (.ofNat n) := (if_neg hGreat).trans (if_neg hGreat).symm
  rw [hSame]
  exact toInt32_round_ofInt_iff (i := n) (by omega) (by exact_mod_cast hMost)

end Great

theorem code_pos (hMost : n < 2 ^ 31) (hc : IsShare c) : 0.0 < Float32.ofNat n + c := by
  by_cases hSmall : n < 2 ^ 24
  · obtain ⟨hFinite, -, hMore, -⟩ := rounds_code hSmall hc
    rw [value_lt_iff (by decide) hFinite, value_zero]
    exact hc.pos.trans_le hMore
  · rw [code_eq (not_lt.mp hSmall) hMost hc]
    exact pos_ofNat (by omega)

theorem isShare_clamp {w : Float32} (hw : w.isFinite = true) :
    IsShare (Scalar.clamp w 0.0001 0.999) := by
  have hLow : (0.0001 : Float32).isFinite = true := by decide
  have hHigh : (0.999 : Float32).isFinite = true := by decide
  obtain ⟨hFinite, hValue⟩ := value_clamp hw hLow hHigh
    (by rw [value_leastShare, value_greatestShare]; norm_num)
  refine ⟨hFinite, ?_, ?_⟩
  · rw [hValue, value_leastShare, value_greatestShare, lt_min_iff, lt_max_iff]
    norm_num
  · rw [hValue, value_greatestShare]
    exact min_le_left _ _

theorem value_clamp_mono {w v : Float32} (hw : w.isFinite = true) (hv : v.isFinite = true)
    (h : w ≤ v) :
    value (Scalar.clamp w 0.0001 0.999) ≤ value (Scalar.clamp v 0.0001 0.999) := by
  have hBounds : value 0.0001 ≤ value 0.999 := by
    rw [value_leastShare, value_greatestShare]
    norm_num
  rw [(value_clamp hw (by decide) (by decide) hBounds).2,
    (value_clamp hv (by decide) (by decide) hBounds).2]
  exact min_le_min_left _ (max_le_max_left _ ((value_le_iff hw hv).mp h))

end Binary32

namespace Pass

/-- The index of the second material in a code. -/
def secondary (code : Float32) : Int :=
  Binary32.toInt32 (Binary32.floor code)

/-- The share of the first material in a code. -/
def share (code : Float32) : Float32 :=
  code - Binary32.floor code

theorem hitMaterial_of_pos {p : Pixel} (h : 0.0 < p.depth.z) (s : Site)
    (inputs : Material.Inputs) : hitMaterial s p inputs =
      (s.tracer.resolve (secondary p.depth.z) inputs).blend
        (s.tracer.resolve (materialIndex p) inputs) (share p.depth.z) :=
  if_pos h

end Pass

namespace Hit

open Binary32 Pass

variable {n : Nat} {c d : Float32}

/-- The code of an index below `2 ^ 15` is between the index and the next one. -/
theorem code_of_small (hn : n < 2 ^ 15) (hc : IsShare c) :
    secondary (.ofNat n + c) = n ∧ (share (.ofNat n + c)).isFinite = true ∧
      value (share (.ofNat n + c)) = value (.ofNat n + c) - n := by
  obtain ⟨hFinite, hLow, -, -⟩ := rounds_code (hn.trans (by decide)) hc
  have hPos := code_pos (hn.trans (by decide)) hc
  have hFloor : ⌊value (Float32.ofNat n + c)⌋₊ = n :=
    (Nat.floor_eq_iff (n.cast_nonneg.trans hLow)).mpr ⟨hLow, code_lt hn hc⟩
  obtain ⟨hShare, hValue⟩ := value_sub_floor hPos hFinite
  refine ⟨?_, hShare, ?_⟩
  · rw [secondary, toInt32_floor hPos hFinite, hFloor]
    omega
  · rw [share, hValue, Int.fract, ← natCast_floor_eq_intCast_floor (n.cast_nonneg.trans hLow), hFloor]

theorem secondary_of_greatest_ne (hLow : 2 ^ 15 ≤ n) (hn : n < 2 ^ 24) :
    secondary (.ofNat n + 0.999) ≠ n := by
  obtain ⟨hFinite, -, -, -⟩ := rounds_code hn isShare_greatest
  have hNext : n + 1 ≤ ⌊value (Float32.ofNat n + 0.999)⌋₊ := Nat.le_floor (by
    push_cast
    exact le_code hLow hn)
  rw [secondary, toInt32_floor (code_pos (hn.trans (by decide)) isShare_greatest) hFinite]
  omega

/-- A code of an index with a weight is always that of a blend. For an index below `2 ^ 15`
it tells the index, and a share that grows with the weight. From `2 ^ 15` on the index is
told for all weights only where no share is: from `2 ^ 24` on, if it is held, or the
greatest of all. Between the two bounds the fraction is cut off to fewer digits, until with
the whole weight it is rounded up to the next index. -/
theorem blended_reads_back_iff (h : Hit) {i : Int} (hLow : 0 ≤ i) (hMost : i < 2 ^ 31) :
    (∀ w, 0.0 ≤ w → w ≤ 1.0 → ∀ (s : Site) (p : Pixel) (inputs : Material.Inputs),
      p.depth.z = (h.blended i w).blend → hitMaterial s p inputs =
        (s.tracer.resolve (secondary p.depth.z) inputs).blend
          (s.tracer.resolve (materialIndex p) inputs) (share p.depth.z)) ∧
    ((∀ w, 0.0 ≤ w → w ≤ 1.0 → secondary (h.blended i w).blend = i ∧
      ∀ v, w ≤ v → v ≤ 1.0 → share (h.blended i w).blend ≤ share (h.blended i v).blend) ↔
        i < 2 ^ 15 ∨ 2 ^ 24 ≤ i ∧ (Held i.toNat ∨ i = 2 ^ 31 - 1)) := by
  lift i to Nat using hLow
  rw [Int.toNat_natCast]
  have hIndex : i < 2 ^ 31 := by exact_mod_cast hMost
  have hCode (w : Float32) :
      (h.blended i w).blend = .ofNat i + Scalar.clamp w 0.0001 0.999 := rfl
  have hWeight {w : Float32} (hPos : 0.0 ≤ w) (hOne : w ≤ 1.0) : w.isFinite = true :=
    isFinite_of_le (by decide) (by decide) hPos hOne
  refine ⟨fun w hPos hOne s p inputs hDepth => hitMaterial_of_pos ?_ s inputs, fun hAll => ?_,
    fun hSome w hPos hOne => ?_⟩
  · rw [hDepth, hCode]
    exact code_pos hIndex (isShare_clamp (hWeight hPos hOne))
  · have hRead := (hAll 1.0 (by decide) (by decide)).1
    have hClamp : Scalar.clamp (1.0 : Float32) 0.0001 0.999 = 0.999 := by decide
    rw [hCode, hClamp] at hRead
    by_contra hNone
    by_cases hGreat : 2 ^ 24 ≤ i
    · rw [secondary, code_eq hGreat hIndex isShare_greatest,
        toInt32_floor_ofNat hGreat hIndex] at hRead
      exact hNone (.inr ⟨by exact_mod_cast hGreat, hRead⟩)
    · exact secondary_of_greatest_ne (by omega) (by omega) hRead
  · have hShare := isShare_clamp (hWeight hPos hOne)
    rw [hCode]
    rcases hSome with hSmall | ⟨hGreat, hHeld⟩
    · replace hSmall : i < 2 ^ 15 := by exact_mod_cast hSmall
      obtain ⟨hRead, hFinite, hValue⟩ := code_of_small hSmall hShare
      refine ⟨hRead, fun v hMore hLess => ?_⟩
      have hOther : v.isFinite = true := isFinite_of_le (hWeight hPos hOne) (by decide) hMore hLess
      obtain ⟨-, hSecond, hNext⟩ := code_of_small hSmall (isShare_clamp hOther)
      rw [hCode, value_le_iff hFinite hSecond, hValue, hNext]
      exact sub_le_sub_right (code_mono hSmall hShare (isShare_clamp hOther)
        (value_clamp_mono (hWeight hPos hOne) hOther hMore)) _
    · replace hGreat : 2 ^ 24 ≤ i := by exact_mod_cast hGreat
      rw [code_eq hGreat hIndex hShare]
      refine ⟨(toInt32_floor_ofNat hGreat hIndex).mpr hHeld, fun v hMore hLess => ?_⟩
      have hOther : v.isFinite = true := isFinite_of_le (hWeight hPos hOne) (by decide) hMore hLess
      rw [hCode, code_eq hGreat hIndex (isShare_clamp hOther)]
      refine le_self (isNaN_of_isFinite ?_)
      exact (value_sub_floor (pos_ofNat (by omega))
        (approximates_ofNat (hIndex.trans (by decide))).isFinite).1

/-- An index and a weight in the middle, and the least index that is not told. -/
theorem blended_reads_back_at_bound :
    (∀ w, (0.0 : Float32) ≤ w → w ≤ 1.0 → secondary (Hit.miss.blended 32767 w).blend = 32767 ∧
      ∀ v, w ≤ v → v ≤ 1.0 →
        share (Hit.miss.blended 32767 w).blend ≤ share (Hit.miss.blended 32767 v).blend) ∧
      ¬∀ w, (0.0 : Float32) ≤ w → w ≤ 1.0 → secondary (Hit.miss.blended 32768 w).blend = 32768 ∧
        ∀ v, w ≤ v → v ≤ 1.0 →
          share (Hit.miss.blended 32768 w).blend ≤ share (Hit.miss.blended 32768 v).blend :=
  ⟨(blended_reads_back_iff .miss (i := 32767) (by decide) (by decide)).2.mpr (by decide),
    (blended_reads_back_iff .miss (i := 32768) (by decide) (by decide)).2.not.mpr (by decide)⟩

/-- With the whole weight on the first material the code is that of the next index, with no weight
on the first material. -/
theorem blended_of_greatIndex :
    let h : Hit := .ofMaterial 1.0 ⟨0.0, 0.0, -1.0⟩ 0
    secondary (h.blended 32768 1.0).blend = 32769 ∧ share (h.blended 32768 1.0).blend = 0.0 ∧
      share (h.blended 32768 0.5).blend = 0.5 := by
  decide +kernel

end Hit

end PathTracer
