import PathTracer.Proofs.Binary32.Finite
import PathTracer.Vector

/-! Directions. A vector is scaled by the reciprocal of its length, all of it rounded, and that
goes well exactly where the square of the length is not rounded to zero. The direction then has
the signs of the vector and hardly more than length one, and it is not small where the vector
is not. -/
namespace PathTracer

namespace Vec3

open Binary32

variable {v w : Vec3 Float32} {A M : ℝ} {x : Float32}

/-- Finite components of at most the magnitude `A`. -/
def Within (A : ℝ) (v : Vec3 Float32) : Prop :=
  ∀ x ∈ v.toList, Binary32.Within A x

theorem within_iff :
    v.Within A ↔ Binary32.Within A v.x ∧ Binary32.Within A v.y ∧ Binary32.Within A v.z := by
  simp [Within, toList]

theorem Within.mono {B : ℝ} (h : v.Within A) (hMost : A ≤ B) : v.Within B :=
  fun x hx => (h x hx).mono hMost

section Bounds

variable {B C : ℝ} (hv : v.Within A) (hw : w.Within B)

include hv hw

theorem within_add (hMost : A + B ≤ 2 ^ 127)
    (hNext : (A + B) * (1 + 1 / 2 ^ 24) + 1 / 2 ^ 150 ≤ C) : (v + w).Within C := by
  obtain ⟨hvx, hvy, hvz⟩ := within_iff.mp hv
  obtain ⟨hwx, hwy, hwz⟩ := within_iff.mp hw
  exact within_iff.mpr ⟨hvx.add hwx hMost hNext, hvy.add hwy hMost hNext, hvz.add hwz hMost hNext⟩

theorem within_sub (hMost : A + B ≤ 2 ^ 127)
    (hNext : (A + B) * (1 + 1 / 2 ^ 24) + 1 / 2 ^ 150 ≤ C) : (v - w).Within C := by
  obtain ⟨hvx, hvy, hvz⟩ := within_iff.mp hv
  obtain ⟨hwx, hwy, hwz⟩ := within_iff.mp hw
  exact within_iff.mpr ⟨hvx.sub hwx hMost hNext, hvy.sub hwy hMost hNext, hvz.sub hwz hMost hNext⟩

end Bounds

/-- The exact square of the length. -/
noncomputable def squares (v : Vec3 Float32) : ℝ :=
  value v.x ^ 2 + value v.y ^ 2 + value v.z ^ 2

/-- The square of a component is at most the sum of squares. -/
theorem sq_le_squares (hx : x ∈ v.toList) : value x ^ 2 ≤ v.squares := by
  have hFirst := sq_nonneg (value v.x)
  have hSecond := sq_nonneg (value v.y)
  have hThird := sq_nonneg (value v.z)
  simp only [toList, List.mem_cons, List.not_mem_nil, or_false] at hx
  unfold squares
  rcases hx with rfl | rfl | rfl <;> linarith

/-- The sum of squares is at most three times that of a bound. -/
theorem squares_le (h : ∀ x ∈ v.toList, |value x| ≤ M) : v.squares ≤ 3 * M ^ 2 := by
  simp only [toList, List.forall_mem_cons] at h
  have hFirst := sq_le_sq' (neg_le_of_abs_le h.1) (le_of_abs_le h.1)
  have hSecond := sq_le_sq' (neg_le_of_abs_le h.2.1) (le_of_abs_le h.2.1)
  have hThird := sq_le_sq' (neg_le_of_abs_le h.2.2.1) (le_of_abs_le h.2.2.1)
  unfold squares
  linarith

/-! ### Squares of lengths -/

theorem Within.isFinite_lengthSquared (h : v.Within (2 ^ 62)) :
    v.lengthSquared.isFinite = true := by
  obtain ⟨hx, hy, hz⟩ := within_iff.mp h
  have hSquare {x : Float32} (hx : Binary32.Within (2 ^ 62) x) :
      Binary32.Within (2 ^ 124 + 2 ^ 101) (x * x) := hx.mul hx (by norm_num) (by norm_num)
  have hSum := (hSquare hx).add (C := 2 ^ 125 + 2 ^ 104) (hSquare hy) (by norm_num) (by norm_num)
  exact (hSum.add (C := 2 ^ 126) (hSquare hz) (by norm_num) (by norm_num)).isFinite

/-- A finite square of the length is a finite sum of finite squares. -/
theorem isFinite_of_lengthSquared (h : v.lengthSquared.isFinite = true) :
    (v.x * v.x + v.y * v.y).isFinite = true ∧ ∀ x ∈ v.toList, (x * x).isFinite = true := by
  obtain ⟨hSum, hz⟩ := isFinite_of_add h
  obtain ⟨hx, hy⟩ := isFinite_of_add hSum
  exact ⟨hSum, by simp [toList, hx, hy, hz]⟩

/-- The rounded square of the length against the exact one. -/
theorem abs_lengthSquared_sub_le (h : v.lengthSquared.isFinite = true) :
    0 ≤ value v.lengthSquared ∧
      |value v.lengthSquared - v.squares| ≤ v.squares / 2 ^ 22 + 6 / 2 ^ 150 := by
  obtain ⟨hFinite, hSquares⟩ := isFinite_of_lengthSquared h
  have hSquare {x : Float32} (hx : x ∈ v.toList) : 0 ≤ value (x * x) ∧
      |value (x * x) - value x ^ 2| ≤ value x ^ 2 / 2 ^ 24 + 1 / 2 ^ 150 := by
    have hProduct := approximates_of_mul (hSquares x hx)
    have hSide := mul_self_nonneg (value x)
    have hError := hProduct.near.abs_sub_le
    rw [abs_of_nonneg hSide, ← pow_two] at hError
    exact ⟨hProduct.near.nonneg hSide, hError⟩
  obtain ⟨hxSide, hxError⟩ := hSquare (x := v.x) (by simp [toList])
  obtain ⟨hySide, hyError⟩ := hSquare (x := v.y) (by simp [toList])
  obtain ⟨hzSide, hzError⟩ := hSquare (x := v.z) (by simp [toList])
  have hSum := approximates_of_add hFinite
  have hSide := hSum.near.nonneg (add_nonneg hxSide hySide)
  have hTotal := approximates_of_add (a := v.x * v.x + v.y * v.y) (b := v.z * v.z) h
  have hFirst := hSum.near.abs_sub_le
  have hSecond := hTotal.near.abs_sub_le
  rw [abs_of_nonneg (add_nonneg hxSide hySide)] at hFirst
  rw [abs_of_nonneg (add_nonneg hSide hzSide)] at hSecond
  refine ⟨hTotal.near.nonneg (add_nonneg hSide hzSide), ?_⟩
  rw [abs_le] at *
  have hxx := sq_nonneg (value v.x)
  have hyy := sq_nonneg (value v.y)
  have hzz := sq_nonneg (value v.z)
  have hEq : v.lengthSquared = v.x * v.x + v.y * v.y + v.z * v.z := rfl
  rw [hEq]
  unfold squares
  norm_num at *
  constructor <;> linarith

/-- Where all components are tiny, the square of the length is rounded to zero. -/
theorem exists_le_sq (h : v.lengthSquared.isFinite = true) (hSome : value v.lengthSquared ≠ 0) :
    ∃ x ∈ v.toList, 1 / 2 ^ 151 ≤ value x ^ 2 := by
  obtain ⟨hFinite, hSquares⟩ := isFinite_of_lengthSquared h
  by_contra hNone
  push Not at hNone
  have hSquare {x : Float32} (hx : x ∈ v.toList) : value (x * x) = 0 := by
    by_contra hValue
    have hLeast := least_le_abs_value hValue
    have hMost := (approximates_of_mul (hSquares x hx)).near.abs_le
      (A := 1 / 2 ^ 151) (by
        rw [abs_of_nonneg (mul_self_nonneg _), ← pow_two]
        exact (hNone x hx).le)
    norm_num at hLeast hMost
    linarith
  have hx : v.x ∈ v.toList := by simp [toList]
  have hy : v.y ∈ v.toList := by simp [toList]
  have hz : v.z ∈ v.toList := by simp [toList]
  have hSum := approximates_of_add hFinite
  rw [hSquare hx, hSquare hy, add_zero] at hSum
  have hTotal := approximates_of_add (a := v.x * v.x + v.y * v.y) (b := v.z * v.z) h
  rw [hSum.near.eq_zero, hSquare hz, add_zero] at hTotal
  exact hSome hTotal.near.eq_zero

/-! ### Lengths -/

/-- The length is near the root of the square, which is neither tiny nor huge. The root is
taken of the rounded square, and rounded itself. -/
theorem abs_length_sub_le (h : v.lengthSquared.isFinite = true)
    (hSome : value v.lengthSquared ≠ 0) :
    v.length.isFinite = true ∧ 1 / 2 ^ 75 ≤ √(value v.lengthSquared) ∧
      √(value v.lengthSquared) ≤ 2 ^ 64 ∧
        |value v.length - √(value v.lengthSquared)| ≤ √(value v.lengthSquared) / 2 ^ 23 := by
  obtain ⟨hSide, -⟩ := abs_lengthSquared_sub_le h
  have hLeast := least_le_abs_value hSome
  have hMost := abs_value_le h
  rw [abs_of_nonneg hSide] at hLeast hMost
  have hRoot : Approximates v.length √(value v.lengthSquared) :=
    approximates_sqrt h hSide
  have hLow : 1 / 2 ^ 75 ≤ √(value v.lengthSquared) :=
    Real.le_sqrt_of_sq_le (by norm_num at hLeast ⊢; linarith)
  have hError := hRoot.near.abs_sub_le
  rw [abs_of_nonneg (Real.sqrt_nonneg _)] at hError
  refine ⟨hRoot.isFinite, hLow, ?_, ?_⟩
  · exact Real.sqrt_le_iff.mpr ⟨by norm_num, by norm_num at hMost ⊢; linarith⟩
  · norm_num at hLow hError ⊢
    linarith

/-- The reciprocal of the length scales the vector to length one, but for rounding. The
quotient is the one that normalizing multiplies by, not an exact one. -/
theorem reciprocal_length (h : v.lengthSquared.isFinite = true)
    (hSome : value v.lengthSquared ≠ 0) :
    Binary32.Within (2 ^ 77) (1.0 / v.length) ∧ 0 ≤ value (1.0 / v.length) ∧
      |value (1.0 / v.length) * √(value v.lengthSquared) - 1| ≤ 1 / 2 ^ 20 := by
  obtain ⟨hFinite, hLow, hHigh, hError⟩ := abs_length_sub_le h hSome
  set root := √(value v.lengthSquared)
  have hBounds := abs_le.mp hError
  have hLeast : 1 / 2 ^ 76 ≤ value v.length := by
    norm_num at hLow hBounds ⊢
    linarith
  have hMost : value v.length ≤ 2 ^ 65 := by
    norm_num at hHigh hBounds ⊢
    linarith
  have hPos : 0 < value v.length := lt_of_lt_of_le (by positivity) hLeast
  obtain ⟨inverse, hInverse⟩ : ∃ i, i = 1 / value v.length := ⟨_, rfl⟩
  have hOne : inverse * value v.length = 1 := by rw [hInverse, one_div_mul_cancel hPos.ne']
  have hSide : 0 < inverse := hInverse ▸ one_div_pos.mpr hPos
  have hGreat : inverse ≤ 2 ^ 76 := by
    rw [hInverse, div_le_iff₀ hPos]
    norm_num at hLeast ⊢
    linarith
  have hSmall : 1 / 2 ^ 65 ≤ inverse := by
    rw [hInverse]
    exact one_div_le_one_div_of_le hPos hMost
  have hQuotient : Approximates (1.0 / v.length) inverse := by
    rw [hInverse, ← value_one]
    refine approximates_div rfl hFinite hPos.ne' (lt_overflow ?_)
    rw [value_one, ← hInverse, abs_of_pos hSide]
    exact hGreat.trans (by norm_num)
  have hAbs : |inverse| ≤ 2 ^ 76 := by rwa [abs_of_pos hSide]
  refine ⟨hQuotient.within hAbs (by norm_num), hQuotient.near.nonneg hSide.le, ?_⟩
  have hNear := hQuotient.near.abs_sub_le
  rw [abs_of_pos hSide] at hNear
  generalize value (1.0 / v.length) = r at hNear ⊢
  have hRelative : |r - inverse| ≤ inverse / 2 ^ 23 := by
    norm_num at hNear hSmall ⊢
    linarith
  have hRoot : 0 ≤ root := Real.sqrt_nonneg _
  have hProduct : inverse * root ≤ 2 := by
    have hScaled := mul_le_mul_of_nonneg_left hBounds.1 hSide.le
    norm_num at hScaled
    linarith
  have hEq : r * root - 1 = (r - inverse) * root - inverse * (value v.length - root) := by
    linear_combination hOne
  have hFirst : |(r - inverse) * root| ≤ inverse * root / 2 ^ 23 := by
    rw [abs_mul, abs_of_nonneg hRoot, mul_div_right_comm]
    exact mul_le_mul_of_nonneg_right hRelative hRoot
  have hSecond : |inverse * (value v.length - root)| ≤ inverse * root / 2 ^ 23 := by
    rw [abs_mul, abs_of_pos hSide, mul_div_assoc]
    exact mul_le_mul_of_nonneg_left hError hSide.le
  rw [hEq]
  refine (abs_sub _ _).trans ((add_le_add hFirst hSecond).trans ?_)
  norm_num at hProduct ⊢
  linarith

/-! ### Directions -/

/-- What becomes of a component of a vector whose components are at most `M` in magnitude: it
keeps its side, and its part of the greatest magnitude. -/
structure Scales (M : ℝ) (x f : Float32) : Prop where
  within : Binary32.Within 3 f
  side : ∀ y, 0 ≤ value x * y → 0 ≤ value f * y
  least : |value x| ≤ 5 * M * (|value f| + 1 / 2 ^ 149)

/-- No component is much longer than the whole vector, whatever has been rounded. -/
theorem abs_value_le_root (h : v.lengthSquared.isFinite = true) (hSome : value v.lengthSquared ≠ 0)
    (hx : x ∈ v.toList) : |value x| ≤ 21 / 10 * √(value v.lengthSquared) := by
  obtain ⟨hSide, hError⟩ := abs_lengthSquared_sub_le h
  have hLeast := least_le_abs_value hSome
  rw [abs_of_nonneg hSide] at hLeast
  have hBounds := (abs_le.mp hError).1
  have hSquare := sq_le_squares hx
  refine abs_le_of_sq_le_sq ?_ (by positivity)
  rw [mul_pow, Real.sq_sqrt hSide]
  norm_num at hLeast hBounds ⊢
  linarith

/-- The length is bounded with the components. -/
theorem root_le (h : v.lengthSquared.isFinite = true) (hSome : value v.lengthSquared ≠ 0)
    (hMost : ∀ x ∈ v.toList, |value x| ≤ M) : √(value v.lengthSquared) ≤ 4 * M := by
  obtain ⟨hSide, hError⟩ := abs_lengthSquared_sub_le h
  obtain ⟨x, hx, hLeast⟩ := exists_le_sq h hSome
  have hGreatest := sq_le_sq' (neg_le_of_abs_le (hMost x hx)) (le_of_abs_le (hMost x hx))
  have hBounds := (abs_le.mp hError).2
  have hSquares := squares_le hMost
  have hPos := (abs_nonneg _).trans (hMost x hx)
  refine Real.sqrt_le_iff.mpr ⟨by linarith, ?_⟩
  rw [mul_pow]
  norm_num at hLeast hBounds ⊢
  linarith

/-- Each component of a vector is scaled to its part of the length, but for a bounded error.
The error counts the rounding of the square, the root, the reciprocal and the product. -/
theorem scales_component (h : v.lengthSquared.isFinite = true) (hSome : value v.lengthSquared ≠ 0)
    (hMost : ∀ x ∈ v.toList, |value x| ≤ M) (hx : x ∈ v.toList) :
    Scales M x (x * (1.0 / v.length)) := by
  obtain ⟨hInverse, hSide, hUnit⟩ := reciprocal_length h hSome
  have hComponent := abs_value_le_root h hSome hx
  have hGreatest := root_le h hSome hMost
  generalize 1.0 / v.length = inverse at *
  have hUnit := abs_le.mp hUnit
  have hRoot : 0 ≤ √(value v.lengthSquared) := Real.sqrt_nonneg _
  generalize √(value v.lengthSquared) = root at *
  have hFinite : x.isFinite = true :=
    (isFinite_of_mul ((isFinite_of_lengthSquared h).2 x hx)).1
  have hProduct : |value x * value inverse| ≤ 11 / 5 := by
    rw [abs_mul, abs_of_nonneg hSide]
    have hScaled := mul_le_mul_of_nonneg_right hComponent hSide
    norm_num at hUnit
    linarith
  have hNear := approximates_mul hFinite hInverse.isFinite
    (lt_overflow (hProduct.trans (by norm_num)))
  refine ⟨hNear.within hProduct (by norm_num), fun y hy => hNear.near.side ?_, ?_⟩
  · rw [mul_right_comm]
    exact mul_nonneg hy hSide
  · have hExact := hNear.near.abs_exact_le le_rfl
    rw [abs_mul, abs_of_nonneg hSide] at hExact
    have hPos := abs_nonneg (value x)
    have hPart : |value x| ≤ |value x| * value inverse * root * (1 + 1 / 2 ^ 18) := by
      have hScaled := mul_le_mul_of_nonneg_left hUnit.1 hPos
      norm_num at hScaled ⊢
      linarith
    have hSome := abs_nonneg (value (x * inverse))
    obtain ⟨part, hEq⟩ : ∃ p, p = |value (x * inverse)| + 1 / 2 ^ 150 := ⟨_, rfl⟩
    rw [← hEq] at hExact
    have hNext := mul_le_mul_of_nonneg_right hExact hRoot
    have hLast : part * root ≤ part * (4 * M) :=
      mul_le_mul_of_nonneg_left hGreatest (by rw [hEq]; positivity)
    have hPartMost : part ≤ |value (x * inverse)| + 1 / 2 ^ 149 := by
      rw [hEq]
      norm_num
    have hBound : M * part ≤ M * (|value (x * inverse)| + 1 / 2 ^ 149) :=
      mul_le_mul_of_nonneg_left hPartMost (by linarith)
    have hPartSide : 0 ≤ M * part := mul_nonneg (by linarith) (by rw [hEq]; positivity)
    norm_num at hPart hNext hLast hBound ⊢
    linarith

/-- Where the square of the length is not rounded to zero, the direction is as it should be. -/
theorem scales_normalize (h : v.lengthSquared.isFinite = true) (hSome : value v.lengthSquared ≠ 0)
    (hMost : ∀ x ∈ v.toList, |value x| ≤ M) :
    Scales M v.x v.normalize.x ∧ Scales M v.y v.normalize.y ∧ Scales M v.z v.normalize.z :=
  ⟨scales_component h hSome hMost (by simp [toList]),
    scales_component h hSome hMost (by simp [toList]),
    scales_component h hSome hMost (by simp [toList])⟩

/-- The greatest component has a part of the direction that cannot be overlooked. -/
theorem Scales.sixth_le {f : Float32} (h : Scales |value x| x f) (hSome : value x ≠ 0) :
    1 / 6 ≤ |value f| := by
  have hPos := abs_pos.mpr hSome
  have hLeast := h.least
  by_contra hSmall
  have hScaled : 5 * |value x| * (|value f| + 1 / 2 ^ 149) < 5 * |value x| * (1 / 5) := by
    refine mul_lt_mul_of_pos_left ?_ (by linarith)
    norm_num at hSmall ⊢
    linarith
  linarith

theorem exists_greatest (v : Vec3 Float32) :
    ∃ x ∈ v.toList, ∀ y ∈ v.toList, |value y| ≤ |value x| := by
  obtain ⟨x, hx⟩ := Option.ne_none_iff_exists'.mp
    (mt (List.argmax_eq_none (f := fun x => |value x|)).mp (List.cons_ne_nil v.x [v.y, v.z]))
  exact ⟨x, List.argmax_mem hx, fun y hy => List.le_of_mem_argmax (f := fun x => |value x|) hy hx⟩

/-- Some component is at least a quarter of the length, and at least a sixth of the
direction. So no direction is zero where there is one. -/
theorem exists_greatest_normalize (h : v.lengthSquared.isFinite = true)
    (hSome : value v.lengthSquared ≠ 0) :
    ∃ M, √(value v.lengthSquared) ≤ 4 * M ∧
      ((|value v.x| = M ∧ 1 / 6 ≤ |value v.normalize.x|) ∨
        (|value v.y| = M ∧ 1 / 6 ≤ |value v.normalize.y|) ∨
          (|value v.z| = M ∧ 1 / 6 ≤ |value v.normalize.z|)) := by
  obtain ⟨x, hx, hMost⟩ := exists_greatest v
  obtain ⟨hScaleX, hScaleY, hScaleZ⟩ := scales_normalize h hSome hMost
  have hValue : value x ≠ 0 := by
    intro hZero
    obtain ⟨y, hy, hLeast⟩ := exists_le_sq h hSome
    have hNone : |value y| ≤ 0 := by simpa [hZero] using hMost y hy
    rw [abs_nonpos_iff.mp hNone] at hLeast
    norm_num at hLeast
  refine ⟨|value x|, root_le h hSome hMost, ?_⟩
  simp only [toList, List.mem_cons, List.not_mem_nil, or_false] at hx
  rcases hx with rfl | rfl | rfl
  · exact .inl ⟨rfl, hScaleX.sixth_le hValue⟩
  · exact .inr (.inl ⟨rfl, hScaleY.sixth_le hValue⟩)
  · exact .inr (.inr ⟨rfl, hScaleZ.sixth_le hValue⟩)

/-- A direction has components up to three. They are about one, and three leaves room for
what is rounded in denormal squares. -/
theorem within_normalize (h : v.lengthSquared.isFinite = true) (hSome : value v.lengthSquared ≠ 0) :
    v.normalize.Within 3 := by
  obtain ⟨M, -, hMost⟩ := exists_greatest v
  obtain ⟨hx, hy, hz⟩ := scales_normalize h hSome hMost
  exact within_iff.mpr ⟨hx.within, hy.within, hz.within⟩

theorem Scales.eq_zero {f : Float32} (h : Scales M x f) (hZero : value x = 0) : value f = 0 := by
  have hUp := h.side 1
  have hDown := h.side (-1)
  rw [hZero, zero_mul] at hUp hDown
  linarith [hUp le_rfl, hDown le_rfl]

/-- The cross product of two directions is bounded, be they exactly of length one or not. -/
theorem within_cross (hv : v.Within 3) (hw : w.Within 3) : (v.cross w).Within 19 := by
  obtain ⟨hvx, hvy, hvz⟩ := within_iff.mp hv
  obtain ⟨hwx, hwy, hwz⟩ := within_iff.mp hw
  have hDifference {a b c d : Float32} (ha : Binary32.Within 3 a) (hb : Binary32.Within 3 b)
      (hc : Binary32.Within 3 c) (hd : Binary32.Within 3 d) :
      Binary32.Within 19 (a * b - c * d) :=
    (ha.mul (C := 9 + 1 / 2 ^ 20) hb (by norm_num) (by norm_num)).sub
      (hc.mul (C := 9 + 1 / 2 ^ 20) hd (by norm_num) (by norm_num)) (by norm_num) (by norm_num)
  exact within_iff.mpr ⟨hDifference hvy hwz hwy hvz, hDifference hvz hwx hwz hvx,
    hDifference hvx hwy hwx hvy⟩

/-! ### Vectors that may have a direction -/

theorem within_zero : (Vec3.zero : Vec3 Float32).Within 3 := by
  have hZero : Binary32.Within 3 0.0 := ⟨rfl, by rw [value_zero]; norm_num⟩
  exact within_iff.mpr ⟨hZero, hZero, hZero⟩

/-- Whatever is made a unit vector has small components. -/
theorem within_normalizeOrZero (v : Vec3 Float32) : v.normalizeOrZero.Within 3 := by
  unfold normalizeOrZero normalize?
  dsimp only
  split
  · rename_i hUsable
    rw [Bool.and_eq_true, decide_eq_true_eq] at hUsable
    obtain ⟨hFinite, hSome⟩ := isFinite_of_inverse_sqrt hUsable.1 hUsable.2
    exact within_normalize hFinite hSome
  · exact within_zero

/-- The product of a vector that is not huge with a direction is a number. -/
theorem isNaN_dot (hv : v.Within (2 ^ 125)) (hw : w.Within 3) : (v.dot w).isNaN = false := by
  obtain ⟨hvx, hvy, hvz⟩ := within_iff.mp hv
  obtain ⟨hwx, hwy, hwz⟩ := within_iff.mp hw
  have hProduct {a b : Float32} (ha : Binary32.Within (2 ^ 125) a) (hb : Binary32.Within 3 b) :
      (a * b).isFinite = true := (ha.approximates_mul hb (by norm_num)).isFinite
  have hSum := isNaN_add_of_isFinite (isNaN_of_isFinite (hProduct hvx hwx)) (hProduct hvy hwy)
  exact isNaN_add_of_isFinite hSum (hProduct hvz hwz)

/-! ### Vectors without a direction -/

/-- A vector whose square is rounded to zero has no direction: all components are infinite
or no numbers. -/
theorem not_isFinite_normalize (h : (v.lengthSquared == 0.0) = true) :
    v.normalize.x.isFinite = false ∧ v.normalize.y.isFinite = false ∧
      v.normalize.z.isFinite = false :=
  have hInverse : (1.0 / v.length).isInf = true := isInf_inverse_sqrt h
  ⟨isFinite_mul_of_isInf hInverse, isFinite_mul_of_isInf hInverse, isFinite_mul_of_isInf hInverse⟩

/-- The length of a vector with a component that is no number is none. -/
theorem isNaN_length (h : v.x.isNaN = true) : v.length.isNaN = true :=
  isNaN_sqrt (isNaN_add (.inl (isNaN_add (.inl (isNaN_mul_left h)))))

end Vec3

end PathTracer
