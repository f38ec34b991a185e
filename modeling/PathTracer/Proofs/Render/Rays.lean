import PathTracer.Proofs.Geometry.Directions
import PathTracer.Render.Frame

/-! Rays of the camera. -/
namespace PathTracer

open Binary32

namespace Frame

/-! ### The image plane -/

/-- The point of the image plane at `a` to the right and `b` above the center. -/
def offset (forward right : Vec3 Float32) (a b : Float32) : Vec3 Float32 :=
  right * a + forward.cross right * b

/-- An axis to the right of a view, level but for rounding, and the two ways in which it may lie:
the view is steep and the axis is the first one of the world, or the axis is turned away from
the level part of the view. -/
structure Axes (forward right : Vec3 Float32) : Prop where
  within_forward : forward.Within 3
  within_right : right.Within 3
  level : value right.y = 0
  lies : (value right.x = 1 ∧ value right.z = 0 ∧ |value forward.z| ≤ 1 / 2 ^ 12 ∧
      1 / 6 ≤ |value forward.y|) ∨
    (0 ≤ value right.x * value forward.z ∧ value right.z * value forward.x ≤ 0 ∧
      1 / 2 ^ 18 ≤ value right.x * value forward.z - value right.z * value forward.x)

variable {forward right : Vec3 Float32} {a b : Float32}

theorem Axes.within_offset (h : Axes forward right) (ha : Within (2 ^ 60) a)
    (hb : Within (2 ^ 28) b) : (offset forward right a b).Within (15 * 2 ^ 58) := by
  have hUp := Vec3.within_iff.mp (Vec3.within_cross h.within_forward h.within_right)
  obtain ⟨hx, hy, hz⟩ := Vec3.within_iff.mp h.within_right
  have hSum {r u : Float32} (hr : Within 3 r) (hu : Within 19 u) :
      Within (15 * 2 ^ 58) (r * a + u * b) :=
    (hr.mul (C := 13 * 2 ^ 58) ha (by norm_num) (by norm_num)).add
      (hu.mul (C := 2 ^ 33) hb (by norm_num) (by norm_num)) (by norm_num) (by norm_num)
  exact Vec3.within_iff.mpr ⟨hSum hx hUp.1, hSum hy hUp.2.1, hSum hz hUp.2.2⟩

theorem Axes.within_sum (h : Axes forward right) (ha : Within (2 ^ 60) a)
    (hb : Within (2 ^ 28) b) : (forward + offset forward right a b).Within (2 ^ 62) := by
  obtain ⟨hx, hy, hz⟩ := Vec3.within_iff.mp (h.within_offset ha hb)
  obtain ⟨hfx, hfy, hfz⟩ := Vec3.within_iff.mp h.within_forward
  exact Vec3.within_iff.mpr ⟨hfx.add hx (by norm_num) (by norm_num),
    hfy.add hy (by norm_num) (by norm_num), hfz.add hz (by norm_num) (by norm_num)⟩

/-! ### Cancellation -/

/-- Where a computed sum of three parts is next to nothing, so is the exact one. -/
theorem abs_add_le_of_sum {f part total x y : ℝ} (hf : |f| ≤ 3) (hPart : Near (x + y) part)
    (hTotal : Near (f + part) total) (h : |total| ≤ 1 / 2 ^ 72) : |f + (x + y)| ≤ 1 / 2 ^ 22 := by
  have hSum := hTotal.abs_exact_le h
  have hMost : |part| ≤ 3 + 1 / 2 ^ 70 := by
    have hTriangle := abs_sub (f + part) f
    rw [add_sub_cancel_left] at hTriangle
    norm_num at hSum ⊢
    linarith
  have hExact := hPart.abs_exact_le hMost
  have hError := hPart.abs_sub_le
  have hTriangle := abs_sub (f + part) (part - (x + y))
  rw [show f + part - (part - (x + y)) = f + (x + y) by ring] at hTriangle
  norm_num at hSum hExact hError ⊢
  linarith

theorem abs_le_of_lengthSquared {v : Vec3 Float32} (h : v.Within (2 ^ 62))
    (hNone : value v.lengthSquared = 0) : ∀ x ∈ v.toList, |value x| ≤ 1 / 2 ^ 72 := by
  intro x hx
  have hError := (abs_le.mp (Vec3.abs_lengthSquared_sub_le h.isFinite_lengthSquared).2).1
  have hSquare := Vec3.sq_le_squares hx
  refine abs_le_of_sq_le_sq ?_ (by positivity)
  rw [hNone] at hError
  norm_num at hError ⊢
  linarith

/-- Where the square of the length of a ray is rounded to zero, the parts of its components
cancel. -/
theorem Axes.cancels (h : Axes forward right) (ha : Within (2 ^ 60) a) (hb : Within (2 ^ 28) b)
    (hNone : value (forward + offset forward right a b).lengthSquared = 0) :
    |value forward.x + (value (right.x * a) + value ((forward.cross right).x * b))| ≤ 1 / 2 ^ 22 ∧
      |value forward.y + value ((forward.cross right).y * b)| ≤ 1 / 2 ^ 22 ∧
        |value forward.z + (value (right.z * a) + value ((forward.cross right).z * b))| ≤
          1 / 2 ^ 22 := by
  have hUp := Vec3.within_iff.mp (Vec3.within_cross h.within_forward h.within_right)
  obtain ⟨hx, hy, hz⟩ := Vec3.within_iff.mp h.within_right
  obtain ⟨hfx, hfy, hfz⟩ := Vec3.within_iff.mp h.within_forward
  obtain ⟨hTinyX, hTinyY, hTinyZ, -⟩ := by
    simpa only [Vec3.toList, List.forall_mem_cons] using
      abs_le_of_lengthSquared (h.within_sum ha hb) hNone
  have hCancel {f r u : Float32} (hf : Within 3 f) (hr : Within 3 r) (hu : Within 19 u)
      (hTotal : |value (f + (r * a + u * b))| ≤ 1 / 2 ^ 72) :
      |value f + (value (r * a) + value (u * b))| ≤ 1 / 2 ^ 22 := by
    have hra : Within (13 * 2 ^ 58) (r * a) := hr.mul ha (by norm_num) (by norm_num)
    have hub : Within (2 ^ 33) (u * b) := hu.mul hb (by norm_num) (by norm_num)
    have hPart : Within (15 * 2 ^ 58) (r * a + u * b) := hra.add hub (by norm_num) (by norm_num)
    exact abs_add_le_of_sum hf.abs_le (hra.approximates_add hub (by norm_num)).near
      (hf.approximates_add hPart (by norm_num)).near hTotal
  refine ⟨hCancel hfx hx hUp.1 hTinyX, ?_, hCancel hfz hz hUp.2.2 hTinyZ⟩
  have hSecond := hCancel hfy hy hUp.2.1 hTinyY
  have hLevel := (hy.approximates_mul ha (by norm_num)).near
  rw [h.level, zero_mul] at hLevel
  rwa [hLevel.eq_zero, zero_add] at hSecond

/-! ### The axis upwards -/

/-- The components of the axis upwards, each rounded twice. -/
theorem Axes.up (h : Axes forward right) :
    (Near (value forward.y * value right.z) (value (forward.y * right.z)) ∧
      Near (value (forward.y * right.z)) (value (forward.cross right).x)) ∧
    (Near (value forward.z * value right.x) (value (forward.z * right.x)) ∧
      Near (value right.z * value forward.x) (value (right.z * forward.x)) ∧
      Near (value (forward.z * right.x) - value (right.z * forward.x))
        (value (forward.cross right).y)) ∧
    Near (value right.x * value forward.y) (value (right.x * forward.y)) ∧
      Near (-value (right.x * forward.y)) (value (forward.cross right).z) := by
  obtain ⟨hx, hy, hz⟩ := Vec3.within_iff.mp h.within_right
  obtain ⟨hfx, hfy, hfz⟩ := Vec3.within_iff.mp h.within_forward
  have hProduct {x y : Float32} (hx : Within 3 x) (hy : Within 3 y) :
      Within 10 (x * y) ∧ Near (value x * value y) (value (x * y)) :=
    ⟨hx.mul hy (by norm_num) (by norm_num), (hx.approximates_mul hy (by norm_num)).near⟩
  have hZero {x y : Float32} (hx : Within 3 x) (hy : Within 3 y)
      (hNone : value x * value y = 0) : value (x * y) = 0 := by
    have hNear := (hProduct hx hy).2
    rw [hNone] at hNear
    exact hNear.eq_zero
  have hFirst := ((hProduct hfy hz).1.approximates_sub (hProduct hy hfz).1 (by norm_num)).near
  have hThird := ((hProduct hfx hy).1.approximates_sub (hProduct hx hfy).1 (by norm_num)).near
  rw [hZero hy hfz (by rw [h.level, zero_mul]), sub_zero] at hFirst
  rw [hZero hfx hy (by rw [h.level, mul_zero]), zero_sub] at hThird
  exact ⟨⟨(hProduct hfy hz).2, hFirst⟩, ⟨(hProduct hfz hx).2, (hProduct hz hfx).2,
    ((hProduct hfz hx).1.approximates_sub (hProduct hz hfx).1 (by norm_num)).near⟩,
    (hProduct hx hfy).2, hThird⟩

/-- In a steep view nothing cancels: the axis upwards is nearly level, so that it would have to
be long to end the view, and then it would lead away from it. -/
theorem Axes.not_cancels_steep (h : Axes forward right) (ha : Within (2 ^ 60) a)
    (hb : Within (2 ^ 28) b) (hOne : value right.x = 1) (hLevel : value right.z = 0)
    (hz : |value forward.z| ≤ 1 / 2 ^ 12) (hy : 1 / 6 ≤ |value forward.y|) :
    value (forward + offset forward right a b).lengthSquared ≠ 0 := by
  intro hNone
  obtain ⟨-, hSecond, hThird⟩ := h.cancels ha hb hNone
  obtain ⟨-, ⟨hLeft, hRight, hDifference⟩, hProduct, hNegated⟩ := h.up
  obtain ⟨-, hUpY, hUpZ⟩ := Vec3.within_iff.mp (Vec3.within_cross h.within_forward h.within_right)
  obtain ⟨-, -, hRightZ⟩ := Vec3.within_iff.mp h.within_right
  have hAcross := (hRightZ.approximates_mul ha (by norm_num)).near
  have hAbove := (hUpY.approximates_mul hb (by norm_num)).near
  have hDeep := (hUpZ.approximates_mul hb (by norm_num)).near
  rw [hLevel, zero_mul] at hAcross hRight
  rw [hAcross.eq_zero, zero_add] at hThird
  rw [hRight.eq_zero, sub_zero] at hDifference
  rw [hOne, mul_one] at hLeft
  rw [hOne, one_mul] at hProduct
  generalize value (forward.cross right).y = up at *
  generalize value (forward.cross right).z = deep at *
  have hUp : |up| ≤ 1 / 2 ^ 11 :=
    (hDifference.abs_le (hLeft.abs_le hz)).trans (by norm_num)
  have hSteep : 1 / 8 ≤ |deep| := by
    by_contra hSmall
    have hMost := hProduct.abs_exact_le (le_of_eq_of_le (abs_neg _).symm
      (hNegated.abs_exact_le (not_le.mp hSmall).le))
    norm_num at hMost hy
    linarith
  have hLength : |value b| ≤ 1 / 2 ^ 7 := by
    have hPart : |value ((forward.cross right).z * b)| ≤ 1 / 2 ^ 11 := by
      have hTriangle := abs_sub (value forward.z + value ((forward.cross right).z * b))
        (value forward.z)
      rw [add_sub_cancel_left] at hTriangle
      norm_num at hTriangle hThird hz ⊢
      linarith
    have hMost := hDeep.abs_exact_le hPart
    rw [abs_mul] at hMost
    have hScaled := mul_le_mul_of_nonneg_right hSteep (abs_nonneg (value b))
    norm_num at hMost hScaled ⊢
    linarith
  have hRise := hAbove.abs_le (A := 1 / 2 ^ 18) (by
    rw [abs_mul]
    exact (mul_le_mul hUp hLength (abs_nonneg _) (by positivity)).trans (by norm_num))
  have hTriangle := abs_sub (value forward.y + value ((forward.cross right).y * b))
    (value ((forward.cross right).y * b))
  rw [add_sub_cancel_right] at hTriangle
  norm_num at hRise hTriangle hSecond hy
  linarith

/-- Parts along an axis that is turned away from the view cannot end the view if the parts
across do not lead away from it. -/
theorem lt_of_cancels {p q x z a along across left deep : ℝ} (hp : |p| ≤ 3) (hq : |q| ≤ 3)
    (hAlong : Near (p * a) along) (hAcross : Near (q * a) across)
    (hX : |x + (along + left)| ≤ 1 / 2 ^ 22) (hZ : |z + (across + deep)| ≤ 1 / 2 ^ 22)
    (hpz : 0 ≤ p * z) (hqx : q * x ≤ 0) (hDeep : -(1 / 2 ^ 20) ≤ p * deep)
    (hLeft : q * left ≤ 1 / 2 ^ 20) : p * z - q * x < 1 / 2 ^ 18 := by
  have hFirst : |q * (along - p * a)| ≤ |p| * |q * a| / 2 ^ 24 + 3 / 2 ^ 150 := by
    have hScaled := mul_le_mul_of_nonneg_left hAlong.abs_sub_le (abs_nonneg q)
    rw [abs_mul]
    rw [abs_mul p] at hScaled
    rw [abs_mul q]
    norm_num at hScaled ⊢
    linarith
  have hSecond : |p * (across - q * a)| ≤ |p| * |q * a| / 2 ^ 24 + 3 / 2 ^ 150 := by
    have hScaled := mul_le_mul_of_nonneg_left hAcross.abs_sub_le (abs_nonneg p)
    rw [abs_mul]
    norm_num at hScaled ⊢
    linarith
  have hPart : |across| ≤ |z| + |deep| + 1 / 2 ^ 22 := by
    have hTriangle := abs_sub (z + (across + deep)) (z + deep)
    rw [show z + (across + deep) - (z + deep) = across by ring] at hTriangle
    linarith [abs_add_le z deep]
  have hMost : |p| * |q * a| ≤ (p * z + p * deep + 1 / 2 ^ 18) * (1 + 1 / 2 ^ 22) := by
    have hScaled := mul_le_mul_of_nonneg_left (hAcross.abs_exact_le hPart) (abs_nonneg p)
    have hView : |p| * |z| = p * z := by rw [← abs_mul, abs_of_nonneg hpz]
    have hRest : |p| * |deep| ≤ p * deep + 2 / 2 ^ 20 := by
      rw [← abs_mul]
      exact abs_le.mpr ⟨by linarith, by linarith⟩
    norm_num at hScaled hRest ⊢
    linarith
  have hTotal : p * (z + (across + deep)) - q * (x + (along + left)) ≤ 6 / 2 ^ 22 := by
    have hUpper := (le_abs_self _).trans (abs_mul p (z + (across + deep))).le
    have hLower := (neg_le_abs _).trans (abs_mul q (x + (along + left))).le
    have hScaledP := mul_le_mul hp hZ (abs_nonneg _) (by norm_num)
    have hScaledQ := mul_le_mul hq hX (abs_nonneg _) (by norm_num)
    norm_num at hScaledP hScaledQ ⊢
    linarith
  have hEq : p * z - q * x = p * (z + (across + deep)) - q * (x + (along + left)) -
      p * (across - q * a) + q * (along - p * a) - p * deep + q * left := by ring
  have hBelow := neg_le_abs (p * (across - q * a))
  have hAbove := le_abs_self (q * (along - p * a))
  norm_num at *
  linarith

/-- The axis upwards rises where the one to the right is turned away from the view. So it is
not zero, however steep the view is. -/
theorem Axes.rises (h : Axes forward right) (hx : 0 ≤ value right.x * value forward.z)
    (hz : value right.z * value forward.x ≤ 0)
    (hApart : 1 / 2 ^ 18 ≤ value right.x * value forward.z - value right.z * value forward.x) :
    1 / 2 ^ 19 ≤ value (forward.cross right).y := by
  obtain ⟨-, ⟨hLeft, hRight, hUp⟩, -, -⟩ := h.up
  have hLeftError := hLeft.abs_sub_le
  have hRightError := hRight.abs_sub_le
  rw [mul_comm, abs_of_nonneg hx, abs_le] at hLeftError
  rw [abs_of_nonpos hz, abs_le] at hRightError
  have hLow : 3 / 2 ^ 20 ≤ value (forward.z * right.x) - value (right.z * forward.x) := by
    norm_num at *
    linarith
  generalize value (forward.z * right.x) - value (right.z * forward.x) = rise at hUp hLow
  have hError := hUp.abs_sub_le
  rw [abs_of_nonneg (le_trans (by positivity) hLow : 0 ≤ rise)] at hError
  have hBelow := (abs_le.mp hError).1
  norm_num at *
  linarith

/-- A part along an axis across the view is next to nothing where the view is nearly level and
the ray is near its center. -/
theorem abs_mul_le_of_level {r y b part up side : ℝ} (hr : |r| ≤ 3) (hy : |y| ≤ 1 / 2 ^ 22)
    (hb : |b| ≤ 1 / 4) (hPart : Near (r * y) part) (hUp : Near part up)
    (hSide : Near (up * b) side) : |r * side| ≤ 1 / 2 ^ 20 := by
  have hProduct : |r * y| ≤ 3 / 2 ^ 22 := by
    rw [abs_mul]
    exact (mul_le_mul hr hy (abs_nonneg _) (by norm_num)).trans (by norm_num)
  have hMost : |up| ≤ 25 / 8 / 2 ^ 22 := (hUp.abs_le (hPart.abs_le hProduct)).trans (by norm_num)
  have hLength : |up * b| ≤ 25 / 32 / 2 ^ 22 := by
    rw [abs_mul]
    exact (mul_le_mul hMost hb (abs_nonneg _) (by positivity)).trans (by norm_num)
  have hBound : |side| ≤ 1 / 2 ^ 22 := (hSide.abs_le hLength).trans (by norm_num)
  rw [abs_mul]
  exact (mul_le_mul hr hBound (abs_nonneg _) (by norm_num)).trans (by norm_num)

/-- Where the parts upwards end the view, they lead away from it on both sides, or they are next
to nothing. -/
theorem Axes.leads (h : Axes forward right) (hb : Within (2 ^ 28) b)
    (hRises : 1 / 2 ^ 19 ≤ value (forward.cross right).y)
    (hSecond : |value forward.y + value ((forward.cross right).y * b)| ≤ 1 / 2 ^ 22) :
    -(1 / 2 ^ 20) ≤ value right.x * value ((forward.cross right).z * b) ∧
      value right.z * value ((forward.cross right).x * b) ≤ 1 / 2 ^ 20 := by
  obtain ⟨⟨hFirst, hUpX⟩, -, hThird, hUpZ⟩ := h.up
  obtain ⟨hWithinX, hWithinY, hWithinZ⟩ :=
    Vec3.within_iff.mp (Vec3.within_cross h.within_forward h.within_right)
  obtain ⟨hRightX, -, hRightZ⟩ := Vec3.within_iff.mp h.within_right
  have hLeft := (hWithinX.approximates_mul hb (by norm_num)).near
  have hAbove := (hWithinY.approximates_mul hb (by norm_num)).near
  have hDeep := (hWithinZ.approximates_mul hb (by norm_num)).near
  have hp := hRightX.abs_le
  have hq := hRightZ.abs_le
  generalize value ((forward.cross right).x * b) = left at *
  generalize value ((forward.cross right).y * b) = above at *
  generalize value ((forward.cross right).z * b) = deep at *
  generalize value right.x = p at *
  generalize value right.z = q at *
  generalize value forward.y = y at *
  rcases le_or_gt (y * value b) 0 with hAway | hAlong
  · have hDeepSide : 0 ≤ deep * p := by
      refine hDeep.side ?_
      rw [mul_assoc]
      refine hUpZ.side ?_
      rw [neg_mul, ← mul_neg]
      refine hThird.side ?_
      rw [show p * y * -(value b * p) = p ^ 2 * -(y * value b) by ring]
      exact mul_nonneg (sq_nonneg p) (neg_nonneg.mpr hAway)
    have hLeftSide : 0 ≤ left * -q := by
      refine hLeft.side ?_
      rw [mul_assoc]
      refine hUpX.side ?_
      refine hFirst.side ?_
      rw [show y * q * (value b * -q) = q ^ 2 * -(y * value b) by ring]
      exact mul_nonneg (sq_nonneg q) (neg_nonneg.mpr hAway)
    constructor
    · linarith [show (0 : ℝ) ≤ 1 / 2 ^ 20 by positivity]
    · linarith [show (0 : ℝ) ≤ 1 / 2 ^ 20 by positivity]
  · have hPos : 0 < value (forward.cross right).y := lt_of_lt_of_le (by positivity) hRises
    have hSame : 0 ≤ above * y := by
      refine hAbove.side ?_
      rw [mul_assoc, mul_comm (value b)]
      exact mul_nonneg hPos.le hAlong.le
    have hSum : |y + above| = |y| + |above| :=
      (abs_add_eq_add_abs_iff _ _).mpr ((mul_nonneg_iff.mp hSame).imp And.symm And.symm)
    have hView : |y| ≤ 1 / 2 ^ 22 := by linarith [abs_nonneg above]
    have hLength : |value b| ≤ 1 / 4 := by
      have hExact := hAbove.abs_exact_le (A := 1 / 2 ^ 22) (by linarith [abs_nonneg y])
      rw [abs_mul, abs_of_pos hPos] at hExact
      have hScaled := mul_le_mul_of_nonneg_right hRises (abs_nonneg (value b))
      norm_num at hExact hScaled ⊢
      linarith
    have hNegated : Near (-p * y) (-value (right.x * forward.y)) := by
      rw [neg_mul]
      exact hThird.neg
    have hDeepBound := abs_mul_le_of_level (by rwa [abs_neg]) hView hLength hNegated hUpZ hDeep
    rw [neg_mul, abs_neg] at hDeepBound
    rw [mul_comm] at hFirst
    have hLeftBound := abs_mul_le_of_level hq hView hLength hFirst hUpX hLeft
    exact ⟨(abs_le.mp hDeepBound).1, (abs_le.mp hLeftBound).2⟩

/-- The direction of a ray is never too short to be told. -/
theorem Axes.lengthSquared_ne_zero (h : Axes forward right) (ha : Within (2 ^ 60) a)
    (hb : Within (2 ^ 28) b) :
    value (forward + offset forward right a b).lengthSquared ≠ 0 := by
  rcases h.lies with ⟨hOne, hLevel, hz, hy⟩ | ⟨hx, hz, hApart⟩
  · exact h.not_cancels_steep ha hb hOne hLevel hz hy
  · intro hNone
    obtain ⟨hRightX, -, hRightZ⟩ := Vec3.within_iff.mp h.within_right
    obtain ⟨hFirst, hSecond, hThird⟩ := h.cancels ha hb hNone
    obtain ⟨hDeep, hLeft⟩ := h.leads hb (h.rises hx hz hApart) hSecond
    exact (lt_of_cancels hRightX.abs_le hRightZ.abs_le
      (hRightX.approximates_mul ha (by norm_num)).near
      (hRightZ.approximates_mul ha (by norm_num)).near hFirst hThird hx hz hDeep hLeft).not_ge hApart

/-! ### The axes of a view -/

/-- The axis to the right of a view, as a camera takes it. -/
def rightOf (forward : Vec3 Float32) : Vec3 Float32 :=
  if (Vec3.axisY.cross forward).length < 0.0001 then .axisX
  else (Vec3.axisY.cross forward).normalize

theorem within_one : Within 3 1.0 :=
  ⟨rfl, by rw [value_one]; norm_num⟩

theorem within_zero : Within 3 0.0 :=
  ⟨rfl, by rw [value_zero]; norm_num⟩

/-- The product of the axis upwards with a view has components of the view, rounded twice. -/
theorem across (h : forward.Within 3) :
    (∃ z, Near (value forward.z) z ∧ Near z (value (Vec3.axisY.cross forward).x)) ∧
      value (Vec3.axisY.cross forward).y = 0 ∧
        ∃ x, Near (value forward.x) x ∧ Near (-x) (value (Vec3.axisY.cross forward).z) := by
  obtain ⟨hx, hy, hz⟩ := Vec3.within_iff.mp h
  have hProduct {x y : Float32} (hx : Within 3 x) (hy : Within 3 y) :
      Within 10 (x * y) ∧ Near (value x * value y) (value (x * y)) :=
    ⟨hx.mul hy (by norm_num) (by norm_num), (hx.approximates_mul hy (by norm_num)).near⟩
  have hFirst := hProduct within_one hz
  have hThird := hProduct hx within_one
  have hLeft {x : Float32} (hx : Within 3 x) : value (0.0 * x) = 0 := by
    have hNear := (hProduct within_zero hx).2
    rw [value_zero, zero_mul] at hNear
    exact hNear.eq_zero
  have hRight {x : Float32} (hx : Within 3 x) : value (x * 0.0) = 0 := by
    have hNear := (hProduct hx within_zero).2
    rw [value_zero, mul_zero] at hNear
    exact hNear.eq_zero
  have hX := (hFirst.1.approximates_sub (hProduct hy within_zero).1 (by norm_num)).near
  have hY := ((hProduct within_zero hx).1.approximates_sub (hProduct hz within_zero).1
    (by norm_num)).near
  have hZ := ((hProduct within_zero hy).1.approximates_sub hThird.1 (by norm_num)).near
  rw [hRight hy, sub_zero] at hX
  rw [hLeft hx, hRight hz, sub_zero] at hY
  rw [hLeft hy, zero_sub] at hZ
  rw [value_one, one_mul] at hFirst
  rw [value_one, mul_one] at hThird
  exact ⟨⟨_, hFirst.2, hX⟩, hY.eq_zero, _, hThird.2, hZ⟩

theorem within_across (h : forward.Within 3) : (Vec3.axisY.cross forward).Within (2 ^ 62) :=
  fun x hx => (Vec3.within_cross (Vec3.within_iff.mpr ⟨within_zero, within_one, within_zero⟩) h x
    hx).mono (by norm_num)

theorem value_steep : value 0.0001 = 13743895 / 2 ^ 37 := by
  rw [value_of_place (e := -37) (m := 13743895) rfl (by decide)]
  norm_num

/-- The axis to the right of a steep view is that of the world. -/
theorem axes_of_steep (h : forward.Within 3) (hView : 1 / 6 ≤ |value forward.x| ∨
    1 / 6 ≤ |value forward.y| ∨ 1 / 6 ≤ |value forward.z|)
    (hSteep : (Vec3.axisY.cross forward).length < 0.0001) : Axes forward .axisX := by
  have hWithin := within_across h
  have hSmall : ∀ x ∈ (Vec3.axisY.cross forward).toList, |value x| ≤ 22 / 100000 := by
    by_cases hNone : value (Vec3.axisY.cross forward).lengthSquared = 0
    · exact fun x hx => (abs_le_of_lengthSquared hWithin hNone x hx).trans (by norm_num)
    · obtain ⟨hFinite, -, -, hLength⟩ := Vec3.abs_length_sub_le hWithin.isFinite_lengthSquared hNone
      rw [value_lt_iff hFinite rfl, value_steep] at hSteep
      have hBelow := (abs_le.mp hLength).1
      intro x hx
      refine (Vec3.abs_value_le_root hWithin.isFinite_lengthSquared hNone hx).trans ?_
      norm_num at hBelow hSteep ⊢
      linarith
  obtain ⟨⟨z, hZ, hAcrossX⟩, -, x, hX, hAcrossZ⟩ := across h
  simp only [Vec3.toList, List.forall_mem_cons] at hSmall
  have hFirst : |value forward.x| ≤ 1 / 2 ^ 12 :=
    (hX.abs_exact_le (le_of_eq_of_le (abs_neg x).symm (hAcrossZ.abs_exact_le hSmall.2.2.1))).trans
      (by norm_num)
  have hThird : |value forward.z| ≤ 1 / 2 ^ 12 :=
    (hZ.abs_exact_le (hAcrossX.abs_exact_le hSmall.1)).trans (by norm_num)
  have hSecond : 1 / 6 ≤ |value forward.y| := by
    rcases hView with hGreat | hGreat | hGreat
    · norm_num at hFirst
      linarith
    · exact hGreat
    · norm_num at hThird
      linarith
  exact ⟨h, Vec3.within_iff.mpr ⟨within_one, within_zero, within_zero⟩, value_zero,
    .inl ⟨value_one, value_zero, hThird, hSecond⟩⟩

/-- The axis to the right of any other view is turned away from it. -/
theorem axes_of_not_steep (h : forward.Within 3)
    (hSteep : ¬(Vec3.axisY.cross forward).length < 0.0001) :
    Axes forward (Vec3.axisY.cross forward).normalize := by
  have hWithin := within_across h
  have hSquare := hWithin.isFinite_lengthSquared
  have hSome : value (Vec3.axisY.cross forward).lengthSquared ≠ 0 := by
    intro hNone
    have hLength : Approximates (Vec3.axisY.cross forward).length
        √(value (Vec3.axisY.cross forward).lengthSquared) :=
      approximates_sqrt hSquare hNone.ge
    rw [hNone, Real.sqrt_zero] at hLength
    rw [value_lt_iff hLength.isFinite rfl, hLength.near.eq_zero,
      value_steep] at hSteep
    norm_num at hSteep
  obtain ⟨hFinite, -, -, hLength⟩ := Vec3.abs_length_sub_le hSquare hSome
  rw [value_lt_iff hFinite rfl, value_steep] at hSteep
  have hAbove := (abs_le.mp hLength).2
  obtain ⟨M, hRoot, hGreatest⟩ := Vec3.exists_greatest_normalize hSquare hSome
  have hMost : 24 / 1000000 ≤ M := by
    norm_num at hAbove hSteep
    linarith
  obtain ⟨hScaleX, hScaleY, hScaleZ⟩ :=
    Vec3.scales_normalize hSquare hSome fun x hx => (hWithin x hx).abs_le
  obtain ⟨⟨z, hZ, hAcrossX⟩, hLevel, x, hX, hAcrossZ⟩ := across h
  have hFirst : 0 ≤ value (Vec3.axisY.cross forward).normalize.x * value forward.z :=
    hScaleX.side _ (hAcrossX.side (hZ.side (mul_self_nonneg _)))
  have hThird : 0 ≤ value (Vec3.axisY.cross forward).normalize.z * -value forward.x := by
    refine hScaleZ.side _ (hAcrossZ.side ?_)
    rw [neg_mul_neg]
    exact hX.side (mul_self_nonneg _)
  refine ⟨h, Vec3.within_normalize hSquare hSome, hScaleY.eq_zero hLevel, .inr ⟨hFirst, ?_, ?_⟩⟩
  · linarith
  · have hPart {r f c : ℝ} (hr : 1 / 6 ≤ |r|) (hc : |c| = M)
        (hNear : |c| ≤ (|f| * (1 + 1 / 2 ^ 24) + 1 / 2 ^ 150) * (1 + 1 / 2 ^ 24) + 1 / 2 ^ 150)
        (hSide : 0 ≤ r * f) : 1 / 2 ^ 18 ≤ r * f := by
      have hf : 239 / 10000000 ≤ |f| := by
        norm_num at hNear
        linarith
      rw [← abs_of_nonneg hSide, abs_mul]
      exact le_trans (by norm_num) (mul_le_mul hr hf (by norm_num) (abs_nonneg r))
    rcases hGreatest with ⟨hMax, hLarge⟩ | ⟨hMax, -⟩ | ⟨hMax, hLarge⟩
    · have hApart := hPart hLarge hMax (hAcrossX.abs_le (hZ.abs_le le_rfl)) hFirst
      linarith
    · rw [hLevel, abs_zero] at hMax
      norm_num [← hMax] at hMost
    · have hNegated : |-x| ≤ |-value forward.x| * (1 + 1 / 2 ^ 24) + 1 / 2 ^ 150 := by
        rw [abs_neg, abs_neg]
        exact hX.abs_le le_rfl
      have hApart := hPart hLarge hMax (hAcrossZ.abs_le hNegated) hThird
      linarith

/-- A view that is not steep has an axis to its right that is turned away from it. -/
theorem axes_rightOf (h : forward.Within 3) (hView : 1 / 6 ≤ |value forward.x| ∨
    1 / 6 ≤ |value forward.y| ∨ 1 / 6 ≤ |value forward.z|) : Axes forward (rightOf forward) := by
  unfold rightOf
  split
  · rename_i hSteep
    exact axes_of_steep h hView hSteep
  · rename_i hSteep
    exact axes_of_not_steep h hSteep

end Frame

end PathTracer
