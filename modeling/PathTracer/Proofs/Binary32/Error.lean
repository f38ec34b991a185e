import PathTracer.Proofs.Binary32.Exact

/-! Bounds that results keep. A sum, a difference or a product of numbers within bounds is a
number within a bound of its own, as long as none of the bounds is near the end of the range. -/
namespace PathTracer.Binary32

open Float.Model (UnpackedFloat)

variable {a b c : Float32} {x y r A B C : ℝ}

/-! ### Nearness -/

/-- Rounding keeps the side, seen from any other number. -/
theorem Near.side (h : Near x r) (hSide : 0 ≤ x * y) : 0 ≤ r * y := by
  rcases lt_trichotomy y 0 with hNeg | rfl | hPos
  · exact mul_nonneg_of_nonpos_of_nonpos (h.nonpos (nonpos_of_mul_nonneg_left hSide hNeg)) hNeg.le
  · rw [mul_zero]
  · exact mul_nonneg (h.nonneg (nonneg_of_mul_nonneg_left hSide hPos)) hPos.le

theorem Near.eq_zero (h : Near 0 r) : r = 0 :=
  le_antisymm (h.nonpos le_rfl) (h.nonneg le_rfl)

/-- A rounding is not much greater than the number itself. -/
theorem Near.abs_le (h : Near x r) (hMost : |x| ≤ A) :
    |r| ≤ A * (1 + 1 / 2 ^ 24) + 1 / 2 ^ 150 := by
  have hError := h.abs_sub_le
  have hTriangle := abs_sub_abs_le_abs_sub r x
  linarith

/-- The exact number from the rounded one. -/
theorem Near.abs_exact_le (h : Near x r) (hMost : |r| ≤ A) :
    |x| ≤ (A + 1 / 2 ^ 150) * (1 + 1 / 2 ^ 23) := by
  have hError := h.abs_sub_le
  have hTriangle := abs_sub_abs_le_abs_sub x r
  rw [abs_sub_comm] at hTriangle
  have hPos := abs_nonneg x
  norm_num at hError ⊢
  linarith

theorem Near.neg (h : Near x r) : Near (-x) (-r) where
  error k hLeast hLess := by
    rw [abs_neg] at hLess
    rw [neg_sub_neg, abs_sub_comm]
    exact h.error k hLeast hLess
  nonneg hSide := neg_nonneg.mpr (h.nonpos (neg_nonneg.mp hSide))
  nonpos hSide := neg_nonpos.mpr (h.nonneg (neg_nonpos.mp hSide))

/-! ### Bounds -/

/-- A finite number of at most the magnitude `A`. -/
structure Within (A : ℝ) (a : Float32) : Prop where
  isFinite : a.isFinite = true
  abs_le : |value a| ≤ A

/-- A bound may be raised. -/
theorem Within.mono (h : Within A a) (hMost : A ≤ B) : Within B a :=
  ⟨h.isFinite, h.abs_le.trans hMost⟩

/-- What is near to a bounded number is bounded, with room for one rounding. -/
theorem Approximates.within (h : Approximates c x) (hMost : |x| ≤ A)
    (hNext : A * (1 + 1 / 2 ^ 24) + 1 / 2 ^ 150 ≤ C) : Within C c :=
  ⟨h.isFinite, (h.near.abs_le hMost).trans hNext⟩

theorem lt_overflow (h : A ≤ 2 ^ 127) : A < overflow := by
  refine h.trans_lt ?_
  unfold overflow
  norm_num

section Operations

variable (ha : Within A a) (hb : Within B b)

include ha hb

/-- The sum of floats that are not huge is near to the exact sum. -/
theorem Within.approximates_add (hMost : A + B ≤ 2 ^ 127) :
    Approximates (a + b) (value a + value b) :=
  Binary32.approximates_add ha.isFinite hb.isFinite
    (lt_overflow (((abs_add_le _ _).trans (add_le_add ha.abs_le hb.abs_le)).trans hMost))

/-- The difference of floats that are not huge is near to the exact difference. -/
theorem Within.approximates_sub (hMost : A + B ≤ 2 ^ 127) :
    Approximates (a - b) (value a - value b) :=
  Binary32.approximates_sub ha.isFinite hb.isFinite
    (lt_overflow (((abs_sub _ _).trans (add_le_add ha.abs_le hb.abs_le)).trans hMost))

theorem Within.abs_mul_le : |value a * value b| ≤ A * B := by
  rw [abs_mul]
  exact mul_le_mul ha.abs_le hb.abs_le (abs_nonneg _) ((abs_nonneg _).trans ha.abs_le)

/-- The product of floats that are not huge is near to the exact product. -/
theorem Within.approximates_mul (hMost : A * B ≤ 2 ^ 127) :
    Approximates (a * b) (value a * value b) :=
  Binary32.approximates_mul ha.isFinite hb.isFinite
    (lt_overflow ((Within.abs_mul_le ha hb).trans hMost))

/-- The sum of bounded floats is bounded, with room for one rounding. -/
theorem Within.add (hMost : A + B ≤ 2 ^ 127)
    (hNext : (A + B) * (1 + 1 / 2 ^ 24) + 1 / 2 ^ 150 ≤ C) : Within C (a + b) :=
  (ha.approximates_add hb hMost).within
    ((abs_add_le _ _).trans (add_le_add ha.abs_le hb.abs_le)) hNext

/-- The difference of bounded floats is bounded, with room for one rounding. -/
theorem Within.sub (hMost : A + B ≤ 2 ^ 127)
    (hNext : (A + B) * (1 + 1 / 2 ^ 24) + 1 / 2 ^ 150 ≤ C) : Within C (a - b) :=
  (ha.approximates_sub hb hMost).within
    ((abs_sub _ _).trans (add_le_add ha.abs_le hb.abs_le)) hNext

/-- The product of bounded floats is bounded, with room for one rounding. -/
theorem Within.mul (hMost : A * B ≤ 2 ^ 127)
    (hNext : A * B * (1 + 1 / 2 ^ 24) + 1 / 2 ^ 150 ≤ C) : Within C (a * b) :=
  (ha.approximates_mul hb hMost).within (ha.abs_mul_le hb) hNext

end Operations

/-! ### Magnitudes -/

theorem unpack_abs_eq (x : Float32) : x.abs.toModel.unpack = x.toModel.unpack.abs := by
  rw [unpack_abs]
  rcases hUnpack : x.toModel.unpack with _ | _ | _ | ⟨s, m, e, hm⟩
  · rfl
  · rfl
  · rfl
  · rw [UnpackedFloat.abs, kept, if_pos (canonical_of_unpack hUnpack).2]

/-- The value of a magnitude is the magnitude of the value. -/
theorem value_abs (x : Float32) : value x.abs = |value x| := by
  unfold value
  rw [unpack_abs_eq]
  rcases hUnpack : x.toModel.unpack with _ | _ | s | ⟨s, m, e, hm⟩
  · simp [valueOf, UnpackedFloat.abs, units]
  · simp [valueOf, UnpackedFloat.abs, units]
  · rw [valueOf_zero, abs_zero]
    exact valueOf_zero _
  · obtain ⟨hCanonical, -⟩ := canonical_of_unpack hUnpack
    rw [valueOf_finite hCanonical.least, abs_mul, abs_apply_one, one_mul,
      abs_of_nonneg (by positivity)]
    show valueOf (.finite .positive m e hm) = _
    rw [valueOf_finite hCanonical.least]
    exact (congrArg (· * _) Int.cast_one).trans (one_mul _)

theorem isFinite_abs (x : Float32) : x.abs.isFinite = x.isFinite := by
  show x.abs.toModel.unpack.isFinite = x.toModel.unpack.isFinite
  rw [unpack_abs_eq]
  cases x.toModel.unpack <;> rfl

/-- The magnitude of a number at or below a finite one. -/
theorem within_of_abs_le {x : Float32} (hFinite : c.isFinite = true) (h : x.abs ≤ c) :
    Within (value c) x := by
  have hAbs : x.isFinite = true ∧ x.abs.isFinite = true := by
    have hPlace := le_iff_place.mp h
    change c.toModel.unpack.isFinite = true at hFinite
    change x.toModel.unpack.isFinite = true ∧ x.abs.toModel.unpack.isFinite = true
    unfold place? at hPlace
    rw [unpack_abs_eq] at hPlace ⊢
    generalize x.toModel.unpack = u at *
    generalize c.toModel.unpack = v at *
    rcases u with _ | _ | _ | _
    · obtain ⟨p, q, hp, hq, hLess⟩ := hPlace
      obtain rfl := Option.some.inj hp
      rcases v with _ | _ | _ | ⟨_ | _, _, _, _⟩
      · cases hFinite
      · cases hFinite
      all_goals
        obtain rfl := Option.some.inj hq
        simp [Prod.Lex.toLex_le_toLex] at hLess
    · obtain ⟨p, q, hp, hq, hLess⟩ := hPlace
      cases hp
    · exact ⟨rfl, rfl⟩
    · exact ⟨rfl, rfl⟩
  refine ⟨hAbs.1, ?_⟩
  rwa [value_le_iff hAbs.2 hFinite, value_abs] at h

/-! ### Counts -/

/-- Whole numbers below `2 ^ 32` are converted with a small relative error. -/
theorem value_ofNat_bounds {n : Nat} (hPos : 0 < n) (hLess : n < 2 ^ 32) :
    15 / 16 ≤ value (Float32.ofNat n) ∧ value (Float32.ofNat n) ≤ (1 + 1 / 2 ^ 20) * n := by
  have hLeast : (1 : ℝ) ≤ n := by exact_mod_cast hPos
  have hError := (approximates_ofNat hLess).near.abs_sub_le
  rw [abs_of_nonneg (n.cast_nonneg : (0 : ℝ) ≤ n), abs_le] at hError
  norm_num at hError ⊢
  exact ⟨by linarith, by linarith⟩

theorem within_ofNat {n : Nat} (hPos : 0 < n) (hLess : n < 2 ^ 32) :
    Within (2 ^ 32 + 2 ^ 12) (Float32.ofNat n) := by
  obtain ⟨hLow, hHigh⟩ := value_ofNat_bounds hPos hLess
  have hMost : (n : ℝ) ≤ 2 ^ 32 := by exact_mod_cast hLess.le
  refine ⟨(approximates_ofNat hLess).isFinite, ?_⟩
  rw [abs_of_nonneg (by linarith)]
  refine hHigh.trans ((mul_le_mul_of_nonneg_left hMost (by positivity)).trans ?_)
  norm_num

end PathTracer.Binary32
