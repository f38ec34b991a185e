import PathTracer.Proofs.Binary32.Error
import PathTracer.Proofs.Render.Averages

/-! The running average of a pixel. It stays a number that is not below zero, and it is finite
as long as the product with the number of samples is. -/
namespace PathTracer

namespace Pass

open Binary32

/-- One component of the average after one more sample that is not the first. -/
def averaged (index : Nat) (old color : Float32) : Float32 :=
  (old * Float32.ofNat index + color) / (Float32.ofNat index + 1.0)

/-- Components of light that is kept. -/
def IsModerate (x : Float32) : Prop :=
  0.0 ≤ x ∧ x ≤ greatestRadiance

variable {index : Nat} {old color x : Float32}

/-! ### Components -/

theorem value_greatestRadiance : value greatestRadiance = 13234890 * 2 ^ 76 := by
  rw [value_of_place (e := 76) (m := 13234890) (by decide +kernel) (by decide)]
  norm_num

theorem isFinite_greatestRadiance : greatestRadiance.isFinite = true := by
  decide +kernel

theorem IsModerate.isFinite (h : IsModerate x) : x.isFinite = true :=
  isFinite_of_le rfl isFinite_greatestRadiance h.1 h.2

theorem IsModerate.value_nonneg (h : IsModerate x) : 0 ≤ value x := by
  rw [← value_zero, ← value_le_iff rfl h.isFinite]
  exact h.1

theorem IsModerate.value_le (h : IsModerate x) : value x ≤ 13234890 * 2 ^ 76 := by
  rw [← value_greatestRadiance, ← value_le_iff h.isFinite isFinite_greatestRadiance]
  exact h.2

theorem not_neg_of_value_nonneg (hFinite : x.isFinite = true) (h : 0 ≤ value x) : ¬x < 0.0 := by
  rw [value_lt_iff hFinite rfl, value_zero]
  exact h.not_gt

theorem value_nonneg_of_not_neg (hFinite : x.isFinite = true) (h : ¬x < 0.0) : 0 ≤ value x := by
  rwa [value_lt_iff hFinite rfl, value_zero, not_lt] at h

theorem IsModerate.not_neg (h : IsModerate x) : ¬x < 0.0 :=
  not_neg_of_value_nonneg h.isFinite h.value_nonneg

/-- The number of samples with the new one. -/
theorem one_le_count (hPos : 0 < index) (hLess : index < 2 ^ 32) :
    (Float32.ofNat index + 1.0).isFinite = true ∧ 1 ≤ value (Float32.ofNat index + 1.0) := by
  have hOne : Within 1 1.0 := ⟨rfl, by rw [value_one]; norm_num⟩
  obtain ⟨hLeast, -⟩ := value_ofNat_bounds hPos hLess
  have hSum := (within_ofNat hPos hLess).approximates_add hOne (by norm_num)
  have hError := hSum.near.abs_sub_le
  rw [value_one, abs_of_nonneg (by linarith : 0 ≤ value (Float32.ofNat index) + 1)] at hError
  have hBelow := (abs_le.mp hError).1
  refine ⟨hSum.isFinite, ?_⟩
  norm_num at hBelow
  linarith

theorem IsModerate.not_neg_sum (h : IsModerate old) (hLess : index < 2 ^ 32) :
    ¬old * Float32.ofNat index < 0.0 :=
  have hIndex := approximates_ofNat hLess
  not_neg_mul h.not_neg
    (not_neg_of_value_nonneg hIndex.isFinite (hIndex.near.nonneg index.cast_nonneg))

/-- Where the product of the old average with the number of samples is finite, so is the new
average, and it is not below zero. The sum cannot overflow after the product did not, since
one sample is small beside it. -/
theorem averaged_of_isFinite (hPos : 0 < index) (hLess : index < 2 ^ 32) (hOld : IsModerate old)
    (hColor : IsModerate color) (hProduct : (old * Float32.ofNat index).isFinite = true) :
    (averaged index old color).isFinite = true ∧ ¬averaged index old color < 0.0 := by
  obtain ⟨hCount, hOne⟩ := one_le_count hPos hLess
  have hSide := value_nonneg_of_not_neg hProduct (hOld.not_neg_sum hLess)
  have hMost := (abs_le.mp (abs_value_le hProduct)).2
  have hNew := hColor.value_nonneg
  have hGreat := hColor.value_le
  have hSum := approximates_add hProduct hColor.isFinite (by
    rw [abs_of_nonneg (add_nonneg hSide hNew)]
    unfold overflow
    norm_num at hMost hGreat ⊢
    linarith)
  have hSumSide := hSum.near.nonneg (add_nonneg hSide hNew)
  have hSumMost := (abs_le.mp (abs_value_le hSum.isFinite)).2
  have hQuotient := div_nonneg hSumSide (zero_le_one.trans hOne)
  have hResult := approximates_div hSum.isFinite hCount (by linarith) (by
    rw [abs_of_nonneg hQuotient]
    refine (div_le_self hSumSide hOne).trans_lt ?_
    unfold overflow
    norm_num at hSumMost ⊢
    linarith)
  exact ⟨hResult.isFinite, not_neg_of_value_nonneg hResult.isFinite (hResult.near.nonneg hQuotient)⟩

/-- Where the product leaves the range, so does the average. -/
theorem averaged_of_not_isFinite (hPos : 0 < index) (hLess : index < 2 ^ 32)
    (hOld : IsModerate old) (hColor : IsModerate color)
    (hProduct : (old * Float32.ofNat index).isFinite = false) :
    (averaged index old color).toModel.unpack = .infinity .positive := by
  obtain ⟨hCount, hOne⟩ := one_le_count hPos hLess
  have hInf : (Float32.ofNat index).isInf = false :=
    isInf_of_isFinite (approximates_ofNat hLess).isFinite
  have hNumber : (old * Float32.ofNat index).isNaN = false := by
    rw [← Bool.not_eq_true, isNaN_mul_iff (isNaN_of_isFinite hOld.isFinite) (reaches_ofNat hPos)]
    exact fun h => absurd h.2 (by rw [hInf]; exact Bool.false_ne_true)
  have hSide := hOld.not_neg_sum hLess
  obtain ⟨sign, hUnpack⟩ := exists_infinity hNumber hProduct
  rw [not_neg_iff, hUnpack] at hSide
  obtain rfl : sign = .positive := hSide
  have hReaches : 0.0 < Float32.ofNat index + 1.0 := by
    rw [value_lt_iff rfl hCount, value_zero]
    linarith
  exact unpack_div_infinity (unpack_add_infinity hUnpack hColor.isFinite) hCount
    (pos_iff_reaches.mp hReaches)

theorem isFinite_averaged_iff (hPos : 0 < index) (hLess : index < 2 ^ 32) (hOld : IsModerate old)
    (hColor : IsModerate color) :
    (averaged index old color).isFinite = true ↔
      (old * Float32.ofNat index).isFinite = true := by
  constructor
  · intro hFinite
    by_contra hProduct
    have hUnpack := averaged_of_not_isFinite hPos hLess hOld hColor (Bool.eq_false_iff.mpr hProduct)
    change (averaged index old color).toModel.unpack.isFinite = true at hFinite
    rw [hUnpack] at hFinite
    cases hFinite
  · exact fun hProduct => (averaged_of_isFinite hPos hLess hOld hColor hProduct).1

/-- In the range or not, the average is a number that is not below zero. -/
theorem averaged_isNumber (hPos : 0 < index) (hLess : index < 2 ^ 32) (hOld : IsModerate old)
    (hColor : IsModerate color) :
    (averaged index old color).isNaN = false ∧ ¬averaged index old color < 0.0 := by
  by_cases hProduct : (old * Float32.ofNat index).isFinite = true
  · obtain ⟨hFinite, hSide⟩ := averaged_of_isFinite hPos hLess hOld hColor hProduct
    exact ⟨isNaN_of_isFinite hFinite, hSide⟩
  · have hUnpack := averaged_of_not_isFinite hPos hLess hOld hColor (Bool.eq_false_iff.mpr hProduct)
    refine ⟨?_, ?_⟩
    · show (averaged index old color).toModel.unpack.isNaN = false
      rw [hUnpack]
      rfl
    · rw [not_neg_iff, hUnpack]
      rfl

/-- Up to so many samples no product leaves the range. -/
theorem IsModerate.isFinite_mul (h : IsModerate old) (hPos : 0 < index)
    (hMost : index ≤ 340000000) : (old * Float32.ofNat index).isFinite = true := by
  have hIndex := within_ofNat hPos (by omega)
  obtain ⟨hLeast, hCount⟩ := value_ofNat_bounds hPos (by omega)
  have hFew : (index : ℝ) ≤ 340000000 := by exact_mod_cast hMost
  have hSize : |value (Float32.ofNat index)| ≤ 340000325 := by
    rw [abs_of_nonneg (by linarith)]
    norm_num at hCount
    linarith
  have hOld : |value old| ≤ 13234890 * 2 ^ 76 := by
    rw [abs_of_nonneg h.value_nonneg]
    exact h.value_le
  refine (approximates_mul h.isFinite hIndex.isFinite ?_).isFinite
  rw [abs_mul]
  refine (mul_le_mul hOld hSize (abs_nonneg _) (by norm_num)).trans_lt ?_
  unfold overflow
  norm_num

/-! ### Colors -/

/-- What is kept of a sample's light is moderate in all components, whatever the sample was.
Light that is no number, infinite or below zero is replaced by darkness. -/
theorem isModerate_sanitize (c : Vec3 Float32) : ∀ x ∈ (sanitize c).toList, IsModerate x := by
  have hZero : IsModerate 0.0 := ⟨le_self rfl, by decide +kernel⟩
  unfold sanitize
  split
  · rename_i hLight
    intro x hx
    have hComponent := List.all_eq_true.mp hLight x hx
    simp only [Bool.and_eq_true, Bool.not_eq_true', decide_eq_false_iff_not] at hComponent
    obtain ⟨⟨hFinite, hSide⟩, hMost⟩ := hComponent
    constructor
    · rw [value_le_iff rfl hFinite, value_zero]
      exact value_nonneg_of_not_neg hFinite hSide
    · rw [value_le_iff hFinite isFinite_greatestRadiance]
      exact not_lt.mp fun hAbove =>
        hMost ((value_lt_iff isFinite_greatestRadiance hFinite).mpr hAbove)
  · intro x hx
    have hSame : x = 0.0 := List.eq_of_mem_replicate (n := 3) hx
    exact hSame ▸ hZero

theorem average_of_pos {old color : Vec3 Float32} (h : 0 < index) :
    average index old color = old.zipWith (averaged index) color := by
  rw [average, if_neg h.ne']
  rfl

/-- What holds of the averages of components holds of the components of the average. -/
theorem forall_average {old color : Vec3 Float32} {P Q : Float32 → Prop} (hPos : 0 < index)
    (hColor : ∀ y ∈ color.toList, IsModerate y)
    (h : ∀ x ∈ old.toList, ∀ y, IsModerate y → (P (averaged index x y) ↔ Q x)) :
    (∀ x ∈ (average index old color).toList, P x) ↔ ∀ x ∈ old.toList, Q x := by
  rw [average_of_pos hPos]
  simp only [Vec3.toList, Vec3.zipWith, List.forall_mem_cons] at hColor h ⊢
  rw [h.1 _ hColor.1, h.2.1 _ hColor.2.1, h.2.2.1 _ hColor.2.2.1]
  simp

/-- The average with one more sample is three numbers that are not below zero, whatever
light the sample brings. They are finite if and only if the products with the number of
samples are, which is so for hundreds of millions of samples. Light that is none counts as
darkness. The average before must be one that could have come of samples: finite, and
between zero and the greatest light. That it approaches anything is not said. -/
theorem accumulate_isFinite_iff (s : Site) (p : Pixel) (hIndex : s.frame.sampleIndex < 2 ^ 32)
    (hOld : ∀ x ∈ p.accum.truncate.toList, x.isFinite = true ∧ 0.0 ≤ x ∧ x ≤ 1e30) :
    (∀ x ∈ (accumulate s p).accum.truncate.toList, x.isNaN = false ∧ ¬x < 0.0) ∧
    ((∀ x ∈ (accumulate s p).accum.truncate.toList, x.isFinite = true) ↔
      s.frame.sampleIndex = 0 ∨
        ∀ x ∈ p.accum.truncate.toList,
          (x * Float32.ofNat s.frame.sampleIndex).isFinite = true) ∧
    (s.frame.sampleIndex ≤ 340000000 →
      ∀ x ∈ (accumulate s p).accum.truncate.toList, x.isFinite = true) ∧
    ((∃ x ∈ p.radiance.truncate.toList, x.isFinite = false ∨ x < 0.0 ∨ 1e30 < x) →
      (accumulate s p).accum = (accumulate s { p with radiance := .splat 0.0 }).accum) := by
  have hModerate : ∀ x ∈ p.accum.truncate.toList, IsModerate x := fun x hx => (hOld x hx).2
  have hColor := isModerate_sanitize p.radiance.truncate
  have hAccum : (accumulate s p).accum.truncate =
      average s.frame.sampleIndex p.accum.truncate (sanitize p.radiance.truncate) := rfl
  rw [hAccum]
  have hFirst (hZero : s.frame.sampleIndex = 0) :
      average s.frame.sampleIndex p.accum.truncate (sanitize p.radiance.truncate) =
        sanitize p.radiance.truncate := if_pos hZero
  have hIff : (∀ x ∈ (average s.frame.sampleIndex p.accum.truncate
      (sanitize p.radiance.truncate)).toList, x.isFinite = true) ↔ s.frame.sampleIndex = 0 ∨
        ∀ x ∈ p.accum.truncate.toList,
          (x * Float32.ofNat s.frame.sampleIndex).isFinite = true := by
    rcases Nat.eq_zero_or_pos s.frame.sampleIndex with hZero | hPos
    · rw [hFirst hZero]
      exact iff_of_true (fun x hx => (hColor x hx).isFinite) (.inl hZero)
    · rw [or_iff_right hPos.ne']
      exact forall_average hPos hColor fun x hx y hy =>
        isFinite_averaged_iff hPos hIndex (hModerate x hx) hy
  refine ⟨?_, hIff, ?_, ?_⟩
  · rcases Nat.eq_zero_or_pos s.frame.sampleIndex with hZero | hPos
    · rw [hFirst hZero]
      exact fun x hx => ⟨isNaN_of_isFinite (hColor x hx).isFinite, (hColor x hx).not_neg⟩
    · exact (forall_average (Q := fun _ => True) hPos hColor fun x hx y hy =>
        iff_true_intro (averaged_isNumber hPos hIndex (hModerate x hx) hy)).mpr fun _ _ => trivial
  · intro hFew
    rcases Nat.eq_zero_or_pos s.frame.sampleIndex with hZero | hPos
    · exact hIff.mpr (.inl hZero)
    · exact hIff.mpr (.inr fun x hx => (hModerate x hx).isFinite_mul hPos hFew)
  · rintro ⟨x, hx, hFault⟩
    have hDark : sanitize p.radiance.truncate = .zero := by
      refine if_neg fun hLight => ?_
      have hComponent := List.all_eq_true.mp hLight x hx
      simp only [Bool.and_eq_true, Bool.not_eq_true', decide_eq_false_iff_not] at hComponent
      obtain ⟨⟨hFinite, hSide⟩, hMost⟩ := hComponent
      rcases hFault with hNot | hNeg | hGreat
      · rw [hFinite] at hNot
        cases hNot
      · exact hSide hNeg
      · exact hMost hGreat
    have hBlack : sanitize (Vec4.splat (0.0 : Float32)).truncate = .zero := by
      unfold sanitize
      split <;> rfl
    show (average s.frame.sampleIndex p.accum.truncate (sanitize p.radiance.truncate)).extend 1.0 =
      (average s.frame.sampleIndex p.accum.truncate
        (sanitize (Vec4.splat (0.0 : Float32)).truncate)).extend 1.0
    rw [hDark, hBlack]

theorem accumulate_isFinite_iff_sky :
    (∀ x ∈ (accumulate ⟨.sky, .sky 1, 0⟩ .ended).accum.truncate.toList, x.isFinite = true) ∧
      (accumulate ⟨.sky, .sky 1, 0⟩
        { Pixel.ended with radiance := ⟨2e30, 1.0, 1.0, 0.0⟩ }).accum = ⟨3.5, 3.5, 3.5, 1.0⟩ := by
  have hOld : ∀ x ∈ Pixel.ended.accum.truncate.toList, x.isFinite = true ∧ 0.0 ≤ x ∧ x ≤ 1e30 := by
    decide +kernel
  have hIndex : (Frame.sky 1).sampleIndex < 2 ^ 32 := by decide
  refine
    ⟨(accumulate_isFinite_iff ⟨.sky, .sky 1, 0⟩ .ended hIndex hOld).2.2.1 (by decide), ?_⟩
  rw [(accumulate_isFinite_iff ⟨.sky, .sky 1, 0⟩ { Pixel.ended with
    radiance := ⟨2e30, 1.0, 1.0, 0.0⟩ } hIndex hOld).2.2.2 (by decide +kernel)]
  decide +kernel

/-- After so many samples of the greatest light that is kept, the average is lost. -/
theorem accumulate_of_manySamples :
    ¬∀ (s : Site) (p : Pixel), s.frame.sampleIndex < 2 ^ 32 →
      (∀ x ∈ p.accum.truncate.toList, x.isFinite = true ∧ 0.0 ≤ x ∧ x ≤ 1e30) →
        ∀ x ∈ (accumulate s p).accum.truncate.toList, x.isFinite = true ∧ ¬x < 0.0 := by
  intro hClaim
  have hLost := hClaim ⟨.sky, .sky 340282368, 0⟩ { Pixel.blank with accum := .splat 1e30 }
    (by decide) (by decide +kernel)
  revert hLost
  decide +kernel

end Pass

end PathTracer
