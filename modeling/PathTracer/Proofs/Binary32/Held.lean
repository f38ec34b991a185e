import PathTracer.Proofs.Binary32.Finite

/-! Whole numbers that are held. From `2 ^ 24` on not all of them are: a number is kept exactly
if all its bits but the highest twenty-four are zero, and only then is it read back, unless it is
the greatest number that a reading is held to. -/
namespace PathTracer.Binary32

open Float.Model (Format UnpackedFloat totalExponent)
open Float.Model.UnpackedFloat (Sign roundWithAccuracy decreaseExponent shiftToExponent)

/-- Whether all bits but the highest twenty-four are zero. -/
def Held (n : Nat) : Prop :=
  2 ^ (n.log2 - 23) ∣ n

instance (n : Nat) : Decidable (Held n) :=
  inferInstanceAs (Decidable (2 ^ (n.log2 - 23) ∣ n))

variable {n m e : Nat}

theorem held_of_lt (h : n < 2 ^ 24) : Held n := by
  have hLog : n.log2 - 23 = 0 := by
    by_cases hZero : n = 0
    · rw [hZero]
      rfl
    · have hBits : n.log2 < 24 := (Nat.log2_lt hZero).mpr h
      omega
  rw [Held, hLog, pow_zero]
  exact one_dvd n

/-- What has a mantissa of twenty-four bits is held. -/
theorem held_mul_two_pow (hPos : 0 < m) (h : m < 2 ^ 24) (e : Nat) : Held (m * 2 ^ e) := by
  have hBits : m.log2 < 24 := (Nat.log2_lt hPos.ne').mpr h
  rw [Held, log2_mul_two_pow hPos]
  exact (pow_dvd_pow 2 (by omega)).trans (dvd_mul_left _ _)

/-- A great number that is held has the form of memory. -/
theorem Held.exists_canonical (h : Held n) (hLow : 2 ^ 23 ≤ n) :
    ∃ m e : Nat, Canonical m e ∧ m * 2 ^ e = n := by
  obtain ⟨m, hm⟩ := h
  have hPos : n ≠ 0 := by omega
  have hLog : 23 ≤ n.log2 := (Nat.le_log2 hPos).mpr hLow
  have hFloor : 2 ^ n.log2 ≤ n := Nat.log2_self_le hPos
  have hNext : n < 2 ^ (n.log2 + 1) := Nat.lt_log2_self
  have hUnit : 0 < 2 ^ (n.log2 - 23) := Nat.two_pow_pos _
  have hFull : 2 ^ 23 ≤ m := by
    refine Nat.le_of_mul_le_mul_left ?_ hUnit
    rw [← hm, ← pow_add, Nat.sub_add_cancel hLog]
    exact hFloor
  have hFits : m < 2 ^ 24 := by
    refine Nat.lt_of_mul_lt_mul_left (a := 2 ^ (n.log2 - 23)) ?_
    rw [← hm, ← pow_add, show n.log2 - 23 + 24 = n.log2 + 1 by omega]
    exact hNext
  exact ⟨m, n.log2 - 23, ⟨by omega, hFits, by omega, .inl hFull⟩, by rw [mul_comm, ← hm]⟩

/-! ### Great whole numbers in memory -/

theorem valueOf_whole (h : Canonical m e) :
    valueOf (.finite .positive m e h.pos) = (m * 2 ^ e : Nat) := by
  rw [valueOf_finite h.least]
  simp [Sign.apply]

section Whole

variable {x : ℝ} {r : UnpackedFloat}

theorem Rounds.whole_le (h : Rounds x r) (hForm : Canonical m e) (hSide : (m * 2 ^ e : Nat) ≤ x) :
    (m * 2 ^ e : Nat) ≤ valueOf r := by
  rw [← valueOf_whole hForm] at hSide ⊢
  exact h.lower _ hForm hSide

theorem Rounds.le_whole (h : Rounds x r) (hForm : Canonical m e) (hSide : x ≤ (m * 2 ^ e : Nat)) :
    valueOf r ≤ (m * 2 ^ e : Nat) := by
  rw [← valueOf_whole hForm] at hSide ⊢
  exact h.upper _ hForm hSide

end Whole

/-- From `2 ^ 23` on there are whole numbers only. -/
theorem whole_of_great {s : Sign} {e : Int} {hPos : 0 < m} (hForm : Canonical m e)
    (h : 2 ^ 23 ≤ valueOf (.finite s m e hPos)) : s = .positive ∧ 0 ≤ e := by
  have hSize : (0 : ℝ) ≤ m * 2 ^ e := by positivity
  rw [valueOf_finite hForm.least] at h
  cases s with
  | negative =>
      simp only [Sign.apply, Int.cast_neg, Int.cast_one, neg_one_mul] at h
      linarith
  | positive =>
      refine ⟨rfl, ?_⟩
      by_contra hLess
      have hFits : (m : ℝ) < 2 ^ 24 := by exact_mod_cast hForm.fits
      have hHalf : (2 : ℝ) ^ e ≤ 2 ^ (-1 : Int) := zpow_le_zpow_right₀ one_le_two (by omega)
      have hProduct : (m : ℝ) * 2 ^ e < 2 ^ 24 * 2 ^ (-1 : Int) :=
        mul_lt_mul hFits hHalf (by positivity) (by positivity)
      simp only [Sign.apply, Int.cast_one, one_mul] at h
      norm_num at hProduct
      linarith

/-- The number in memory for a great whole number is whole too, and it is the same one if that is
held. -/
theorem exists_ofNat (hLow : 2 ^ 23 ≤ n) (hMost : n < 2 ^ 64) :
    ∃ m e : Nat, ∃ h : Canonical m e, (Float32.ofNat n).toModel.unpack =
      .finite .positive m e h.pos ∧ (Held n → m * 2 ^ e = n) := by
  obtain ⟨hRounds, hUnpack⟩ := rounds_ofNat hLow
  have hInRange : |(n : ℝ)| < 2 ^ 64 := by
    rw [abs_of_nonneg n.cast_nonneg]
    exact_mod_cast hMost
  rw [hRounds.kept_eq (hInRange.trans (lt_overflow (by norm_num)))] at hUnpack
  rw [hUnpack]
  generalize roundWithAccuracy .binary32 .positive (n * 2 ^ 24) (-24) .exact = r at *
  have hUnit : Canonical (2 ^ 23) (0 : Nat) := ⟨by decide, by decide, by decide, .inl le_rfl⟩
  have hLeast : 2 ^ 23 ≤ valueOf r :=
    le_trans (by norm_num) (hRounds.whole_le hUnit (by exact_mod_cast hLow))
  have hFinite := hRounds.isFinite
  have hRounded := hRounds.rounded
  rcases r with _ | _ | s | ⟨s, m, e, hm⟩
  · cases hFinite
  · cases hFinite
  · rw [valueOf_zero] at hLeast
    norm_num at hLeast
  · have hCanonical : Canonical m e := hRounded
    obtain ⟨rfl, hWhole⟩ := whole_of_great hCanonical hLeast
    obtain ⟨e, rfl⟩ := Int.eq_ofNat_of_zero_le hWhole
    refine ⟨m, e, hCanonical, rfl, fun hHeld => ?_⟩
    obtain ⟨k, f, hOther, hSame⟩ := hHeld.exists_canonical hLow
    have hValue : valueOf (.finite .positive m e hm) = n := by
      rw [← hSame]
      exact le_antisymm (hRounds.le_whole hOther (by rw [hSame]))
        (hRounds.whole_le hOther (by rw [hSame]))
    exact_mod_cast (valueOf_whole hCanonical).symm.trans hValue

/-! ### Reading numbers back -/

theorem toInt_whole (hPos : 0 < m) (e : Nat) (least most : Int) :
    (UnpackedFloat.finite .positive m e hPos).toInt least most = (m * 2 ^ e : Nat) := by
  have hKeep : decreaseExponent m e 0 = (m * 2 ^ e, 0) := by
    rw [decreaseExponent, Int.sub_zero, Int.toNat_natCast, Nat.shiftLeft_eq, sub_self]
  unfold UnpackedFloat.toInt UnpackedFloat.roundToInt
  simp only [hKeep, shiftToExponent, sub_self, Int.toNat_zero]
  rfl

section Memory

variable {x : Float32} {hPos : 0 < m} (h : x.toModel.unpack = .finite .positive m e hPos)

include h

theorem toNat64_whole : toNat64 x = min (m * 2 ^ e) (2 ^ 64 - 1) := by
  show (UInt64.ofNatClamp (x.toModel.unpack.toInt 0 (UInt64.size - 1)).toNat).toNat = _
  rw [h, toInt_whole, Int.toNat_natCast, UInt64.ofNatClamp]
  have hSize : UInt64.size = 2 ^ 64 := rfl
  split
  · rw [UInt64.toNat_ofNatLT]
    omega
  · rw [UInt64.toNat_ofNatLT]
    omega

theorem toUInt32_whole : x.toUInt32.toNat = min (m * 2 ^ e) (2 ^ 32 - 1) := by
  show (UInt32.ofNatClamp (x.toModel.unpack.toInt 0 (UInt32.size - 1)).toNat).toNat = _
  rw [h, toInt_whole, Int.toNat_natCast, UInt32.ofNatClamp]
  have hSize : UInt32.size = 2 ^ 32 := rfl
  split
  · rw [UInt32.toNat_ofNatLT]
    omega
  · rw [UInt32.toNat_ofNatLT]
    omega

/-- Great whole numbers are their own nearest whole numbers. -/
theorem toInt32_round_whole (hForm : Canonical m e) :
    toInt32 (round x) = (min (m * 2 ^ e) (2 ^ 31 - 1) : Nat) := by
  have hFinite : x.isFinite = true := by
    show x.toModel.unpack.isFinite = true
    rw [h]
    rfl
  have hValue : value x = (m * 2 ^ e : Nat) := by rw [value, h, valueOf_whole hForm]
  have hFull : 2 ^ 23 ≤ m * 2 ^ e :=
    (hForm.full.resolve_right (by omega)).trans (Nat.le_mul_of_pos_right _ (Nat.two_pow_pos e))
  have hReal : (2 : ℝ) ^ 23 ≤ value x := by
    rw [hValue]
    exact_mod_cast hFull
  have hWhole : value wholeFrom = 2 ^ 23 := by
    rw [value_of_place (e := 0) (m := 2 ^ 23) rfl (by decide)]
    norm_num
  have hSelf : round x = x := by
    refine if_neg ?_
    rw [value_lt_iff ((isFinite_abs x).trans hFinite) (by decide), value_abs, hWhole, not_lt]
    exact hReal.trans (le_abs_self _)
  have hSide : ¬x < 0.0 := by
    rw [value_lt_iff hFinite (by decide), value_zero, not_lt]
    exact le_trans (by norm_num) hReal
  rw [hSelf, toInt32, if_neg hSide, toUInt32_whole h]
  omega

end Memory

/-- A natural number of 64 bits is read back if it is held, or the greatest of all. -/
theorem toNat64_ofNat_iff (h : n < 2 ^ 64) :
    toNat64 (.ofNat n) = n ↔ Held n ∨ n = 2 ^ 64 - 1 := by
  by_cases hSmall : n < 2 ^ 24
  · exact iff_of_true (toNat64_ofNat_of_le hSmall.le) (.inl (held_of_lt hSmall))
  · obtain ⟨m, e, hForm, hUnpack, hSame⟩ := exists_ofNat (n := n) (by omega) h
    rw [toNat64_whole hUnpack]
    constructor
    · intro hRead
      by_cases hLast : n = 2 ^ 64 - 1
      · exact .inr hLast
      · left
        rw [show n = m * 2 ^ e by omega]
        exact held_mul_two_pow hForm.pos hForm.fits e
    · rintro (hHeld | hLast)
      · rw [hSame hHeld]
        omega
      · rw [← toNat64_whole hUnpack, hLast]
        decide

/-- An index of 32 bits, or minus one for none, is read back under the same condition. -/
theorem toInt32_round_ofInt_iff {i : Int} (hLow : -1 ≤ i) (hMost : i < 2 ^ 31) :
    toInt32 (round (.ofInt i)) = i ↔ Held i.toNat ∨ i = 2 ^ 31 - 1 := by
  obtain rfl | hNat : i = -1 ∨ 0 ≤ i := by omega
  · decide
  · lift i to Nat using hNat
    by_cases hSmall : i < 2 ^ 23
    · exact iff_of_true (toInt32_round_ofInt hSmall)
        (.inl (held_of_lt (hSmall.trans (by decide))))
    · obtain ⟨m, e, hForm, hUnpack, hSame⟩ := exists_ofNat (n := i) (by omega) (by omega)
      have hRead := toInt32_round_whole hUnpack hForm
      change toInt32 (round (.ofNat i)) = i ↔ _
      rw [hRead, Int.toNat_natCast]
      constructor
      · intro hBack
        by_cases hLast : (i : Int) = 2 ^ 31 - 1
        · exact .inr hLast
        · left
          rw [show i = m * 2 ^ e by omega]
          exact held_mul_two_pow hForm.pos hForm.fits e
      · rintro (hHeld | hLast)
        · rw [hSame hHeld]
          omega
        · obtain rfl : i = 2 ^ 31 - 1 := by omega
          rw [← hRead]
          decide

end PathTracer.Binary32
