import PathTracer.Proofs.Binary32.Difference

/-! Reciprocals. They have the sign of their number, are infinite for zeros only or for what
is nearly zero, and never too small to be numbers. -/
namespace PathTracer.Binary32

open Float.Model (Format UnpackedFloat totalExponent)
open Float.Model.UnpackedFloat (Sign pack unpack roundWithAccuracy)

variable {s : Sign}

theorem unpack_one_literal : (1.0 : Float32).toModel.unpack =
    .finite .positive (2 ^ 23) (-23) (by decide) :=
  rfl

/-- The quotient of one and a number has bits enough, and it is the greater the smaller the
number. -/
theorem Canonical.quotient {m : Nat} {e : Int} (h : Canonical m e) (hHigh : e ≤ 104) {j : Nat}
    (hBits : m ≤ 2 ^ j) (hLess : j ≤ m.log2 + 1) :
    ∃ q target accuracy, UnpackedFloat.divCore .binary32 (2 ^ 23) (-23) m e =
        (q, target, accuracy) ∧ 0 < q ∧
      target ≤ Format.binary32.targetExponent (totalExponent q target) ∧
      1 - (j + e) ≤ totalExponent q target := by
  have hLog : m.log2 < 24 := (Nat.log2_lt h.pos.ne').mpr h.fits
  have hOne : totalExponent (2 ^ 23) (-23) = 1 := by
    have hTop : (2 ^ 23).log2 = 23 := by decide
    rw [totalExponent, hTop]
    rfl
  generalize hTarget : min (-23 - e) (Format.binary32.targetExponent
    (totalExponent (2 ^ 23) (-23) - totalExponent m e)) = target
  have hBound : target = max (-m.log2 - e - 24 : Int) (-149) := by
    rw [← hTarget, hOne, targetExponent_eq, totalExponent]
    have hLeast := h.least
    omega
  generalize hAmount : (-23 - e - target).toNat = amount
  have hShift : j ≤ 23 + amount := by omega
  have hQuotient : 2 ^ (23 + amount - j) ≤ 2 ^ 23 * 2 ^ amount / m := by
    rw [Nat.le_div_iff_mul_le h.pos, ← pow_add]
    calc 2 ^ (23 + amount - j) * m
      _ ≤ 2 ^ (23 + amount - j) * 2 ^ j := Nat.mul_le_mul_left _ hBits
      _ = 2 ^ (23 + amount) := by rw [← pow_add, Nat.sub_add_cancel hShift]
  have hPos := (Nat.two_pow_pos _).trans_le hQuotient
  have hReach := (Nat.le_log2 hPos.ne').mpr hQuotient
  refine ⟨_, target, UnpackedFloat.accuracyOfFraction (2 ^ 23 * 2 ^ amount % m) m, ?_, hPos,
    ?_, ?_⟩
  · unfold UnpackedFloat.divCore
    dsimp only
    rw [hTarget, hAmount, Nat.shiftLeft_eq]
  · rw [targetExponent_eq]
    unfold totalExponent
    omega
  · unfold totalExponent
    omega

/-- The reciprocal of a number has its sign. -/
theorem reaches_inverse {d : Float32} {m : Nat} {e : Int} {hPos : 0 < m}
    (h : d.toModel.unpack = .finite s m e hPos) {j : Nat} (hBits : m ≤ 2 ^ j)
    (hLess : j ≤ m.log2 + 1) : Reaches s (1 - (j + e)) (1.0 / d).toModel.unpack := by
  obtain ⟨hCanonical, hHigh⟩ := canonical_of_unpack h
  obtain ⟨q, target, accuracy, hCore, hQuotient, hShift, hReach⟩ :=
    hCanonical.quotient hHigh hBits hLess
  have hDiv : UnpackedFloat.div .binary32 (1.0 : Float32).toModel.unpack d.toModel.unpack =
      roundWithAccuracy .binary32 s q target accuracy := by
    rw [unpack_one_literal, h]
    simp only [UnpackedFloat.div, hCore]
    cases s <;> rfl
  have hUnpack : (1.0 / d).toModel.unpack =
      kept (roundWithAccuracy .binary32 s q target accuracy) := by
    rw [← hDiv]
    refine unpack_pack ?_
    rw [hDiv]
    exact rounded_roundWithAccuracy hQuotient hShift s accuracy
  have hLog : m.log2 < 24 := (Nat.log2_lt hCanonical.pos.ne').mpr hCanonical.fits
  rw [hUnpack]
  exact (Reaches.roundWithAccuracy hQuotient hShift accuracy (by omega) hReach).kept

/-- The reciprocal of a zero is infinite. -/
theorem unpack_inverse_zero {d : Float32} (h : d.toModel.unpack = .zero s) :
    (1.0 / d).toModel.unpack = .infinity s := by
  have hDiv : UnpackedFloat.div .binary32 (1.0 : Float32).toModel.unpack d.toModel.unpack =
      .infinity s := by
    rw [unpack_one_literal, h]
    cases s <;> rfl
  show unpack .binary32 (pack .binary32 (UnpackedFloat.div .binary32 _ d.toModel.unpack)) = _
  rw [hDiv, unpack_pack (x := .infinity s) trivial]
  rfl

/-- A finite number whose reciprocal is not infinite has a sign. -/
theorem pos_or_neg_of_inverse {d : Float32} (h : d.isFinite = true)
    (hInverse : (1.0 / d).isInf = false) : 0.0 < d ∨ d < 0.0 := by
  have hRounded := rounded_unpack d
  change d.toModel.unpack.isFinite = true at h
  change (1.0 / d).toModel.unpack.isInf = false at hInverse
  rw [pos_iff_reaches, neg_iff_reaches]
  cases hUnpack : d.toModel.unpack with
  | infinity => simp [hUnpack, UnpackedFloat.isFinite] at h
  | notANumber => simp [hUnpack, UnpackedFloat.isFinite] at h
  | zero s =>
      rw [unpack_inverse_zero hUnpack] at hInverse
      cases hInverse
  | finite s m e hPos =>
      rw [hUnpack] at hRounded
      have hLeast := Canonical.le_totalExponent hRounded
      cases s with
      | negative => exact .inr ⟨rfl, hLeast⟩
      | positive => exact .inl ⟨rfl, hLeast⟩

/-- The reciprocal of a finite number is not too small to be a number. -/
theorem inverse_reaches {d : Float32} (h : d.isFinite = true) :
    ∃ s, Reaches s (-148) (1.0 / d).toModel.unpack := by
  change d.toModel.unpack.isFinite = true at h
  cases hUnpack : d.toModel.unpack with
  | infinity => simp [hUnpack, UnpackedFloat.isFinite] at h
  | notANumber => simp [hUnpack, UnpackedFloat.isFinite] at h
  | zero s =>
      refine ⟨s, ?_⟩
      rw [unpack_inverse_zero hUnpack]
      rfl
  | finite s m e hPos =>
      obtain ⟨hCanonical, hHigh⟩ := canonical_of_unpack hUnpack
      have hLog : m.log2 < 24 := (Nat.log2_lt hPos.ne').mpr hCanonical.fits
      exact ⟨s, (reaches_inverse hUnpack Nat.lt_log2_self.le le_rfl).mono (by omega)⟩

/-- The reciprocal of a number up to one is one or more. -/
theorem inverse_reaches_one {d : Float32} (h : d.abs ≤ 1.0) :
    ∃ s, Reaches s 1 (1.0 / d).toModel.unpack := by
  have hOne : place? 1.0 = some (toLex (1, toLex (-23, 2 ^ 23))) := rfl
  rw [le_iff_place, hOne, place?, unpack_abs] at h
  obtain ⟨_, _, hPlace, hSame, hLess⟩ := h
  obtain rfl := Option.some.inj hSame
  cases hUnpack : d.toModel.unpack with
  | infinity =>
      rw [hUnpack] at hPlace
      obtain rfl := Option.some.inj hPlace
      simp [Prod.Lex.toLex_le_toLex] at hLess
  | notANumber =>
      rw [hUnpack] at hPlace
      cases hPlace
  | zero s =>
      refine ⟨s, ?_⟩
      rw [unpack_inverse_zero hUnpack]
      rfl
  | finite s m e hPos =>
      obtain ⟨hCanonical, hHigh⟩ := canonical_of_unpack hUnpack
      rw [hUnpack, UnpackedFloat.abs, kept, if_pos hHigh] at hPlace
      obtain rfl := Option.some.inj hPlace
      have hSmaller : e < -23 ∨ e = -23 ∧ (m : Int) ≤ 2 ^ 23 := by
        simpa [Prod.Lex.toLex_le_toLex] using hLess
      refine ⟨s, ?_⟩
      rcases hSmaller with hSmall | ⟨rfl, hLeast⟩
      · have hLog : m.log2 < 24 := (Nat.log2_lt hPos.ne').mpr hCanonical.fits
        exact (reaches_inverse hUnpack Nat.lt_log2_self.le le_rfl).mono (by push_cast; omega)
      · have hFull : 2 ^ 23 ≤ m := hCanonical.full.resolve_right (by decide)
        obtain rfl : m = 2 ^ 23 := by omega
        exact reaches_inverse hUnpack (j := 23) le_rfl (by decide)

end PathTracer.Binary32
