import Mathlib
import PathTracer.Proofs.Decimal.Whole

/-! What rounding does to a result: it keeps the sign, never brings the magnitude
below a power of two that it had reached, and gives the one form in which memory
keeps a number. -/
namespace PathTracer.Binary32

open Float.Model (Format UnpackedFloat totalExponent)
open Float.Model.UnpackedFloat (Sign Accuracy ExtendedMantissa pack unpack shiftToExponent
  shiftToTargetExponent roundWithAccuracy decreaseExponent)

/-! ### The form in memory -/

/-- A mantissa and an exponent in the form of memory: all bits of the mantissa are
used unless the exponent is the least there is. -/
structure Canonical (m : Nat) (e : Int) : Prop where
  pos : 0 < m
  fits : m < 2 ^ 24
  least : -149 ≤ e
  full : 2 ^ 23 ≤ m ∨ e = -149

theorem targetExponent_eq (t : Int) : Format.binary32.targetExponent t = max (t - 24) (-149) :=
  rfl

theorem Canonical.le_totalExponent {m : Nat} {e : Int} (h : Canonical m e) :
    -148 ≤ totalExponent m e := by
  have hLeast := h.least
  unfold totalExponent
  omega

/-- The form of memory is that of results. -/
theorem Canonical.targetExponent {m : Nat} {e : Int} (h : Canonical m e) :
    Format.binary32.targetExponent (totalExponent m e) = e := by
  have hLeast := h.least
  have hLog : m.log2 < 24 := (Nat.log2_lt h.pos.ne').mpr h.fits
  rw [targetExponent_eq, totalExponent]
  rcases h.full with hFull | hFull
  · have hTop : 23 ≤ m.log2 := (Nat.le_log2 h.pos.ne').mpr hFull
    omega
  · omega

/-! ### Rounding -/

theorem mantissa_shiftRight (em : ExtendedMantissa) (k : Nat) :
    (em >>> k).mantissa = em.mantissa / 2 ^ k := by
  show (Nat.repeat ExtendedMantissa.shiftRightOne k em).mantissa = _
  induction k with
  | zero => rw [pow_zero, Nat.div_one, Nat.repeat]
  | succ k ih => rw [Nat.repeat, ExtendedMantissa.shiftRightOne, ih, Nat.div_div_eq_div_mul, pow_succ]

theorem mantissa_ofMantissaAndAccuracy (m : Nat) (accuracy : Accuracy) :
    (ExtendedMantissa.ofMantissaAndAccuracy m accuracy).mantissa = m := by
  rcases accuracy with _ | _ | _ | _ <;> rfl

/-- The bits that are dropped decide only whether one is added. -/
theorem roundedMantissa_cases (em : ExtendedMantissa) :
    em.roundedMantissa = em.mantissa ∨ em.roundedMantissa = em.mantissa + 1 := by
  unfold ExtendedMantissa.roundedMantissa Accuracy.roundToNearestEven
  split <;> omega

/-- What is left of a mantissa at the exponent of its result. -/
def truncated (m : Nat) (e : Int) : Nat :=
  m / 2 ^ (Format.binary32.targetExponent (totalExponent m e) - e).toNat

variable {m : Nat} {e : Int}

theorem truncated_lt (m : Nat) (e : Int) : truncated m e < 2 ^ 24 := by
  have hHigh : m < 2 ^ (m.log2 + 1) := Nat.lt_log2_self
  unfold truncated
  rw [targetExponent_eq] at *
  unfold totalExponent at *
  rw [Nat.div_lt_iff_lt_mul (Nat.two_pow_pos _), ← pow_add]
  exact hHigh.trans_le (Nat.pow_le_pow_right (by decide) (by omega))

/-- A magnitude from the least one on is not lost, and neither is its highest bit. -/
theorem totalExponent_truncated (hPos : 0 < m)
    (hShift : e ≤ Format.binary32.targetExponent (totalExponent m e))
    (hReach : -148 ≤ totalExponent m e) :
    0 < truncated m e ∧ totalExponent (truncated m e)
      (Format.binary32.targetExponent (totalExponent m e)) = totalExponent m e := by
  have hLow : 2 ^ m.log2 ≤ m := Nat.log2_self_le hPos.ne'
  have hLog : (truncated m e).log2 =
      m.log2 - (Format.binary32.targetExponent (totalExponent m e) - e).toNat := by
    rw [truncated, Nat.log2_eq_log_two, Nat.log_div_base_pow, ← Nat.log2_eq_log_two]
  have hDrop : (Format.binary32.targetExponent (totalExponent m e) - e).toNat ≤ m.log2 := by
    rw [targetExponent_eq]
    unfold totalExponent at *
    omega
  refine ⟨?_, ?_⟩
  · exact Nat.div_pos ((Nat.pow_le_pow_right (by decide) hDrop).trans hLow) (Nat.two_pow_pos _)
  · generalize Format.binary32.targetExponent (totalExponent m e) = target at *
    unfold totalExponent
    omega

theorem totalExponent_mono {r : Nat} (hPos : 0 < m) (h : m ≤ r) :
    totalExponent m e ≤ totalExponent r e := by
  have hLog : m.log2 ≤ r.log2 :=
    (Nat.le_log2 (hPos.trans_le h).ne').mpr ((Nat.log2_self_le hPos.ne').trans h)
  unfold totalExponent
  omega

/-- Unless the result has the least exponent, all bits of its mantissa are used. -/
theorem truncated_full (hShift : e ≤ Format.binary32.targetExponent (totalExponent m e)) :
    2 ^ 23 ≤ truncated m e ∨ Format.binary32.targetExponent (totalExponent m e) = -149 := by
  rw [targetExponent_eq] at *
  by_cases hLeast : totalExponent m e - 24 ≤ -149
  · exact .inr (by omega)
  · have hPos : m ≠ 0 := by
      rintro rfl
      rw [totalExponent, show Nat.log2 0 = 0 from rfl] at *
      omega
    refine .inl ?_
    rw [truncated, targetExponent_eq]
    refine (Nat.le_div_iff_mul_le (Nat.two_pow_pos _)).mpr ?_
    unfold totalExponent at *
    rw [← pow_add]
    exact (Nat.pow_le_pow_right (by decide) (by omega)).trans (Nat.log2_self_le hPos)

/-- A mantissa that one was added to takes its form with no more rounding. A carry out of
the highest digit leaves a power of two, which loses nothing when it is shifted. -/
theorem exists_canonical (hPos : 0 < m) (hFits : m ≤ 2 ^ 24) (hLeast : -149 ≤ e)
    (hFull : 2 ^ 23 ≤ m ∨ e = -149) :
    ∃ r f, shiftToTargetExponent .binary32 m e .exact = (.ofMantissaAndAccuracy r .exact, f) ∧
      Canonical r f ∧ totalExponent m e = totalExponent r f ∧
      r * 2 ^ (f + 149).toNat = m * 2 ^ (e + 149).toNat := by
  by_cases hCarry : m = 2 ^ 24
  · have hNormal : Normal (2 ^ 23) := ⟨le_rfl, by decide⟩
    refine ⟨2 ^ 23, e + 1, ?_, ⟨hNormal.pos, hNormal.high, by omega, .inl le_rfl⟩, ?_, ?_⟩
    · rw [hCarry]
      exact shiftToTargetExponent_exact hNormal 1 (by push_cast; omega)
    · have hBoth : (2 ^ 24).log2 = 24 ∧ (2 ^ 23).log2 = 23 := by decide
      rw [hCarry, totalExponent, totalExponent, hBoth.1, hBoth.2]
      push_cast
      ring
    · have hNext : (e + 1 + 149).toNat = (e + 149).toNat + 1 := by omega
      rw [hCarry, hNext, pow_succ]
      ring
  · have hCanonical : Canonical m e := ⟨hPos, by omega, hLeast, hFull⟩
    refine ⟨m, e, ?_, hCanonical, rfl, rfl⟩
    rw [shiftToTargetExponent, hCanonical.targetExponent, shiftToExponent, sub_self,
      Int.toNat_zero, Nat.cast_zero, add_zero]
    rfl

/-- What is left at the exponent of a result is rounded to a zero or to a number that has
the form of memory and the same magnitude. -/
theorem roundWithAccuracy_of_shift {em : ExtendedMantissa} {target : Int} {accuracy : Accuracy}
    (hFirst : shiftToTargetExponent .binary32 m e accuracy = (em, target))
    (hFits : em.roundedMantissa ≤ 2 ^ 24) (hLeast : -149 ≤ target)
    (hFull : 2 ^ 23 ≤ em.roundedMantissa ∨ target = -149) (s : Sign) :
    (roundWithAccuracy .binary32 s m e accuracy = .zero s ∧ em.roundedMantissa = 0) ∨
      ∃ r f, ∃ h : Canonical r f, roundWithAccuracy .binary32 s m e accuracy =
          .finite s r f h.pos ∧ 0 < em.roundedMantissa ∧
        totalExponent em.roundedMantissa target = totalExponent r f ∧
        r * 2 ^ (f + 149).toNat = em.roundedMantissa * 2 ^ (target + 149).toNat := by
  unfold roundWithAccuracy
  simp only [hFirst]
  by_cases hNone : em.roundedMantissa = 0
  · have hZero : (shiftToTargetExponent .binary32 0 target .exact).1.mantissa = 0 := by
      rw [shiftToTargetExponent, shiftToExponent, mantissa_shiftRight,
        mantissa_ofMantissaAndAccuracy, Nat.zero_div]
    refine .inl ⟨?_, hNone⟩
    simp only [hNone, hZero, dite_true]
  · have hSome : 0 < em.roundedMantissa := Nat.pos_of_ne_zero hNone
    obtain ⟨r, f, hSecond, hCanonical, hTotal, hSame⟩ := exists_canonical hSome hFits hLeast hFull
    refine .inr ⟨r, f, hCanonical, ?_, hSome, hTotal, hSame⟩
    simp only [hSecond, mantissa_ofMantissaAndAccuracy, hCanonical.pos.ne', dite_false]

/-- A mantissa at the exponent of its result. -/
theorem exists_shift (hShift : e ≤ Format.binary32.targetExponent (totalExponent m e))
    (accuracy : Accuracy) :
    ∃ em, shiftToTargetExponent .binary32 m e accuracy =
        (em, Format.binary32.targetExponent (totalExponent m e)) ∧
      em = ExtendedMantissa.ofMantissaAndAccuracy m accuracy >>>
        (Format.binary32.targetExponent (totalExponent m e) - e).toNat ∧
      em.mantissa = truncated m e := by
  refine ⟨_, Prod.ext rfl ?_, rfl, ?_⟩
  · show e + ((_ - e).toNat : Int) = _
    omega
  · exact (mantissa_shiftRight _ _).trans
      (congrArg (· / _) (mantissa_ofMantissaAndAccuracy m accuracy))

/-- A result is a zero only below all magnitudes. Otherwise it has the form of memory
and reaches every power of two that was reached before. -/
theorem roundWithAccuracy_cases (hPos : 0 < m)
    (hShift : e ≤ Format.binary32.targetExponent (totalExponent m e)) (s : Sign)
    (accuracy : Accuracy) :
    (roundWithAccuracy .binary32 s m e accuracy = .zero s ∧ totalExponent m e < -148) ∨
      ∃ r f, ∃ h : Canonical r f, roundWithAccuracy .binary32 s m e accuracy =
        .finite s r f h.pos ∧ totalExponent m e ≤ totalExponent r f := by
  have hBits := truncated_lt m e
  have hFull := truncated_full hShift
  have hKept := totalExponent_truncated hPos hShift
  have hLeast : -149 ≤ Format.binary32.targetExponent (totalExponent m e) := le_max_right _ _
  obtain ⟨em, hFirst, _, hMantissa⟩ := exists_shift hShift accuracy
  have hRounded := roundedMantissa_cases em
  rw [hMantissa] at hRounded
  generalize Format.binary32.targetExponent (totalExponent m e) = target at *
  rcases roundWithAccuracy_of_shift hFirst (by omega) hLeast (by omega) s with
    ⟨hZero, hNone⟩ | ⟨r, f, hCanonical, hFinite, hSome, hTotal, _⟩
  · refine .inl ⟨hZero, ?_⟩
    by_contra hReach
    have hSome := (hKept (by omega)).1
    omega
  · refine .inr ⟨r, f, hCanonical, hFinite, ?_⟩
    rw [← hTotal]
    by_cases hReach : -148 ≤ totalExponent m e
    · obtain ⟨hKeep, hSame⟩ := hKept hReach
      rw [← hSame]
      exact totalExponent_mono hKeep (by omega)
    · unfold totalExponent at *
      omega

/-! ### Results in memory -/

/-- Whether a result has the form of memory. -/
def Rounded : UnpackedFloat → Prop
  | .finite _ m e _ => Canonical m e
  | _ => True

theorem rounded_roundWithAccuracy (hPos : 0 < m)
    (hShift : e ≤ Format.binary32.targetExponent (totalExponent m e)) (s : Sign)
    (accuracy : Accuracy) : Rounded (roundWithAccuracy .binary32 s m e accuracy) := by
  rcases roundWithAccuracy_cases hPos hShift s accuracy with ⟨hZero, _⟩ | ⟨r, f, h, hFinite, _⟩
  · rw [hZero]
    exact trivial
  · rw [hFinite]
    exact h

/-- What memory makes of a result: beyond its greatest number all are infinite. -/
def kept : UnpackedFloat → UnpackedFloat
  | .finite s m e h => if e ≤ 104 then .finite s m e h else .infinity s
  | x => x

/-- A significand in its form is packed into exponent and mantissa, and unpacks to the same.
-/
theorem Canonical.exists_parts (h : Canonical m e) (s : Sign) (hHigh : e ≤ 104) :
    ∃ exponent mantissa, exponent ≠ -1#8 ∧ .finite s m e h.pos = unpacked s exponent mantissa := by
  by_cases hFull : 2 ^ 23 ≤ m
  · exact Binary32.exists_parts ⟨hFull, h.fits⟩ s h.least hHigh
  · have hMantissa : (BitVec.ofNat 23 m).toNat = m := by
      rw [BitVec.toNat_ofNat]
      exact Nat.mod_eq_of_lt (by omega)
    have hSome : BitVec.ofNat 23 m ≠ 0#23 := by
      intro hSame
      have hZero : m = 0 := hMantissa.symm.trans (congrArg BitVec.toNat hSame)
      exact h.pos.ne' hZero
    refine ⟨0#8, .ofNat 23 m, by decide, ?_⟩
    unfold unpacked
    rw [if_pos rfl, dif_neg hSome]
    simp only [hMantissa, h.full.resolve_left hFull]

/-- A rounded result survives packing, except that overflow makes it an infinity. -/
theorem unpack_pack {x : UnpackedFloat} (h : Rounded x) :
    unpack .binary32 (pack .binary32 x) = kept x := by
  rcases x with s | _ | s | ⟨s, m, e, hPos⟩
  · cases s <;> rfl
  · rfl
  · cases s <;> rfl
  · have hCanonical : Canonical m e := h
    by_cases hHigh : e ≤ 104
    · obtain ⟨exponent, mantissa, hFinite, hParts⟩ := hCanonical.exists_parts s hHigh
      have hExponent := exponentPart_ofParts s exponent mantissa
      rw [kept, if_pos hHigh, hParts, pack_unpacked hFinite,
        unpack_eq_unpacked (hExponent.symm ▸ hFinite), hExponent, mantissaPart_ofParts,
        signPart_ofParts]
    · have hBias : ((Format.binary32.exponentBias : ℕ) : ℤ) = 127 := rfl
      have hGreat : 2 ^ 8 ≤ (e + 127 + (23 : ℕ)).toNat + 1 := by omega
      rw [kept, if_neg hHigh, pack]
      simp only [hBias]
      rw [if_pos hGreat]
      cases s <;> rfl

/-- What is in memory has its form. -/
theorem canonical_of_unpack {b : BitVec 32} {s : Sign} {hPos : 0 < m}
    (h : unpack .binary32 b = .finite s m e hPos) : Canonical m e ∧ e ≤ 104 := by
  have hFinite : exponentPart b ≠ -1#8 := by
    intro hGreatest
    unfold exponentPart at hGreatest
    unfold unpack at h
    dsimp only at h
    rw [if_pos hGreatest] at h
    split at h
    · cases h
    · cases h
  rw [unpack_eq_unpacked hFinite] at h
  have hMantissa : (mantissaPart b).toNat < 2 ^ 23 := (mantissaPart b).isLt
  have hExponent : (exponentPart b).toNat < 2 ^ 8 := (exponentPart b).isLt
  have hGreatest : (exponentPart b).toNat ≠ 255 := fun hSame =>
    hFinite (BitVec.eq_of_toNat_eq (by rw [hSame]; rfl))
  unfold unpacked at h
  split at h
  · split at h
    · cases h
    · cases h
      exact ⟨⟨hPos, by omega, le_rfl, .inr rfl⟩, by omega⟩
  · rename_i hSome
    have hLeast : (exponentPart b).toNat ≠ 0 := fun hSame => hSome (BitVec.eq_of_toNat_eq hSame)
    cases h
    rw [toNat_one_append]
    exact ⟨⟨by omega, by omega, by omega, .inl (by omega)⟩, by omega⟩

end PathTracer.Binary32
