import PathTracer.Proofs.Binary32.Arithmetic
import PathTracer.Proofs.Binary32.Index
import PathTracer.Proofs.Binary32.Quotient

/-! Operations that round nothing, and what comes of numbers that are not finite. -/
namespace PathTracer.Binary32

open Float.Model (Format UnpackedFloat totalExponent)
open Float.Model.UnpackedFloat (Sign ExtendedMantissa pack unpack packedNaN roundWithAccuracy
  shiftToExponent shiftToTargetExponent)

variable {a b : Float32} {m : Nat} {e : Int}

/-! ### Numbers in memory -/

/-- Bits are what they are read as, unless that is NaN. -/
theorem pack_unpack_of_numeric {bits : BitVec 32}
    (h : exponentPart bits = -1#8 → mantissaPart bits = 0#23) :
    pack .binary32 (unpack .binary32 bits) = bits := by
  have hParts := ofParts_parts bits
  by_cases hFinite : exponentPart bits = -1#8
  · have hUnpack : unpack .binary32 bits = .infinity (signPart bits) := by
      have hNone := h hFinite
      unfold exponentPart at hFinite
      unfold mantissaPart at hNone
      unfold unpack
      dsimp only
      rw [if_pos hFinite, if_pos hNone]
      rfl
    rw [hUnpack, ← hParts, hFinite, h hFinite, signPart_ofParts]
    cases signPart bits <;> rfl
  · rw [unpack_eq_unpacked hFinite, pack_unpacked hFinite, hParts]

/-- Unpacking and packing lose nothing. -/
theorem pack_unpack (x : Float32) :
    pack .binary32 x.toModel.unpack = x.toModel.toBits.toBitVec := by
  have hValid := x.toModel.valid
  show pack .binary32 (unpack .binary32 x.toModel.toBits.toBitVec) = _
  generalize x.toModel.toBits.toBitVec = bits at *
  by_cases hNumeric : exponentPart bits = -1#8 → mantissaPart bits = 0#23
  · exact pack_unpack_of_numeric hNumeric
  · push Not at hNumeric
    obtain ⟨hFinite, hNone⟩ := hNumeric
    have hUnpack : unpack .binary32 bits = .notANumber := by
      rw [hValid.eq_packedNaN hFinite hNone]
      rfl
    rw [hUnpack, hValid.eq_packedNaN hFinite hNone]
    rfl

theorem ofBits_toBits (x : Float32) : Float32.ofBits x.toBits = x :=
  toBits_injective (UInt32.toBitVec_inj.mp (pack_unpack x))

/-- The bits of a finite number are those that it is read from. -/
theorem toBits_ofBits_of_isFinite {bits : UInt32} (h : (Float32.ofBits bits).isFinite = true) :
    (Float32.ofBits bits).toBits = bits := by
  refine UInt32.toBitVec_inj.mp (pack_unpack_of_numeric fun hInfinite => ?_)
  by_contra hSome
  have hUnpack : unpack .binary32 bits.toBitVec = .notANumber := by
    unfold exponentPart at hInfinite
    unfold mantissaPart at hSome
    unfold unpack
    dsimp only
    rw [if_pos hInfinite, if_neg hSome]
  have hNaN : Float32.ofBits bits = Float32.ofModel (Float32.Model.pack .notANumber) :=
    congrArg (fun u => Float32.ofModel (Float32.Model.pack u)) hUnpack
  rw [hNaN] at h
  cases h

/-- Floats are told by their parts. -/
theorem eq_of_unpack_eq (h : a.toModel.unpack = b.toModel.unpack) : a = b := by
  refine toBits_injective (UInt32.toBitVec_inj.mp ?_)
  show a.toModel.toBits.toBitVec = b.toModel.toBits.toBitVec
  rw [← pack_unpack, h, pack_unpack]

/-! ### Order -/

theorem le_self (h : a.isNaN = false) : a ≤ a := by
  have hSelf := beq_self h
  rw [beq_iff_place] at hSelf
  rw [le_iff_place]
  grind

theorem not_le_of_lt (h : a < b) : ¬b ≤ a :=
  fun hBack => lt_irrefl _ (lt_of_le_of_lt hBack h)

/-! ### The total order -/

/-- A mantissa and an exponent as they are numbered in memory. -/
def Numbers (e m key : Int) : Prop :=
  (e = -149 ∧ key = m ∧ 0 < m ∧ m < 2 ^ 23) ∨
    (-149 ≤ e ∧ key = (e + 150) * 2 ^ 23 + (m - 2 ^ 23) ∧ 2 ^ 23 ≤ m ∧ m < 2 ^ 24)

/-- The places of finite numbers in the total order. Negative numbers come before zero with
greater magnitudes first, and the negative zero before the positive one. -/
theorem totalKey_cases {x : Float32} (h : x.isFinite = true) :
    (place? x = some (toLex (0, toLex (0, 0))) ∧ -1 ≤ totalKey x.toBits ∧ totalKey x.toBits ≤ 0) ∨
      ∃ e m key, Numbers e m key ∧
        ((place? x = some (toLex (1, toLex (e, m))) ∧ totalKey x.toBits = key) ∨
          (place? x = some (toLex (-1, toLex (-e, -m))) ∧ totalKey x.toBits = -1 - key)) := by
  have hFinite := exponentPart_of_isFinite h
  have hPlace : place? x = placeOf (unpacked (signPart x.toBits.toBitVec)
      (exponentPart x.toBits.toBitVec) (mantissaPart x.toBits.toBitVec)) :=
    congrArg placeOf (unpack_eq_unpacked hFinite)
  have hMantissa : (mantissaPart x.toBits.toBitVec).toNat < 2 ^ 23 :=
    (mantissaPart x.toBits.toBitVec).isLt
  have hExponent : (exponentPart x.toBits.toBitVec).toNat < 2 ^ 8 :=
    (exponentPart x.toBits.toBitVec).isLt
  rw [hPlace]
  unfold totalKey
  rw [toNat_toBits]
  generalize exponentPart x.toBits.toBitVec = exponent at *
  generalize mantissaPart x.toBits.toBitVec = mantissa at *
  have hOne : Sign.negative.toBitVec.toNat = 1 := rfl
  have hZeroBit : Sign.positive.toBitVec.toNat = 0 := rfl
  unfold unpacked
  split
  · rename_i hZero
    split
    · rename_i hNone
      refine .inl ⟨rfl, ?_⟩
      rw [hZero, hNone]
      cases signPart x.toBits.toBitVec with
      | negative => simp [hOne]
      | positive => simp [hZeroBit]
    · rename_i hSome
      have hPos : mantissa.toNat ≠ 0 := fun hSame => hSome (BitVec.eq_of_toNat_eq hSame)
      have hNone : exponent.toNat = 0 := congrArg BitVec.toNat hZero
      refine .inr ⟨-149, mantissa.toNat, mantissa.toNat, .inl (by omega), ?_⟩
      rw [hNone]
      cases signPart x.toBits.toBitVec with
      | negative => exact .inr ⟨rfl, by grind⟩
      | positive => exact .inl ⟨rfl, by grind⟩
  · rename_i hSome
    have hPos : exponent.toNat ≠ 0 := fun hSame => hSome (BitVec.eq_of_toNat_eq hSame)
    refine .inr ⟨exponent.toNat - 150, 2 ^ 23 + mantissa.toNat,
      exponent.toNat * 2 ^ 23 + mantissa.toNat, .inr (by omega), ?_⟩
    cases signPart x.toBits.toBitVec with
    | negative => exact .inr ⟨by simp [placeOf, toNat_one_append], by grind⟩
    | positive => exact .inl ⟨by simp [placeOf, toNat_one_append], by grind⟩

/-- For finite numbers the total order is that of comparisons, though it also tells the
zeros apart. -/
theorem totalKey_lt_of_lt (ha : a.isFinite = true) (hb : b.isFinite = true) (h : a < b) :
    totalKey a.toBits < totalKey b.toBits := by
  obtain ⟨p, q, hp, hq, hLess⟩ := lt_iff_place.mp h
  rcases totalKey_cases ha with ⟨hPlace, hKey⟩ | ⟨e, m, key, hNumbers, ⟨hPlace, hKey⟩ | ⟨hPlace, hKey⟩⟩
  all_goals
    obtain rfl := Option.some.inj (hp.symm.trans hPlace)
    rcases totalKey_cases hb with ⟨hPlace, hOther⟩ |
      ⟨f, n, next, hMore, ⟨hPlace, hOther⟩ | ⟨hPlace, hOther⟩⟩
  all_goals
    obtain rfl := Option.some.inj (hq.symm.trans hPlace)
    simp only [Prod.Lex.toLex_lt_toLex, Numbers] at *
    omega

/-! ### Units -/

/-- A number that fits is not changed. -/
theorem Canonical.roundWithAccuracy (h : Canonical m e) (k : Nat) (s : Sign) :
    roundWithAccuracy .binary32 s (m * 2 ^ k) (e - k) .exact = .finite s m e h.pos := by
  have hShift (j : Nat) : shiftToTargetExponent .binary32 (m * 2 ^ j) (e - j) .exact =
      (.ofMantissaAndAccuracy m .exact, e) := by
    have hTotal : totalExponent (m * 2 ^ j) (e - j) = totalExponent m e := by
      rw [totalExponent, log2_mul_two_pow h.pos, totalExponent]
      push_cast
      ring
    have hAmount : (e - (e - j)).toNat = j := by omega
    rw [shiftToTargetExponent, hTotal, h.targetExponent, shiftToExponent, hAmount,
      shiftRight_exact, sub_add_cancel]
  have hSecond := hShift 0
  rw [pow_zero, Nat.cast_zero, sub_zero, mul_one] at hSecond
  have hRounded : (ExtendedMantissa.ofMantissaAndAccuracy m .exact).roundedMantissa = m := rfl
  have hMantissa : (ExtendedMantissa.ofMantissaAndAccuracy m .exact).mantissa = m := rfl
  unfold Float.Model.UnpackedFloat.roundWithAccuracy
  simp only [hShift k, hRounded, hSecond, hMantissa, h.pos.ne', dite_false]

theorem kept_unpack (x : Float32) : kept x.toModel.unpack = x.toModel.unpack := by
  rcases hUnpack : x.toModel.unpack with _ | _ | _ | ⟨s, m, e, hm⟩
  · rfl
  · rfl
  · rfl
  · rw [kept, if_pos (canonical_of_unpack hUnpack).2]

/-- Multiplying by one changes nothing. -/
theorem mul_one_eq (x : Float32) : x * 1.0 = x := by
  refine eq_of_unpack_eq ?_
  rw [unpack_mul, ← kept_unpack x]
  congr 1
  have hRounded := rounded_unpack x
  rw [kept_unpack, unpack_one_literal]
  generalize x.toModel.unpack = u at *
  rcases u with s | _ | s | ⟨s, m, e, hm⟩
  · cases s <;> rfl
  · rfl
  · cases s <;> rfl
  · have hSign : s * .positive = s := by cases s <;> rfl
    have hRound := Canonical.roundWithAccuracy hRounded 23 s
    unfold UnpackedFloat.mul
    dsimp only
    rw [hSign]
    exact hRound

/-- A finite number that is not zero, divided by itself, is one. -/
theorem div_self_eq {x : Float32} (hFinite : x.isFinite = true) (hSome : value x ≠ 0) :
    x / x = 1.0 := by
  refine eq_of_unpack_eq ?_
  change x.toModel.unpack.isFinite = true at hFinite
  unfold value at hSome
  rw [unpack_div, unpack_one_literal]
  generalize x.toModel.unpack = u at *
  rcases u with s | _ | s | ⟨s, m, e, hm⟩
  · cases hFinite
  · cases hFinite
  · exact absurd (valueOf_zero s) hSome
  · have hCore : UnpackedFloat.divCore .binary32 m e m e = (2 ^ 24, -24, .exact) := by
      have hTarget : min (e - e) (Format.binary32.targetExponent
          (totalExponent m e - totalExponent m e)) = -24 := by
        rw [sub_self, sub_self]
        rfl
      have hAmount : (e - e - -24).toNat = 24 := by omega
      unfold UnpackedFloat.divCore
      dsimp only
      rw [hTarget, hAmount, Nat.shiftLeft_eq, Nat.mul_div_cancel_left _ hm, Nat.mul_mod_right]
      rfl
    have hSign : s / s = .positive := by cases s <;> rfl
    unfold UnpackedFloat.div
    simp only [hCore, hSign]
    rfl

/-! ### Results that are no numbers -/

/-- A sum with what is no number is none. -/
theorem isNaN_add (h : a.isNaN = true ∨ b.isNaN = true) : (a + b).isNaN = true := by
  change a.toModel.unpack.isNaN = true ∨ b.toModel.unpack.isNaN = true at h
  change (a + b).toModel.unpack.isNaN = true
  rw [unpack_add, isNaN_kept]
  generalize a.toModel.unpack = u at *
  generalize b.toModel.unpack = v at *
  rcases u with _ | _ | _ | _ <;> rcases v with _ | _ | _ | _
  all_goals first | rfl | simp [UnpackedFloat.isNaN] at h

/-- A difference with what is no number is none. -/
theorem isNaN_sub_of_isNaN (h : a.isNaN = true ∨ b.isNaN = true) : (a - b).isNaN = true := by
  change a.toModel.unpack.isNaN = true ∨ b.toModel.unpack.isNaN = true at h
  change (a - b).toModel.unpack.isNaN = true
  rw [unpack_sub, isNaN_kept]
  generalize a.toModel.unpack = u at *
  generalize b.toModel.unpack = v at *
  rcases u with _ | _ | _ | _ <;> rcases v with _ | _ | _ | _
  all_goals first | rfl | simp [UnpackedFloat.isNaN] at h

/-- An infinity has no part of itself. -/
theorem isNaN_div_self {x : Float32} (h : x.isFinite = false) : (x / x).isNaN = true := by
  change x.toModel.unpack.isFinite = false at h
  change (x / x).toModel.unpack.isNaN = true
  rw [unpack_div, isNaN_kept]
  generalize x.toModel.unpack = u at *
  rcases u with _ | _ | _ | _
  · rfl
  · rfl
  · cases h
  · cases h

/-- What is not finite has no product with zero. -/
theorem isNaN_mul_zero {x : Float32} (h : x.isFinite = false) : (x * 0.0).isNaN = true := by
  have hZero : (0.0 : Float32).toModel.unpack = .zero .positive := rfl
  change x.toModel.unpack.isFinite = false at h
  change (x * 0.0).toModel.unpack.isNaN = true
  rw [unpack_mul, isNaN_kept, hZero]
  generalize x.toModel.unpack = u at *
  rcases u with _ | _ | _ | _
  · rfl
  · rfl
  · cases h
  · cases h

theorem isNaN_sqrt {x : Float32} (h : x.isNaN = true) : x.sqrt.isNaN = true := by
  change x.toModel.unpack.isNaN = true at h
  change x.sqrt.toModel.unpack.isNaN = true
  rw [unpack_sqrt, isNaN_kept]
  generalize x.toModel.unpack = u at *
  cases u with
  | notANumber => rfl
  | _ => cases h

/-- The reciprocal of the root of a zero is infinite. -/
theorem isInf_inverse_sqrt {x : Float32} (h : (x == 0.0) = true) : (1.0 / x.sqrt).isInf = true := by
  obtain ⟨s, hUnpack⟩ := beq_zero_iff.mp h
  have hRoot : x.sqrt.toModel.unpack = .zero s := by
    rw [unpack_sqrt, hUnpack]
    rfl
  show (1.0 / x.sqrt).toModel.unpack.isInf = true
  rw [unpack_inverse_zero hRoot]
  rfl

/-! ### Infinities -/

variable {s t : Sign}

theorem exists_infinity (hNumber : a.isNaN = false) (h : a.isFinite = false) :
    ∃ s, a.toModel.unpack = .infinity s := by
  change a.toModel.unpack.isNaN = false at hNumber
  change a.toModel.unpack.isFinite = false at h
  generalize a.toModel.unpack = u at *
  rcases u with s | _ | _ | _
  · exact ⟨s, rfl⟩
  · cases hNumber
  · cases h
  · cases h

/-- An infinity stays what it is when a finite number is added. -/
theorem unpack_add_infinity (ha : a.toModel.unpack = .infinity s) (hb : b.isFinite = true) :
    (a + b).toModel.unpack = .infinity s := by
  change b.toModel.unpack.isFinite = true at hb
  rw [unpack_add, ha]
  generalize b.toModel.unpack = v at *
  rcases v with _ | _ | _ | _
  · cases hb
  · cases hb
  · rfl
  · rfl

/-- An infinity divided by a finite number is one, of the product of the signs. -/
theorem unpack_div_infinity (ha : a.toModel.unpack = .infinity s) (hb : b.isFinite = true)
    {k : Int} (hSide : Reaches t k b.toModel.unpack) :
    (a / b).toModel.unpack = .infinity (s / t) := by
  change b.toModel.unpack.isFinite = true at hb
  rw [unpack_div, ha]
  generalize b.toModel.unpack = v at *
  rcases v with _ | _ | _ | _
  · cases hb
  · cases hb
  · cases hSide
  · obtain rfl := hSide.1
    rfl

/-! ### Whole numbers -/

section Small

variable {n : Nat} (h : n < 2 ^ 24)

include h

theorem isFinite_ofNat : (Float32.ofNat n).isFinite = true :=
  (exact_ofInt (n := n) (by omega) (by exact_mod_cast h)).1

theorem value_ofNat : value (Float32.ofNat n) = n := by
  have hUnits := (exact_ofInt (n := n) (by omega) (by exact_mod_cast h)).2
  show (units (Float32.ofInt n).toModel.unpack : ℝ) / 2 ^ 149 = n
  rw [hUnits]
  push_cast
  norm_num

end Small

/-- A great number is given as digits, which are rounded once. -/
theorem rounds_ofNat {n : Nat} (hLow : 2 ^ 23 ≤ n) :
    Rounds n (roundWithAccuracy .binary32 .positive (n * 2 ^ 24) (-24) .exact) ∧
      (Float32.ofNat n).toModel.unpack =
        kept (roundWithAccuracy .binary32 .positive (n * 2 ^ 24) (-24) .exact) := by
  have hTotal : totalExponent (n * 2 ^ 24) (-24) = n.log2 + 1 :=
    totalExponent_mul_two_pow (by omega) 24
  have hShift :
      (-24 : Int) ≤ Format.binary32.targetExponent (totalExponent (n * 2 ^ 24) (-24)) := by
    rw [targetExponent_eq]
    omega
  have hMeasures : Measures (n * 2 ^ 24) ((n * 2 ^ 24 : Nat) : ℝ) .exact := rfl
  have hRounds := Rounds.roundWithAccuracy hShift .positive hMeasures
  have hValue : ((Sign.positive.apply 1 : Int) : ℝ) * ((n * 2 ^ 24 : Nat) * 2 ^ (-24 : Int)) =
      n := by
    have hSign : Sign.positive.apply 1 = 1 := rfl
    rw [hSign]
    push_cast
    rw [one_mul, mul_assoc]
    norm_num
  rw [hValue] at hRounds
  refine ⟨hRounds, ?_⟩
  rw [ofNat_eq_rounded hLow]
  exact unpack_pack hRounds.rounded

/-- A whole number is converted to the float next to it. -/
theorem approximates_ofNat {n : Nat} (h : n < 2 ^ 32) : Approximates (Float32.ofNat n) n := by
  by_cases hSmall : n < 2 ^ 24
  · exact ⟨isFinite_ofNat hSmall, (value_ofNat hSmall).symm ▸ .refl _⟩
  · obtain ⟨hRounds, hUnpack⟩ := rounds_ofNat (n := n) (by omega)
    refine hRounds.approximates hUnpack ?_
    have hMost : (n : ℝ) < 2 ^ 32 := by exact_mod_cast h
    rw [abs_of_nonneg n.cast_nonneg]
    unfold overflow
    norm_num at hMost ⊢
    linarith

end PathTracer.Binary32
