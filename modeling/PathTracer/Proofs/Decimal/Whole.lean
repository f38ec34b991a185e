import Mathlib
import PathTracer.Proofs.Decimal.Ordinal

/-! Whole numbers as binary32 numbers. Those below `2 ^ 23` are kept exactly, so
that indices which are handed on as numbers can be read back. -/
namespace PathTracer.Binary32

open Float.Model (Format UnpackedFloat totalExponent)
open Float.Model.UnpackedFloat (Sign ExtendedMantissa pack unpack shiftToExponent
  shiftToTargetExponent roundWithAccuracy decreaseExponent)

/-! ### Rounding what is exact -/

/-- Bits that are all zero leave no trace when they are dropped. -/
theorem shiftRight_exact (m k : Nat) :
    ExtendedMantissa.ofMantissaAndAccuracy (m * 2 ^ k) .exact >>> k =
      .ofMantissaAndAccuracy m .exact := by
  show Nat.repeat ExtendedMantissa.shiftRightOne k _ = _
  induction k generalizing m with
  | zero => rw [pow_zero, mul_one, Nat.repeat]
  | succ k ih =>
      have hDouble : m * 2 ^ (k + 1) = m * 2 * 2 ^ k := by rw [pow_succ]; ring
      have hHalf : m * 2 / 2 = m := Nat.mul_div_cancel m (by decide)
      have hEven : (m * 2 % 2 != 0) = false := by
        rw [Nat.mul_mod_left]
        rfl
      rw [Nat.repeat, hDouble, ih]
      simp only [ExtendedMantissa.ofMantissaAndAccuracy, ExtendedMantissa.shiftRightOne, hHalf,
        hEven, Bool.or_self]

/-- A mantissa of twenty-four bits, without those that are dropped. -/
structure Normal (m : Nat) : Prop where
  low : 2 ^ 23 ≤ m
  high : m < 2 ^ 24

theorem Normal.pos {m : Nat} (h : Normal m) : 0 < m :=
  Nat.lt_of_lt_of_le (by decide) h.low

/-- A normal significand that is shifted has as many more digits. -/
theorem Normal.log2_mul {m : Nat} (h : Normal m) (k : Nat) : (m * 2 ^ k).log2 = 23 + k := by
  have hPow : 0 < 2 ^ k := Nat.two_pow_pos k
  have hPos : m * 2 ^ k ≠ 0 := Nat.ne_of_gt (Nat.mul_pos h.pos hPow)
  have hLow : 2 ^ (23 + k) ≤ m * 2 ^ k := by
    rw [pow_add]
    exact Nat.mul_le_mul_right _ h.low
  have hHigh : m * 2 ^ k < 2 ^ (23 + k + 1) := by
    rw [show 23 + k + 1 = 24 + k by omega, pow_add]
    exact Nat.mul_lt_mul_of_pos_right h.high hPow
  exact (Nat.log2_eq_iff hPos).mpr ⟨hLow, hHigh⟩

/-- A significand that was shifted up is shifted back without loss. -/
theorem shiftToTargetExponent_exact {m : Nat} (h : Normal m) (k : Nat) {e : Int}
    (hLeast : -149 ≤ e + k) :
    shiftToTargetExponent .binary32 (m * 2 ^ k) e .exact =
      (.ofMantissaAndAccuracy m .exact, e + k) := by
  have hTarget : Format.binary32.targetExponent (totalExponent (m * 2 ^ k) e) = e + k := by
    have hBits : Format.binary32.mantissaBits = 24 := rfl
    have hMin : Format.binary32.minExponent = -149 := rfl
    rw [Format.targetExponent, totalExponent, h.log2_mul k, hBits, hMin]
    push_cast
    omega
  have hAmount : (e + k - e).toNat = k := by omega
  rw [shiftToTargetExponent, hTarget, shiftToExponent, hAmount, shiftRight_exact]

/-- A number that fits is not changed. -/
theorem roundWithAccuracy_exact {m : Nat} (h : Normal m) (k : Nat) {e : Int} (s : Sign)
    (hLeast : -149 ≤ e + k) :
    roundWithAccuracy .binary32 s (m * 2 ^ k) e .exact = .finite s m (e + k) h.pos := by
  have hFirst := shiftToTargetExponent_exact h k hLeast
  have hSecond := shiftToTargetExponent_exact h 0 (e := e + k) (by omega)
  rw [pow_zero, mul_one] at hSecond
  unfold roundWithAccuracy
  simp only [hFirst]
  have hRounded : (ExtendedMantissa.ofMantissaAndAccuracy m .exact).roundedMantissa = m := rfl
  simp only [hRounded, hSecond]
  have hMantissa : (ExtendedMantissa.ofMantissaAndAccuracy m .exact).mantissa = m := rfl
  simp only [hMantissa, Nat.ne_of_gt h.pos, dite_false, Nat.cast_zero, add_zero]

/-! ### Whole numbers -/

/-- The number of bits that a mantissa is short of twenty-four. -/
def missingBits (n : Nat) : Nat :=
  23 - n.log2

/-- The mantissa of a whole number. -/
def mantissaOf (n : Nat) : Nat :=
  n * 2 ^ missingBits n

/-- Whole numbers below `2 ^ 24` fill a significand when they are shifted up. -/
theorem normal_mantissaOf {n : Nat} (hPos : 0 < n) (h : n < 2 ^ 24) : Normal (mantissaOf n) := by
  have hLog : n.log2 < 24 := (Nat.log2_lt (Nat.ne_of_gt hPos)).mpr h
  have hLow : 2 ^ n.log2 ≤ n := Nat.log2_self_le (Nat.ne_of_gt hPos)
  have hHigh : n < 2 ^ (n.log2 + 1) := Nat.lt_log2_self
  have hPow : 0 < 2 ^ missingBits n := Nat.two_pow_pos _
  have hBits : n.log2 + missingBits n = 23 := by
    unfold missingBits
    omega
  constructor
  · have hMul := Nat.mul_le_mul_right (2 ^ missingBits n) hLow
    rw [← pow_add, hBits] at hMul
    exact hMul
  · have hMul := Nat.mul_lt_mul_of_pos_right hHigh hPow
    rw [← pow_add, show n.log2 + 1 + missingBits n = 24 by omega] at hMul
    exact hMul

/-- A whole number that is not zero. -/
def wholeOf (n : Nat) (hPos : 0 < n) (h : n < 2 ^ 24) : UnpackedFloat :=
  .finite .positive (mantissaOf n) (-missingBits n) (normal_mantissaOf hPos h).pos

/-- A whole number below `2 ^ 24` is converted exactly. -/
theorem ofNat_eq_wholeOf {n : Nat} (hPos : 0 < n) (h : n < 2 ^ 24) :
    UnpackedFloat.ofNat .binary32 n = wholeOf n hPos h := by
  have hNormal := normal_mantissaOf hPos h
  have hLog : n.log2 < 24 := (Nat.log2_lt (Nat.ne_of_gt hPos)).mpr h
  have hCompare : compare (n : Int) 0 = .gt := Int.compare_eq_gt.mpr (by omega)
  have hTarget : Format.binary32.targetExponent (totalExponent n 0) = -(missingBits n : Int) := by
    have hBits : Format.binary32.mantissaBits = 24 := rfl
    have hMin : Format.binary32.minExponent = -149 := rfl
    rw [Format.targetExponent, totalExponent, hBits, hMin]
    unfold missingBits
    omega
  have hAmount : (0 - -(missingBits n : Int)).toNat = missingBits n := by omega
  have hDecrease : decreaseExponent n 0 (-(missingBits n : Int)) =
      (mantissaOf n, -(missingBits n : Int)) := by
    rw [decreaseExponent, hAmount, Nat.shiftLeft_eq, mantissaOf]
    simp
  have hRound := roundWithAccuracy_exact hNormal 0 (e := -(missingBits n : Int)) .positive
    (by unfold missingBits; omega)
  rw [pow_zero, mul_one] at hRound
  unfold UnpackedFloat.ofNat UnpackedFloat.ofInt UnpackedFloat.normalize
  rw [hCompare]
  simp only [Float.Model.UnpackedFloat.round, Int.toNat_natCast, hTarget, hDecrease, hRound]
  simp [wholeOf]

/-! ### Numbers in memory -/

/-- Normal numbers have an exponent and a mantissa in memory. -/
theorem exists_parts {m : Nat} (h : Normal m) {e : Int} (s : Sign) (hLow : -149 ≤ e)
    (hHigh : e ≤ 104) :
    ∃ exponent mantissa, exponent ≠ -1#8 ∧ .finite s m e h.pos = unpacked s exponent mantissa := by
  obtain ⟨biased, hBiased⟩ : ∃ biased : Nat, e + 150 = biased := ⟨(e + 150).toNat, by omega⟩
  have hLeast := h.low
  have hMost := h.high
  have hExponent : (BitVec.ofNat 8 biased).toNat = biased := by
    rw [BitVec.toNat_ofNat]
    exact Nat.mod_eq_of_lt (by omega)
  have hMantissa : (1#1 ++ BitVec.ofNat 23 (m - 2 ^ 23)).toNat = m := by
    rw [toNat_one_append, BitVec.toNat_ofNat, Nat.mod_eq_of_lt (by omega)]
    omega
  refine ⟨.ofNat 8 biased, .ofNat 23 (m - 2 ^ 23), ?_, ?_⟩
  · intro hSame
    have hAll : biased = 255 := hExponent.symm.trans (congrArg BitVec.toNat hSame)
    omega
  · have hSome : BitVec.ofNat 8 biased ≠ 0#8 := by
      intro hSame
      have hNone : biased = 0 := hExponent.symm.trans (congrArg BitVec.toNat hSame)
      omega
    unfold unpacked
    rw [if_neg hSome]
    simp only [hMantissa, hExponent]
    congr 1
    omega

/-- Normal numbers are kept as they are. -/
theorem unpack_pack_normal {m : Nat} (h : Normal m) {e : Int} (s : Sign) (hLow : -149 ≤ e)
    (hHigh : e ≤ 104) :
    unpack .binary32 (pack .binary32 (.finite s m e h.pos)) = .finite s m e h.pos ∧
      signPart (pack .binary32 (.finite s m e h.pos)) = s := by
  obtain ⟨exponent, mantissa, hFinite, hParts⟩ := exists_parts h s hLow hHigh
  have hExponent := exponentPart_ofParts s exponent mantissa
  rw [hParts, pack_unpacked hFinite, unpack_eq_unpacked (hExponent.symm ▸ hFinite), hExponent,
    mantissaPart_ofParts, signPart_ofParts]
  exact ⟨rfl, rfl⟩

/-- The number with a value that is not rounded. -/
def packedWhole (n : Nat) : Float32 :=
  .ofModel (.pack (UnpackedFloat.ofNat .binary32 n))

/-- The bits of a whole number are those of its parts. -/
theorem unpack_packedWhole {n : Nat} (hPos : 0 < n) (h : n < 2 ^ 24) :
    (packedWhole n).toModel.unpack = wholeOf n hPos h := by
  show unpack .binary32 (UInt32.ofBitVec (pack .binary32 (UnpackedFloat.ofNat .binary32 n))).toBitVec = _
  rw [ofNat_eq_wholeOf hPos h]
  have hBits : missingBits n ≤ 23 := Nat.sub_le 23 _
  exact (unpack_pack_normal (normal_mantissaOf hPos h) .positive (by omega) (by omega)).1

/-- The bits of one are known. -/
theorem unpack_one : (Float32.ofBits 0x3F800000).toModel.unpack =
    .finite .positive (2 ^ 23) (-23) (by decide) :=
  rfl

/-- Whole numbers of 64 bits are converted exactly below `2 ^ 24`. -/
theorem toFloat32_toUInt64 {n : Nat} (h : n < 2 ^ 24) : n.toUInt64.toFloat32 = packedWhole n := by
  have hNat : n.toUInt64.toNat = n := by
    show n % 2 ^ 64 = n
    exact Nat.mod_eq_of_lt (by omega)
  show Float32.ofModel (.pack (UnpackedFloat.ofNat .binary32 n.toUInt64.toNat)) = _
  rw [hNat]
  rfl

/-- Whole numbers of 32 bits are converted as natural numbers. -/
theorem toFloat32_toUInt32 {u : UInt32} : u.toFloat32 = packedWhole u.toNat :=
  rfl

/-- A number that is given by its value has that value. -/
theorem ofNat_eq_packedWhole {n : Nat} (h : n < 2 ^ 23) : Float32.ofNat n = packedWhole n := by
  show Float32.ofScientific n false 0 = packedWhole n
  unfold Float32.ofScientific
  rw [dif_pos ⟨h, by decide⟩, if_neg Bool.false_ne_true]
  show n.toUInt64.toFloat32 * Float32.ofBits 0x3F800000 = packedWhole n
  rw [toFloat32_toUInt64 (by omega)]
  by_cases hZero : n = 0
  · rw [hZero]
    decide
  · have hPos : 0 < n := Nat.pos_of_ne_zero hZero
    have hNormal := normal_mantissaOf hPos (Nat.lt_trans h (by decide))
    have hBits : missingBits n ≤ 23 := Nat.sub_le 23 _
    have hRound := roundWithAccuracy_exact hNormal 23 (e := -(missingBits n : Int) + -23) .positive
      (by push_cast; omega)
    show Float32.ofModel (.pack (UnpackedFloat.mul .binary32 (packedWhole n).toModel.unpack
      (Float32.ofBits 0x3F800000).toModel.unpack)) = _
    rw [unpack_packedWhole hPos (Nat.lt_trans h (by decide)), unpack_one, packedWhole,
      ofNat_eq_wholeOf hPos (Nat.lt_trans h (by decide))]
    unfold wholeOf UnpackedFloat.mul
    dsimp only
    rw [show (Sign.positive * Sign.positive) = .positive from rfl, hRound]
    congr 3
    push_cast
    omega

/-- From there on it is read as digits without a fraction, which are rounded once. -/
theorem ofNat_eq_rounded {n : Nat} (h : 2 ^ 23 ≤ n) : Float32.ofNat n =
    .ofModel (.pack (roundWithAccuracy .binary32 .positive (n * 2 ^ 24) (-24) .exact)) := by
  have hRange : (0 : Int) ≤ 2 ^ Format.binary32.exponentBits := by positivity
  have hDigits : Format.binary32.mantissaBits = 24 := rfl
  have hShift : n <<< 24 * 10 ^ (0 : Int).toNat = n * 2 ^ 24 := by
    rw [Nat.shiftLeft_eq, Int.toNat_zero, pow_zero, mul_one]
  have hDecimal : UnpackedFloat.ofScientific .binary32 n 0 =
      roundWithAccuracy .binary32 .positive (n * 2 ^ 24) (-24) .exact := by
    unfold UnpackedFloat.ofScientific
    rw [dif_neg (by omega), if_neg (by omega), if_neg (by omega), if_pos (by omega)]
    unfold UnpackedFloat.mul
    simp only [hDigits, hShift]
    rfl
  show Float32.ofScientific n false 0 = _
  unfold Float32.ofScientific
  rw [dif_neg (by omega), if_neg Bool.false_ne_true, ← hDecimal]
  rfl

/-- Whole numbers that need all digits of a significand are converted exactly. -/
theorem ofNat_eq_packedWhole_of_le {n : Nat} (hLow : 2 ^ 23 ≤ n) (h : n < 2 ^ 24) :
    Float32.ofNat n = packedWhole n := by
  have hPos : 0 < n := by omega
  have hBits : missingBits n = 0 := by
    have hLog : 23 ≤ n.log2 := (Nat.le_log2 (by omega)).mpr hLow
    unfold missingBits
    omega
  have hMantissa : mantissaOf n = n := by rw [mantissaOf, hBits, pow_zero, mul_one]
  have hNormal : Normal n := hMantissa ▸ normal_mantissaOf hPos h
  have hRound := roundWithAccuracy_exact hNormal 24 (e := -24) .positive (by omega)
  have hWhole : roundWithAccuracy .binary32 .positive (n * 2 ^ 24) (-24) .exact =
      wholeOf n hPos h := by
    unfold wholeOf
    simp only [hMantissa, hBits]
    exact hRound
  rw [ofNat_eq_rounded hLow, hWhole, packedWhole, ofNat_eq_wholeOf hPos h]

/-- Natural numbers are converted exactly below `2 ^ 24`. -/
theorem ofNat_eq_packedWhole_of_lt {n : Nat} (h : n < 2 ^ 24) :
    Float32.ofNat n = packedWhole n := by
  by_cases hSmall : n < 2 ^ 23
  · exact ofNat_eq_packedWhole hSmall
  · exact ofNat_eq_packedWhole_of_le (Nat.not_lt.mp hSmall) h

/-! ### Reading numbers back -/

/-- A whole number is converted back exactly, within any range that has it. -/
theorem toInt_wholeOf {n : Nat} (hPos : 0 < n) (h : n < 2 ^ 24) (least most : Int) :
    (wholeOf n hPos h).toInt least most = n := by
  have hAmount : (0 - -(missingBits n : Int)).toNat = missingBits n := by omega
  have hKeep : decreaseExponent (mantissaOf n) (-(missingBits n : Int)) 0 =
      (mantissaOf n, -(missingBits n : Int)) := by
    rw [decreaseExponent, show (-(missingBits n : Int) - 0).toNat = 0 by omega]
    simp
  unfold wholeOf UnpackedFloat.toInt UnpackedFloat.roundToInt
  simp only [hKeep, shiftToExponent, hAmount]
  rw [mantissaOf, shiftRight_exact]
  rfl

theorem toInt_packedWhole {n : Nat} (h : n < 2 ^ 24) (least most : Int) :
    (packedWhole n).toModel.unpack.toInt least most = n := by
  by_cases hZero : n = 0
  · rw [hZero]
    rfl
  · rw [unpack_packedWhole (Nat.pos_of_ne_zero hZero) h, toInt_wholeOf]

/-- The float of a whole number is converted back to 32 bits exactly. -/
theorem toUInt32_packedWhole {n : Nat} (h : n < 2 ^ 24) :
    (packedWhole n).toUInt32.toNat = n := by
  show (UInt32.ofNatClamp ((packedWhole n).toModel.unpack.toInt 0 (UInt32.size - 1)).toNat).toNat = n
  rw [toInt_packedWhole h, Int.toNat_natCast, UInt32.ofNatClamp, dif_pos (by
    show n < 2 ^ 32
    omega)]
  rfl

/-- The float of a whole number is converted back to 64 bits exactly. -/
theorem toUInt64_packedWhole {n : Nat} (h : n < 2 ^ 24) :
    (packedWhole n).toUInt64.toNat = n := by
  show (UInt64.ofNatClamp ((packedWhole n).toModel.unpack.toInt 0 (UInt64.size - 1)).toNat).toNat = n
  rw [toInt_packedWhole h, Int.toNat_natCast, UInt64.ofNatClamp, dif_pos (by
    show n < 2 ^ 64
    omega)]
  rfl

/-- Whole numbers are their own magnitudes. -/
theorem abs_packedWhole {n : Nat} (h : n < 2 ^ 24) : (packedWhole n).abs = packedWhole n := by
  by_cases hZero : n = 0
  · rw [hZero]
    decide
  · have hPos := Nat.pos_of_ne_zero hZero
    show Float32.ofModel (.pack (packedWhole n).toModel.unpack.abs) = _
    rw [unpack_packedWhole hPos h, packedWhole, ofNat_eq_wholeOf hPos h]
    rfl

/-- No whole number is below zero. -/
theorem not_packedWhole_lt_zero {n : Nat} (h : n < 2 ^ 24) : ¬packedWhole n < 0.0 := by
  by_cases hZero : n = 0
  · rw [hZero]
    decide
  · have hNone : (0.0 : Float32).toModel.unpack = .zero .positive := rfl
    intro hLess
    have hCompare : ((packedWhole n).toModel.unpack.lt (0.0 : Float32).toModel.unpack) = true :=
      of_decide_eq_true hLess
    rw [unpack_packedWhole (Nat.pos_of_ne_zero hZero) h, hNone] at hCompare
    cases hCompare

/-- A whole number less itself is zero. -/
theorem sub_packedWhole {n : Nat} (h : n < 2 ^ 24) : packedWhole n - packedWhole n = 0.0 := by
  by_cases hZero : n = 0
  · rw [hZero]
    decide
  · have hPos := Nat.pos_of_ne_zero hZero
    show Float32.ofModel (.pack (UnpackedFloat.sub .binary32 (packedWhole n).toModel.unpack
      (packedWhole n).toModel.unpack)) = _
    rw [unpack_packedWhole hPos h]
    unfold wholeOf UnpackedFloat.sub
    simp only [sub_self, UnpackedFloat.normalize]
    rfl

/-- Whole numbers do not have the sign bit. -/
theorem signBit_packedWhole {n : Nat} (h : n < 2 ^ 24) : signBit (packedWhole n) = false := by
  by_cases hZero : n = 0
  · rw [hZero]
    decide
  · have hPos := Nat.pos_of_ne_zero hZero
    have hBits : missingBits n ≤ 23 := Nat.sub_le 23 _
    have hSign : signPart (packedWhole n).toBits.toBitVec = .positive := by
      show signPart (UInt32.ofBitVec (pack .binary32 (UnpackedFloat.ofNat .binary32 n))).toBitVec = _
      rw [ofNat_eq_wholeOf hPos h]
      exact (unpack_pack_normal (normal_mantissaOf hPos h) .positive (by omega) (by omega)).2
    rw [← Bool.not_eq_true, signBit_iff, hSign]
    exact nofun

/-- A whole number is the nearest whole number to itself. -/
theorem round_packedWhole {n : Nat} (h : n < 2 ^ 24) : round (packedWhole n) = packedWhole n := by
  have hPart : wholePart (packedWhole n) = packedWhole n := by
    rw [wholePart, abs_packedWhole h, toFloat32_toUInt32, toUInt32_packedWhole h]
  have hHalf : ((0.0 : Float32) < 0.5) := by decide
  unfold round
  split
  · dsimp only
    rw [hPart, abs_packedWhole h, sub_packedWhole h, if_pos hHalf, copySign, signBit_packedWhole h,
      if_neg Bool.false_ne_true, abs_packedWhole h]
  · rfl

/-- Indices of data can be read back. -/
theorem toNat64_ofNat {n : Nat} (h : n < 2 ^ 23) : toNat64 (.ofNat n) = n := by
  rw [ofNat_eq_packedWhole h, toNat64, toUInt64_packedWhole (Nat.lt_trans h (by decide))]

/-- So can all indices of as many slots as numbers can count. -/
theorem toNat64_ofNat_of_le {n : Nat} (h : n ≤ 2 ^ 24) : toNat64 (.ofNat n) = n := by
  rcases Nat.lt_or_eq_of_le h with hLess | rfl
  · rw [ofNat_eq_packedWhole_of_lt hLess, toNat64, toUInt64_packedWhole hLess]
  · decide

/-- Indices of materials can be read back. -/
theorem toInt32_round_ofInt {n : Nat} (h : n < 2 ^ 23) :
    toInt32 (round (.ofInt n)) = n := by
  have hWide : n < 2 ^ 24 := Nat.lt_trans h (by decide)
  show toInt32 (round (.ofNat n)) = n
  rw [ofNat_eq_packedWhole h, round_packedWhole hWide, toInt32,
    if_neg (not_packedWhole_lt_zero hWide), toUInt32_packedWhole hWide]
  have hRange : min n 0x7fffffff = n := Nat.min_eq_left (by omega)
  rw [hRange]

theorem not_ofInt_lt_zero {n : Nat} (h : n < 2 ^ 23) : ¬Float32.ofInt n < 0.0 := by
  show ¬Float32.ofNat n < 0.0
  rw [ofNat_eq_packedWhole h]
  exact not_packedWhole_lt_zero (Nat.lt_trans h (by decide))

end PathTracer.Binary32
