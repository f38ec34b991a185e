import Mathlib
import PathTracer.Binary32
import PathTracer.Decimal.Rounding

/-! A finite number is its sign bit with its ordinal. -/
namespace PathTracer.Binary32

open Float.Model (Format UnpackedFloat)
open Float.Model.UnpackedFloat (Sign unpack pack packComponents unpackSign unpackExponent
  unpackMantissa)

/-! ### The parts of a bit pattern -/

def signPart (b : BitVec 32) : Sign :=
  .ofBitVec (@unpackSign .binary32 b)

def exponentPart (b : BitVec 32) : BitVec 8 :=
  @unpackExponent .binary32 b

def mantissaPart (b : BitVec 32) : BitVec 23 :=
  @unpackMantissa .binary32 b

/-- The bit pattern of a sign, an exponent and a mantissa. -/
def ofParts (sign : Sign) (exponent : BitVec 8) (mantissa : BitVec 23) : BitVec 32 :=
  packComponents .binary32 sign exponent mantissa

theorem toBitVec_ofBitVec (v : BitVec 1) : (Sign.ofBitVec v).toBitVec = v := by
  rcases BitVec.eq_zero_or_eq_one v with rfl | rfl
  · rfl
  · rfl

/-- Bits are put together from their parts again. -/
theorem ofParts_parts (b : BitVec 32) :
    ofParts (signPart b) (exponentPart b) (mantissaPart b) = b := by
  simp only [ofParts, packComponents, signPart, toBitVec_ofBitVec, unpackSign, exponentPart,
    unpackExponent, mantissaPart, unpackMantissa, BitVec.extractLsb]
  ext i hi
  grind

/-- As a natural number the parts follow one another: sign, exponent and mantissa. -/
theorem toNat_ofParts (sign : Sign) (exponent : BitVec 8) (mantissa : BitVec 23) :
    (ofParts sign exponent mantissa).toNat =
      sign.toBitVec.toNat * 2 ^ 31 + (exponent.toNat * 2 ^ 23 + mantissa.toNat) := by
  have hMantissa : mantissa.toNat < 2 ^ 23 := mantissa.isLt
  have hExponent : exponent.toNat < 2 ^ 8 := exponent.isLt
  unfold ofParts packComponents
  rw [BitVec.toNat_append, BitVec.toNat_append, ← Nat.shiftLeft_add_eq_or_of_lt hMantissa,
    ← Nat.shiftLeft_add_eq_or_of_lt hExponent]
  simp only [Nat.shiftLeft_eq]
  omega

/-! ### Packing and unpacking -/

/-- The significand of a normal number, with its leading one. -/
theorem toNat_one_append (mantissa : BitVec 23) :
    (1#1 ++ mantissa).toNat = 2 ^ 23 + mantissa.toNat := by
  rw [BitVec.toNat_append, ← Nat.shiftLeft_add_eq_or_of_lt mantissa.isLt]
  rfl

/-- The number of a sign, an exponent that is not the greatest, and a mantissa. -/
def unpacked (sign : Sign) (exponent : BitVec 8) (mantissa : BitVec 23) : UnpackedFloat :=
  if exponent = 0#8 then
    if h : mantissa = 0#23 then .zero sign
    else .finite sign mantissa.toNat (-149) (by simpa [BitVec.toNat_pos, BitVec.pos_iff_ne_zero])
  else
    .finite sign (1#1 ++ mantissa).toNat ((exponent.toNat : ℤ) - 150)
      (by rw [toNat_one_append]; omega)

/-- The negation of a number has the other sign and nothing else. -/
theorem neg_unpacked (sign : Sign) (exponent : BitVec 8) (mantissa : BitVec 23) :
    (unpacked sign exponent mantissa).neg = unpacked (-sign) exponent mantissa := by
  unfold unpacked
  split
  · split
    · rfl
    · rfl
  · rfl

/-- Bits that stand for a finite number are unpacked by their parts. -/
theorem unpack_eq_unpacked {b : BitVec 32} (h : exponentPart b ≠ -1#8) :
    unpack .binary32 b = unpacked (signPart b) (exponentPart b) (mantissaPart b) := by
  have hBias : ((Format.binary32.exponentBias : ℕ) : ℤ) = 127 := rfl
  unfold exponentPart at h
  unfold unpack unpacked exponentPart mantissaPart signPart
  dsimp only
  rw [if_neg h]
  split
  · rename_i hZero
    split
    · rfl
    · simp only [hZero, hBias]
      rfl
  · simp only [hBias]
    rfl

/-- Packing undoes unpacking below the greatest exponent. -/
theorem pack_unpacked {sign : Sign} {exponent : BitVec 8} {mantissa : BitVec 23}
    (h : exponent ≠ -1#8) :
    pack .binary32 (unpacked sign exponent mantissa) = ofParts sign exponent mantissa := by
  have hBias : ((Format.binary32.exponentBias : ℕ) : ℤ) = 127 := rfl
  have hBits : Format.binary32.mantissaBits = 24 := rfl
  have hMantissa : mantissa.toNat < 2 ^ 23 := mantissa.isLt
  have hExponent : exponent.toNat < 256 := exponent.isLt
  have hGreatest : exponent.toNat ≠ 255 := fun hSame =>
    h (BitVec.eq_of_toNat_eq (by rw [hSame]; rfl))
  unfold unpacked ofParts
  split
  · rename_i hZero
    split
    · rename_i hNone
      rw [hZero, hNone]
      rfl
    · rename_i hSome
      have hPos : mantissa.toNat ≠ 0 := fun hSame => hSome (BitVec.eq_of_toNat_eq hSame)
      have hLog : ¬mantissa.toNat.log2 + 1 = 24 := by
        have hSmall := (Nat.log2_lt hPos).mpr hMantissa
        omega
      simp only [pack, hBias, hBits]
      rw [if_neg (by decide), if_neg hLog, hZero, BitVec.ofNat_toNat, BitVec.setWidth_eq]
  · have hLog : (1#1 ++ mantissa).toNat.log2 + 1 = 24 := by
      rw [toNat_one_append]
      have hLow : 23 ≤ (2 ^ 23 + mantissa.toNat).log2 := (Nat.le_log2 (by omega)).mpr (by omega)
      have hHigh : (2 ^ 23 + mantissa.toNat).log2 < 24 := (Nat.log2_lt (by omega)).mpr (by omega)
      omega
    have hBiased : ((exponent.toNat : ℤ) - 150 + 127 + 23).toNat = exponent.toNat := by omega
    have hImplicit : BitVec.ofNat 23 (1#1 ++ mantissa).toNat = mantissa := by
      refine BitVec.eq_of_toNat_eq ?_
      rw [BitVec.toNat_ofNat, toNat_one_append]
      omega
    simp only [pack, hBias, hBits]
    rw [show ((23 : ℕ) : ℤ) = 23 from rfl, hBiased, if_neg (by omega), if_pos hLog,
      BitVec.ofNat_toNat, BitVec.setWidth_eq, hImplicit]

/-! ### Numbers of given bits -/

/-- Floats are told by their bits. -/
theorem toBits_injective {x y : Float32} (h : x.toBits = y.toBits) : x = y := by
  obtain ⟨⟨a, hFirst⟩⟩ := x
  obtain ⟨⟨b, hSecond⟩⟩ := y
  cases show a = b from h
  rfl

theorem exponentPart_ofParts (sign : Sign) (exponent : BitVec 8) (mantissa : BitVec 23) :
    exponentPart (ofParts sign exponent mantissa) = exponent :=
  Float.Model.UnpackedFloat.unpackExponent_packComponents

theorem mantissaPart_ofParts (sign : Sign) (exponent : BitVec 8) (mantissa : BitVec 23) :
    mantissaPart (ofParts sign exponent mantissa) = mantissa :=
  Float.Model.UnpackedFloat.unpackMantissa_packComponents

theorem signPart_ofParts (sign : Sign) (exponent : BitVec 8) (mantissa : BitVec 23) :
    signPart (ofParts sign exponent mantissa) = sign := by
  have hBits := congrArg BitVec.toNat (ofParts_parts (ofParts sign exponent mantissa))
  rw [toNat_ofParts, toNat_ofParts, exponentPart_ofParts, mantissaPart_ofParts] at hBits
  generalize signPart (ofParts sign exponent mantissa) = other at hBits
  cases sign <;> cases other <;> first | rfl | (simp [Sign.toBitVec] at hBits)

/-- Infinities and what is not a number have the greatest exponent. -/
theorem exponentPart_of_isFinite {x : Float32} (h : x.isFinite = true) :
    exponentPart x.toBits.toBitVec ≠ -1#8 := by
  intro hGreatest
  have hUnpack : (unpack .binary32 x.toBits.toBitVec).isFinite = true := h
  unfold exponentPart at hGreatest
  unfold unpack at hUnpack
  dsimp only at hUnpack
  rw [if_pos hGreatest] at hUnpack
  split at hUnpack
  · cases hUnpack
  · cases hUnpack

/-- Bits below the greatest exponent are those of the number made of them. -/
theorem toBits_ofBits {b : UInt32} (h : exponentPart b.toBitVec ≠ -1#8) :
    (Float32.ofBits b).toBits.toBitVec = b.toBitVec := by
  change pack .binary32 (unpack .binary32 b.toBitVec) = b.toBitVec
  rw [unpack_eq_unpacked h, pack_unpacked h, ofParts_parts]

/-- The opposite of a number has the opposite sign part. -/
theorem toBits_neg {x : Float32} (h : exponentPart x.toBits.toBitVec ≠ -1#8) :
    (-x).toBits.toBitVec = ofParts (-signPart x.toBits.toBitVec)
      (exponentPart x.toBits.toBitVec) (mantissaPart x.toBits.toBitVec) := by
  change pack .binary32 (unpack .binary32 x.toBits.toBitVec).neg = _
  rw [unpack_eq_unpacked h, neg_unpacked, pack_unpacked h]

/-- A finite float is a number. -/
theorem isNaN_of_isFinite {x : Float32} (h : x.isFinite = true) : x.isNaN = false := by
  change x.toModel.unpack.isFinite = true at h
  change x.toModel.unpack.isNaN = false
  cases hUnpack : x.toModel.unpack <;> simp_all [UnpackedFloat.isFinite, UnpackedFloat.isNaN]

/-- A finite float is no infinity. -/
theorem isInf_of_isFinite {x : Float32} (h : x.isFinite = true) : x.isInf = false := by
  change x.toModel.unpack.isFinite = true at h
  change x.toModel.unpack.isInf = false
  cases hUnpack : x.toModel.unpack <;> simp_all [UnpackedFloat.isFinite, UnpackedFloat.isInf]

/-! ### Sign and ordinal -/

theorem toNat_toBits (x : Float32) :
    x.toBits.toNat = (signPart x.toBits.toBitVec).toBitVec.toNat * 2 ^ 31 +
      ((exponentPart x.toBits.toBitVec).toNat * 2 ^ 23 +
        (mantissaPart x.toBits.toBitVec).toNat) := by
  rw [← toNat_ofParts, ofParts_parts]
  rfl

/-- Exponent and mantissa have less than `2 ^ 31` values. -/
theorem magnitude_lt (exponent : BitVec 8) (mantissa : BitVec 23) :
    exponent.toNat * 2 ^ 23 + mantissa.toNat < 2 ^ 31 := by
  have hMantissa : mantissa.toNat < 2 ^ 23 := mantissa.isLt
  have hExponent : exponent.toNat < 2 ^ 8 := exponent.isLt
  omega

/-- The sign bit is that of the parts, also of zeros. -/
theorem signBit_iff (x : Float32) :
    signBit x = true ↔ signPart x.toBits.toBitVec = .negative := by
  have hMagnitude := magnitude_lt (exponentPart x.toBits.toBitVec) (mantissaPart x.toBits.toBitVec)
  unfold signBit
  rw [decide_eq_true_iff, UInt32.le_iff_toNat_le, toNat_toBits,
    show (0x80000000 : UInt32).toNat = 2 ^ 31 from rfl]
  cases signPart x.toBits.toBitVec with
  | negative =>
      refine iff_of_true ?_ rfl
      rw [show Sign.negative.toBitVec.toNat = 1 from rfl]
      omega
  | positive =>
      refine iff_of_false ?_ (by simp)
      rw [show Sign.positive.toBitVec.toNat = 0 from rfl]
      omega

end PathTracer.Binary32

namespace PathTracer.Decimal

open Binary32
open Float.Model.UnpackedFloat (Sign)

/-- The ordinal of a float is the number of its exponent and mantissa, without the sign. -/
theorem toOrdinal_eq (x : Float32) :
    toOrdinal x = (exponentPart x.toBits.toBitVec).toNat * 2 ^ 23 +
      (mantissaPart x.toBits.toBitVec).toNat := by
  have hMagnitude := magnitude_lt (exponentPart x.toBits.toBitVec) (mantissaPart x.toBits.toBitVec)
  unfold toOrdinal
  rw [toNat_toBits]
  omega

/-- Finite numbers have finite ordinals. -/
theorem toOrdinal_lt {x : Float32} (h : x.isFinite = true) : toOrdinal x < single.infinity := by
  have hMantissa : (mantissaPart x.toBits.toBitVec).toNat < 2 ^ 23 :=
    (mantissaPart x.toBits.toBitVec).isLt
  have hExponent : (exponentPart x.toBits.toBitVec).toNat < 256 :=
    (exponentPart x.toBits.toBitVec).isLt
  have hGreatest : (exponentPart x.toBits.toBitVec).toNat ≠ 255 := fun hSame =>
    exponentPart_of_isFinite h (BitVec.eq_of_toNat_eq (by rw [hSame]; rfl))
  rw [toOrdinal_eq, show single.infinity = 255 * 2 ^ 23 from rfl]
  omega

/-- The bits of a magnitude are its ordinal. -/
theorem toBitVec_toOrdinal (x : Float32) :
    (toOrdinal x).toUInt32.toBitVec = ofParts .positive (exponentPart x.toBits.toBitVec)
      (mantissaPart x.toBits.toBitVec) := by
  have hMagnitude := magnitude_lt (exponentPart x.toBits.toBitVec) (mantissaPart x.toBits.toBitVec)
  refine BitVec.eq_of_toNat_eq ?_
  rw [toNat_ofParts, toOrdinal_eq, UInt32.toNat_toBitVec, Nat.toUInt32_eq, UInt32.toNat_ofNat',
    Nat.mod_eq_of_lt (by omega), show Sign.positive.toBitVec.toNat = 0 from rfl, Nat.zero_mul,
    Nat.zero_add]

/-- A finite number is that of its sign and its ordinal. -/
theorem ofOrdinal_toOrdinal {x : Float32} (h : x.isFinite = true) :
    ofOrdinal (signBit x) (toOrdinal x) = x := by
  have hFinite := exponentPart_of_isFinite h
  have hBits := toBitVec_toOrdinal x
  have hMagnitude : (Float32.ofBits (toOrdinal x).toUInt32).toBits.toBitVec = ofParts .positive
      (exponentPart x.toBits.toBitVec) (mantissaPart x.toBits.toBitVec) := by
    rw [toBits_ofBits, hBits]
    rwa [hBits, exponentPart_ofParts]
  refine toBits_injective (UInt32.toBitVec_inj.mp ?_)
  unfold ofOrdinal
  dsimp only
  cases hSign : signBit x with
  | true =>
      have hNegative := (signBit_iff x).mp hSign
      rw [if_pos rfl, toBits_neg (by rwa [hMagnitude, exponentPart_ofParts]), hMagnitude,
        signPart_ofParts, exponentPart_ofParts, mantissaPart_ofParts,
        show -Sign.positive = Sign.negative from rfl, ← hNegative, ofParts_parts]
  | false =>
      have hPositive : signPart x.toBits.toBitVec = .positive := by
        cases hPart : signPart x.toBits.toBitVec with
        | positive => rfl
        | negative =>
            rw [(signBit_iff x).mpr hPart] at hSign
            cases hSign
      rw [if_neg Bool.false_ne_true, hMagnitude, ← hPositive, ofParts_parts]

end PathTracer.Decimal
