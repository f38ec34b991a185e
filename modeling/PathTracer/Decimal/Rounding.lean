/-! Rounding of exact ratios to a binary floating-point format. Positive
numbers of a format are counted in order: ordinal 0 is zero, and the ordinal
of a number is also its bit pattern without the sign. -/
namespace PathTracer.Decimal

/-- A binary interchange format: significands below `2 ^ precision`, in units
of `2 ^ exponent` for exponents from `least` on, and `infinity` as the ordinal
that follows the greatest finite number. -/
structure BinaryFormat where
  precision : Nat
  least : Int
  infinity : Nat

/-- The format of 32 bits. -/
def single : BinaryFormat := ⟨24, -149, 0x7f800000⟩

/-- The format of 64 bits. -/
def double : BinaryFormat := ⟨53, -1074, 0x7ff0000000000000⟩

/-- A magnitude `significand * 2 ^ exponent`. -/
structure Dyadic where
  significand : Nat
  exponent : Int
  deriving Repr, DecidableEq

/-- The quotient rounded to the nearest whole number, a half to the even one. -/
def roundHalfEven (num den : Nat) : Nat :=
  let quotient := num / den
  let rest := num % den
  if 2 * rest < den then quotient
  else if den < 2 * rest then quotient + 1
  else quotient + quotient % 2

/-- `num / den` in units of `2 ^ exponent`, as a ratio of whole numbers. -/
def inUnits (num den : Nat) (exponent : Int) : Nat × Nat :=
  match exponent with
  | .ofNat e => (num, den * Nat.pow 2 e)
  | .negSucc e => (num * Nat.pow 2 (e + 1), den)

/-- The exponent of the greatest power of two not above `num / den`. -/
def binaryOrder (num den : Nat) : Int :=
  let guess : Int := (Nat.log2 num : Int) - Nat.log2 den
  let (n, d) := inUnits num den guess
  if d ≤ n then guess else guess - 1

namespace BinaryFormat

/-- Exponent of the units in which `num / den` is rounded. -/
def unitExponent (f : BinaryFormat) (num den : Nat) : Int :=
  max f.least (binaryOrder num den - (f.precision - 1 : Nat))

/-- The ordinal of a magnitude whose significand is normal, or subnormal at
the least exponent. A significand of `2 ^ precision` counts as the next
exponent's least one. -/
def ordinal (f : BinaryFormat) (d : Dyadic) : Nat :=
  (d.exponent - f.least).toNat * Nat.pow 2 (f.precision - 1) + d.significand

/-- The magnitude with a given finite ordinal. -/
def magnitude (f : BinaryFormat) (ordinal : Nat) : Dyadic :=
  let half := Nat.pow 2 (f.precision - 1)
  if ordinal < half then ⟨ordinal, f.least⟩
  else ⟨half + ordinal % half, f.least + (ordinal / half - 1 : Nat)⟩

/-- The ordinal nearest to `num / den`, halves to the even significand, and
infinity for all that rounds beyond the greatest finite number. -/
def nearest (f : BinaryFormat) (num den : Nat) : Nat :=
  if num = 0 then 0
  else
    let exponent := f.unitExponent num den
    let (n, d) := inUnits num den exponent
    min f.infinity (f.ordinal ⟨roundHalfEven n d, exponent⟩)

end BinaryFormat

/-- The magnitude as a ratio of whole numbers. -/
def Dyadic.ratio (d : Dyadic) : Nat × Nat :=
  match d.exponent with
  | .ofNat e => (d.significand * Nat.pow 2 e, 1)
  | .negSucc e => (d.significand, Nat.pow 2 (e + 1))

/-- The binary32 number with a given sign and ordinal. -/
def ofOrdinal (negative : Bool) (ordinal : Nat) : Float32 :=
  let magnitude := Float32.ofBits ordinal.toUInt32
  if negative then -magnitude else magnitude

/-- The ordinal of the magnitude of a number. -/
def toOrdinal (x : Float32) : Nat :=
  x.toBits.toNat % 0x80000000

end PathTracer.Decimal
