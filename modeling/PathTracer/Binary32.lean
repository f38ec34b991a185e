/-! Operations on binary32 numbers that core leaves without a logical model,
given here through bit patterns and the conversions that have one. Every
function is exact: no result is rounded except where its comment says so. -/
namespace PathTracer.Binary32

/-- The sign bit, which also tells the two zeros apart. -/
def signBit (x : Float32) : Bool :=
  0x80000000 ≤ x.toBits

/-- The magnitude of `x` under the sign of `sign`. -/
def copySign (x sign : Float32) : Float32 :=
  if signBit sign then -x.abs else x.abs

/-- From here on every finite number is a whole number. -/
def wholeFrom : Float32 := 8388608.0

/-- The whole part of a magnitude below `wholeFrom`. -/
def wholePart (x : Float32) : Float32 :=
  x.abs.toUInt32.toFloat32

/-- The greatest whole number not above `x`. A zero keeps its sign, and
infinities and NaN are their own floor. -/
def floor (x : Float32) : Float32 :=
  if x.abs < wholeFrom then
    if signBit x then
      if wholePart x == x.abs then x else -(wholePart x + 1.0)
    else wholePart x
  else x

/-- The nearest whole number. A half goes away from zero. -/
def round (x : Float32) : Float32 :=
  if x.abs < wholeFrom then
    let whole := wholePart x
    copySign (if x.abs - whole < 0.5 then whole else whole + 1.0) x
  else x

/-- The whole part as a signed 32-bit number, held to that range. NaN gives 0. -/
def toInt32 (x : Float32) : Int :=
  if x < 0.0 then -(min x.abs.toUInt32.toNat 0x80000000 : Nat)
  else (min x.toUInt32.toNat 0x7fffffff : Nat)

/-- The whole part as a natural number of 32 bits, held to that range. NaN
and negative numbers give 0. -/
def toNat32 (x : Float32) : Nat :=
  x.toUInt32.toNat

/-- The whole part as a natural number of 64 bits, held to that range. -/
def toNat64 (x : Float32) : Nat :=
  x.toUInt64.toNat

/-- One under the sign bit of `x`, also for a zero. NaN stays NaN. -/
def signum (x : Float32) : Float32 :=
  if x.isNaN then x else copySign 1.0 x

/-- The place of a number in the total order, read off its bits: negative before
positive, `-0.0` before `0.0`, infinities outside the finite numbers and NaNs
outside the infinities. It is taken of the bits and not of the number because a
`Float32` does not keep the sign and the payload of a NaN. -/
def totalKey (bits : UInt32) : Int :=
  if 0x80000000 ≤ bits.toNat then 0x7fffffff - bits.toNat else bits.toNat

end PathTracer.Binary32
