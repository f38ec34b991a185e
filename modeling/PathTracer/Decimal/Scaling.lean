import PathTracer.Decimal.Literal

/-! Reading a literal by scaling. A coefficient of 64 bits is rounded to
binary64 and multiplied or divided there by a power of ten. Each step rounds,
so the outcome can be a neighbour of the nearest number. -/
namespace PathTracer.Decimal

namespace BinaryFormat

/-- The ordinal of the rounded product of two numbers with given ordinals. -/
def multiply (f : BinaryFormat) (a b : Nat) : Nat :=
  let (n, d) := (f.magnitude a).ratio
  let (m, e) := (f.magnitude b).ratio
  f.nearest (n * m) (d * e)

/-- The ordinal of the rounded quotient of two numbers with given ordinals. -/
def divide (f : BinaryFormat) (a b : Nat) : Nat :=
  let (n, d) := (f.magnitude a).ratio
  let (m, e) := (f.magnitude b).ratio
  f.nearest (n * e) (d * m)

/-- The ordinal of the power of ten with this exponent. -/
def powerOfTen (f : BinaryFormat) (exponent : Nat) : Nat :=
  f.nearest (Nat.pow 10 exponent) 1

end BinaryFormat

/-- The exponent of the greatest power of ten in binary64. -/
def greatestPower : Nat := 308

/-- Divide a number of binary64 by a power of ten. Powers beyond the greatest
one are divided by in parts, until nothing is left of the number. -/
def divideByTens (ordinal : Nat) (places : Nat) : Nat :=
  if ordinal = 0 then 0
  else if places ≤ greatestPower then double.divide ordinal (double.powerOfTen places)
  else
    divideByTens (double.divide ordinal (double.powerOfTen greatestPower)) (places - greatestPower)
termination_by places
decreasing_by simp only [greatestPower] at *; omega

/-- Multiply a number of binary64 by a power of ten, if it stays in range. -/
def multiplyByTens? (ordinal : Nat) (places : Nat) : Option Nat :=
  if ordinal = 0 then some 0
  else if greatestPower < places then none
  else
    let product := double.multiply ordinal (double.powerOfTen places)
    if product = double.infinity then none else some product

/-- The ordinal in binary64 of a literal that is read by scaling. -/
def Literal.scaled? (d : Literal) : Option Nat :=
  let coefficient := double.nearest d.digits 1
  match d.exponent with
  | .ofNat e => multiplyByTens? coefficient e
  | .negSucc e => some (divideByTens coefficient (e + 1))

/-- The number of a literal that is read by scaling, rounded once more to
binary32, under a sign. -/
def Literal.throughDouble? (negative : Bool) (d : Literal) : Option Float32 :=
  d.scaled?.map fun wide =>
    let (num, den) := (double.magnitude wide).ratio
    ofOrdinal negative (single.nearest num den)

/-- Coefficients lie below this. -/
def coefficientBound : Nat := 0x10000000000000000

/-- Append digits to a coefficient until one does not fit. The digits from
that one on are left. -/
def appendDigits (coefficient : Nat) : List Char → Nat × List Char
  | [] => (coefficient, [])
  | c :: rest =>
    let longer := coefficient * 10 + digitValue c
    if longer < coefficientBound then appendDigits longer rest else (coefficient, c :: rest)

/-- The literal of the digits that fit into a coefficient. The whole digits
that do not fit still count as places, and those of the fraction do not. -/
def fitted (whole fraction : List Char) (power : Int) : Literal :=
  let (coefficient, wholeLeft) := appendDigits 0 whole
  let (coefficient, fractionLeft) := appendDigits coefficient fraction
  ⟨coefficient, power + wholeLeft.length - (fraction.length - fractionLeft.length : Nat)⟩

end PathTracer.Decimal
