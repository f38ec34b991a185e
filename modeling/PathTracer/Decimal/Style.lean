import PathTracer.Binary32
import PathTracer.Decimal.Shortest

/-! How a number is spelled once its digits are chosen. -/
namespace PathTracer.Decimal

/-- The decisions of a written form. Scientific exponents in `plain` are
written positionally; without bounds all are. -/
structure Style where
  plain : Option (Int × Int)
  /-- The choice between equally near digits. -/
  tie : Tie
  /-- A whole number keeps a point and a zero. -/
  keepsPoint : Bool
  /-- A positive exponent has a plus sign. -/
  signsExponent : Bool

/-- Zero, and magnitudes from a ten-thousandth up to ten quadrillion, are
written positionally, with at least one digit after the point. -/
def Style.debug : Style := ⟨some (-4, 15), .above, true, false⟩

/-- Always positional, and a whole number stands without a point. -/
def Style.display : Style := ⟨none, .above, false, false⟩

/-- The form of settings files: zero, and magnitudes from a millionth up to
ten trillion, are written positionally. -/
def Style.settings : Style := ⟨some (-6, 12), .even, true, true⟩

/-- The digits of a whole number. -/
def digitsOf (n : Nat) : List Char :=
  Nat.toDigits 10 n

/-- Positional form of `digits * 10 ^ exponent`. -/
def positional (s : Style) (digits : List Char) (exponent : Int) : List Char :=
  if 0 ≤ exponent then
    digits ++ List.replicate exponent.toNat '0' ++ (if s.keepsPoint then ['.', '0'] else [])
  else
    let places := (-exponent).toNat
    if places < digits.length then
      digits.take (digits.length - places) ++ '.' :: digits.drop (digits.length - places)
    else
      '0' :: '.' :: (List.replicate (places - digits.length) '0' ++ digits)

/-- Exponent form: one digit, the others after a point, and the power of ten. -/
def scientific (s : Style) (digits : List Char) (order : Int) : List Char :=
  let significand := match digits with
    | first :: second :: more => first :: '.' :: second :: more
    | other => other
  let power := if order < 0 then '-' :: digitsOf order.natAbs
    else (if s.signsExponent then ['+'] else []) ++ digitsOf order.natAbs
  significand ++ 'e' :: power

/-- The literal in a style. -/
def spellLiteral (s : Style) (d : Literal) : List Char :=
  let digits := digitsOf d.digits
  let order := d.exponent + (digits.length - 1 : Nat)
  match s.plain with
  | none => positional s digits d.exponent
  | some (least, greatest) =>
    if d.digits = 0 || (decide (least ≤ order) && decide (order ≤ greatest)) then
      positional s digits d.exponent
    else scientific s digits order

/-- Write a number in a style. -/
def spell (s : Style) (x : Float32) : String :=
  if x.isNaN then "NaN"
  else
    let sign := if Binary32.signBit x then ['-'] else []
    let body := if x.isInf then ['i', 'n', 'f']
      else if toOrdinal x = 0 then spellLiteral s ⟨0, 0⟩
      else spellLiteral s (shortest s.tie (toOrdinal x))
    String.ofList (sign ++ body)

end PathTracer.Decimal
