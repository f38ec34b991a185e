import PathTracer.Decimal.Rounding

/-! Decimal literals: their value and their reading. -/
namespace PathTracer.Decimal

/-- The number `digits * 10 ^ exponent`. -/
structure Literal where
  digits : Nat
  exponent : Int
  deriving Repr, DecidableEq

namespace Literal

/-- The value as a ratio of whole numbers. -/
def ratio (d : Literal) : Nat × Nat :=
  match d.exponent with
  | .ofNat e => (d.digits * Nat.pow 10 e, 1)
  | .negSucc e => (d.digits, Nat.pow 10 (e + 1))

/-- Decimal exponents beyond this lie outside every format in use. -/
def reach : Nat := 400

/-- The nearest ordinal of a format. Literals far outside the range of the
format are settled by their exponent, without computing the power of ten. -/
def nearest (f : BinaryFormat) (d : Literal) : Nat :=
  if d.digits = 0 then 0
  else if (reach : Int) < d.exponent then f.infinity
  else if d.exponent + (Nat.log2 d.digits + 1 : Nat) < -(reach : Int) then 0
  else
    let (num, den) := d.ratio
    f.nearest num den

/-- The nearest binary32 number, infinity when the literal is too large. -/
def toSingle (d : Literal) : Float32 :=
  ofOrdinal false (d.nearest single)

end Literal

/-- The value of an ASCII digit. -/
def digitValue (c : Char) : Nat :=
  c.toNat - '0'.toNat

/-- The whole number that a run of digits writes, after those read before. -/
def digitsValue (digits : List Char) (before : Nat) : Nat :=
  digits.foldl (fun value c => value * 10 + digitValue c) before

/-- The exponent after `e`: an optional sign and at least one digit. -/
def exponent? (text : List Char) : Option Int :=
  let (negative, digits) := match text with
    | '-' :: rest => (true, rest)
    | '+' :: rest => (false, rest)
    | rest => (false, rest)
  if digits.isEmpty || !digits.all Char.isDigit then none
  else
    let value := digitsValue digits 0
    some (if negative then -(value : Int) else value)

/-- Read digits with an optional fraction and an optional exponent. Either
side of the point may be empty, but not both. -/
def literal? (text : List Char) : Option Literal :=
  let whole := text.takeWhile Char.isDigit
  let afterWhole := text.dropWhile Char.isDigit
  let (fraction, rest) := match afterWhole with
    | '.' :: more => (more.takeWhile Char.isDigit, more.dropWhile Char.isDigit)
    | other => ([], other)
  if whole.isEmpty && fraction.isEmpty then none
  else
    let digits := digitsValue fraction (digitsValue whole 0)
    match rest with
    | [] => some ⟨digits, -(fraction.length : Int)⟩
    | c :: power =>
      if c = 'e' || c = 'E' then
        (exponent? power).map fun e => ⟨digits, e - fraction.length⟩
      else none

end PathTracer.Decimal
