import PathTracer.Binary32

/-! The arithmetic that vectors, rotations and the scattering functions are
written over. Programs run at `Float32`. The class carries no laws, so that
rounding arithmetic is an instance of it as well as an exact field. -/
namespace PathTracer

/-- Numbers with the operations of a shading language. -/
class Scalar (α : Type) extends Add α, Sub α, Mul α, Div α, Neg α, OfScientific α,
    LT α, LE α, BEq α where
  decLt : DecidableRel (α := α) (· < ·)
  decLe : DecidableRel (α := α) (· ≤ ·)
  abs : α → α
  sqrt : α → α
  sin : α → α
  cos : α → α
  log : α → α
  pow : α → α → α
  /-- Neither undefined nor infinite. -/
  isFinite : α → Bool

namespace Scalar

variable {α : Type} [Scalar α]

instance (x y : α) : Decidable (x < y) := decLt x y

instance (x y : α) : Decidable (x ≤ y) := decLe x y

instance : Inhabited α := ⟨0.0⟩

/-- Only an undefined number differs from itself. -/
def isNaN (x : α) : Bool :=
  !(x == x)

/-- The greater number. Of equal numbers it is the second, and an undefined
one loses against any other. -/
def max (x y : α) : α :=
  if isNaN y then x else if y < x then x else y

/-- The lesser number, with the same choice among equal and undefined ones. -/
def min (x y : α) : α :=
  if isNaN y then x else if x < y then x else y

/-- The nearest number between two bounds. An undefined number stays. -/
def clamp (x lo hi : α) : α :=
  let raised := if x < lo then lo else x
  if hi < raised then hi else raised

/-- The nearest number between zero and one. -/
def saturate (x : α) : α :=
  clamp x 0.0 1.0

/-- The cubic that leaves 0 at 0 and reaches 1 at 1 with flat ends. -/
def smoothUnit (t : α) : α :=
  t * t * (3.0 - 2.0 * t)

/-- The number on the way from `a` to `b`, as an offset from `a`. -/
def mix (a b t : α) : α :=
  a + (b - a) * t

def pi : α := 3.1415927

def tau : α := 6.2831855

/-- The reciprocal of pi. -/
def invPi : α := 0.31830987

/-- The number of radians in `x` degrees. The factor is the quotient of pi
and 180, each rounded to binary32. -/
def radians (x : α) : α :=
  x * 0.017453292

end Scalar

instance : Scalar Float32 where
  decLt := inferInstanceAs (∀ x y : Float32, Decidable (x < y))
  decLe := inferInstanceAs (∀ x y : Float32, Decidable (x ≤ y))
  abs := Float32.abs
  sqrt := Float32.sqrt
  sin := Float32.sin
  cos := Float32.cos
  log := Float32.log
  pow := Float32.pow
  isFinite := Float32.isFinite

end PathTracer
