import PathTracer.Scalar

/-! Vectors of two, three and four components. Sums of products run from the
first component to the last, so that rounding has one order. -/
namespace PathTracer

structure Vec2 (α : Type) where
  x : α
  y : α
  deriving Repr, BEq, DecidableEq, Inhabited

structure Vec3 (α : Type) where
  x : α
  y : α
  z : α
  deriving Repr, BEq, DecidableEq, Inhabited

structure Vec4 (α : Type) where
  x : α
  y : α
  z : α
  w : α
  deriving Repr, BEq, DecidableEq, Inhabited

namespace Vec2

def splat {α : Type} (x : α) : Vec2 α := ⟨x, x⟩

def toList {α : Type} (v : Vec2 α) : List α := [v.x, v.y]

end Vec2

namespace Vec3

variable {α : Type}

def splat (x : α) : Vec3 α := ⟨x, x, x⟩

def toList (v : Vec3 α) : List α := [v.x, v.y, v.z]

def map {β : Type} (f : α → β) (v : Vec3 α) : Vec3 β := ⟨f v.x, f v.y, f v.z⟩

def zipWith {β γ : Type} (f : α → β → γ) (v : Vec3 α) (w : Vec3 β) : Vec3 γ :=
  ⟨f v.x w.x, f v.y w.y, f v.z w.z⟩

/-- The vector with a fourth component. -/
def extend (v : Vec3 α) (w : α) : Vec4 α := ⟨v.x, v.y, v.z, w⟩

variable [Scalar α]

instance : Add (Vec3 α) := ⟨zipWith (· + ·)⟩

instance : Sub (Vec3 α) := ⟨zipWith (· - ·)⟩

instance : Neg (Vec3 α) := ⟨map (-·)⟩

/-- Products of vectors are taken component by component. -/
instance : Mul (Vec3 α) := ⟨zipWith (· * ·)⟩

instance : HMul (Vec3 α) α (Vec3 α) := ⟨fun v s => v.map (· * s)⟩

instance : HDiv (Vec3 α) α (Vec3 α) := ⟨fun v s => v.map (· / s)⟩

def zero : Vec3 α := splat 0.0

def one : Vec3 α := splat 1.0

def axisX : Vec3 α := ⟨1.0, 0.0, 0.0⟩

def axisY : Vec3 α := ⟨0.0, 1.0, 0.0⟩

def axisZ : Vec3 α := ⟨0.0, 0.0, 1.0⟩

def dot (v w : Vec3 α) : α :=
  v.x * w.x + v.y * w.y + v.z * w.z

def cross (v w : Vec3 α) : Vec3 α :=
  ⟨v.y * w.z - w.y * v.z, v.z * w.x - w.z * v.x, v.x * w.y - w.x * v.y⟩

def lengthSquared (v : Vec3 α) : α :=
  v.dot v

def length (v : Vec3 α) : α :=
  Scalar.sqrt (v.dot v)

/-- The vector scaled by the reciprocal of its length, defined or not. -/
def normalize (v : Vec3 α) : Vec3 α :=
  v * (1.0 / v.length)

/-- The point at `t` on the way from `v` to `w`, as a weighted sum. -/
def lerp (v w : Vec3 α) (t : α) : Vec3 α :=
  v * (1.0 - t) + w * t

/-- The vector scaled to length one, unless its length has no usable reciprocal. -/
def normalize? (v : Vec3 α) : Option (Vec3 α) :=
  let r : α := 1.0 / v.length
  if Scalar.isFinite r && 0.0 < r then some (v * r) else none

/-- The vector scaled to length one, or zero. -/
def normalizeOrZero (v : Vec3 α) : Vec3 α :=
  v.normalize?.getD zero

/-- The greatest component. The later one is kept unless an earlier is greater. -/
def maxElement (v : Vec3 α) : α :=
  let greater (a b : α) : α := if b < a then a else b
  greater v.x (greater v.y v.z)

/-- The least component. The later one is kept unless an earlier is less. -/
def minElement (v : Vec3 α) : α :=
  let less (a b : α) : α := if a < b then a else b
  less v.x (less v.y v.z)

end Vec3

namespace Vec4

variable {α : Type}

def splat (x : α) : Vec4 α := ⟨x, x, x, x⟩

def toList (v : Vec4 α) : List α := [v.x, v.y, v.z, v.w]

/-- The first three components. -/
def truncate (v : Vec4 α) : Vec3 α := ⟨v.x, v.y, v.z⟩

end Vec4

end PathTracer
