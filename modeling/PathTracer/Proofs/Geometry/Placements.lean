import Mathlib
import PathTracer.Geometry.Placement

/-! Placements in exact arithmetic. A turn by an angle is undone by the turn by its opposite, so
that a ray in the space of an object runs where the ray in the world does. -/
namespace PathTracer

/-- Exact arithmetic: that of a field, with a sine and a cosine. -/
class ExactScalar (K : Type) extends Field K, Scalar K where
  sin_opposite (x : K) : sin (-x) = -sin x
  cos_opposite (x : K) : cos (-x) = cos x
  circle (x : K) : sin x * sin x + cos x * cos x = 1

section Exact

variable {K : Type} [ExactScalar K]

/-! ### Turns of a plane -/

theorem radians_neg (x : K) : Scalar.radians (-x) = -Scalar.radians x :=
  neg_mul x _

theorem sin_neg (x : K) : Scalar.sin (-x) = -Scalar.sin x :=
  ExactScalar.sin_opposite x

theorem cos_neg (x : K) : Scalar.cos (-x) = Scalar.cos x :=
  ExactScalar.cos_opposite x

theorem sin_mul_sin_add_cos_mul_cos (x : K) :
    Scalar.sin x * Scalar.sin x + Scalar.cos x * Scalar.cos x = 1 :=
  ExactScalar.circle x

variable (a b c d k degrees : K)

/-- A turn about one axis undoes the turn back. -/
theorem rotateAxis_rotateAxis_neg :
    rotateAxis (rotateAxis a b degrees).1 (rotateAxis a b degrees).2 (-degrees) = (a, b) := by
  have hCircle := sin_mul_sin_add_cos_mul_cos (Scalar.radians degrees)
  simp only [rotateAxis, radians_neg, sin_neg, cos_neg, Prod.mk.injEq]
  exact ⟨by linear_combination a * hCircle, by linear_combination b * hCircle⟩

/-- A turn back about one axis undoes the turn. -/
theorem rotateAxis_neg_rotateAxis :
    rotateAxis (rotateAxis a b (-degrees)).1 (rotateAxis a b (-degrees)).2 degrees = (a, b) := by
  have hUndone := rotateAxis_rotateAxis_neg a b (-degrees)
  rwa [neg_neg] at hUndone

/-- A turn keeps the products of two vectors of the plane. -/
theorem rotateAxis_dot :
    (rotateAxis a b degrees).1 * (rotateAxis c d degrees).1 +
      (rotateAxis a b degrees).2 * (rotateAxis c d degrees).2 = a * c + b * d := by
  have hCircle := sin_mul_sin_add_cos_mul_cos (Scalar.radians degrees)
  simp only [rotateAxis]
  linear_combination (a * c + b * d) * hCircle

/-- A turn about one axis is linear. -/
theorem rotateAxis_add_mul :
    rotateAxis (a + c * k) (b + d * k) degrees =
      ((rotateAxis a b degrees).1 + (rotateAxis c d degrees).1 * k,
        (rotateAxis a b degrees).2 + (rotateAxis c d degrees).2 * k) := by
  simp only [rotateAxis, Prod.mk.injEq]
  constructor <;> ring

/-! ### Rotations -/

variable (v w angles : Vec3 K)

/-- A rotation as three turns, each of what the one before has left. -/
theorem rotateEuler_eq : rotateEuler v angles =
    let first := rotateAxis v.y v.z angles.x
    let second := rotateAxis first.2 v.x angles.y
    let third := rotateAxis second.2 first.1 angles.z
    ⟨third.1, third.2, second.1⟩ :=
  rfl

theorem rotateEulerInv_eq : rotateEulerInv v angles =
    let third := rotateAxis v.x v.y (-angles.z)
    let second := rotateAxis v.z third.1 (-angles.y)
    let first := rotateAxis third.2 second.1 (-angles.x)
    ⟨second.2, first.1, first.2⟩ :=
  rfl

/-- The three turns are undone in the opposite order. -/
theorem rotateEulerInv_rotateEuler : rotateEulerInv (rotateEuler v angles) angles = v := by
  simp only [rotateEuler_eq, rotateEulerInv_eq, rotateAxis_rotateAxis_neg]

/-- Turning back and then turning leads back as well. -/
theorem rotateEuler_rotateEulerInv : rotateEuler (rotateEulerInv v angles) angles = v := by
  simp only [rotateEuler_eq, rotateEulerInv_eq, rotateAxis_neg_rotateAxis]

/-- Turning keeps products, and so lengths and angles. -/
theorem rotateEuler_dot : (rotateEuler v angles).dot (rotateEuler w angles) = v.dot w := by
  have hFirst := rotateAxis_dot v.y v.z w.y w.z angles.x
  have hSecond := rotateAxis_dot (rotateAxis v.y v.z angles.x).2 v.x
    (rotateAxis w.y w.z angles.x).2 w.x angles.y
  have hThird := rotateAxis_dot
    (rotateAxis (rotateAxis v.y v.z angles.x).2 v.x angles.y).2 (rotateAxis v.y v.z angles.x).1
    (rotateAxis (rotateAxis w.y w.z angles.x).2 w.x angles.y).2 (rotateAxis w.y w.z angles.x).1
    angles.z
  simp only [rotateEuler_eq, Vec3.dot]
  linear_combination hFirst + hSecond + hThird

/-- What a rotation keeps, undoing it keeps as well. -/
theorem rotateEulerInv_dot : (rotateEulerInv v angles).dot (rotateEulerInv w angles) = v.dot w := by
  have hTurned := rotateEuler_dot (rotateEulerInv v angles) (rotateEulerInv w angles) angles
  rw [rotateEuler_rotateEulerInv, rotateEuler_rotateEulerInv] at hTurned
  exact hTurned.symm

/-- Turning back is linear, so that points of a ray stay on one. -/
theorem rotateEulerInv_add_mul :
    rotateEulerInv (v + w * k) angles = rotateEulerInv v angles + rotateEulerInv w angles * k := by
  have hSum : v + w * k = ⟨v.x + w.x * k, v.y + w.y * k, v.z + w.z * k⟩ := rfl
  rw [hSum]
  simp only [rotateEulerInv_eq, rotateAxis_add_mul]
  rfl

/-! ### Rays -/

theorem Vec3.add_sub_cancel_mul (position : Vec3 K) :
    position + (v - position + w * k) = v + w * k := by
  have hComponent (p x y : K) : p + (x - p + y * k) = x + y * k := by ring
  show Vec3.mk (position.x + (v.x - position.x + w.x * k))
    (position.y + (v.y - position.y + w.y * k)) (position.z + (v.z - position.z + w.z * k)) = _
  rw [hComponent, hComponent, hComponent]
  rfl

theorem Vec3.div_add_mul_mul {scale : K} (h : scale ≠ 0) :
    (v / scale + w * k) * scale = v + w * (k * scale) := by
  have hComponent (x y : K) : (x / scale + y * k) * scale = x + y * (k * scale) := by
    rw [add_mul, div_mul_cancel₀ x h, mul_assoc]
  show Vec3.mk ((v.x / scale + w.x * k) * scale) ((v.y / scale + w.y * k) * scale)
    ((v.z / scale + w.z * k) * scale) = _
  rw [hComponent, hComponent, hComponent]
  rfl

/-- A point of a ray in an object's space stands in the world where the ray in the world is,
at its distance times the scale. The rotations undo each other and keep products. The laws
are those of an exact field with a sine and a cosine that satisfy the theorem of Pythagoras
and the symmetries, and nothing is said of rounding. Without a scale there is no way back.
-/
theorem Placement.toWorld_toLocal (p : Placement K) (origin direction : Vec3 K) (t : K) :
    (p.scale ≠ 0 →
      p.toWorld ((p.toLocal origin direction).1 + (p.toLocal origin direction).2 * t) =
        origin + direction * (t * p.scale)) ∧
    ∀ v angles : Vec3 K,
      rotateEulerInv (rotateEuler v angles) angles = v ∧
      rotateEuler (rotateEulerInv v angles) angles = v ∧
      ∀ w, (rotateEuler v angles).dot (rotateEuler w angles) = v.dot w ∧
        (rotateEulerInv v angles).dot (rotateEulerInv w angles) = v.dot w := by
  refine ⟨fun hScale => ?_, fun v angles => ⟨rotateEulerInv_rotateEuler v angles,
    rotateEuler_rotateEulerInv v angles, fun w => ⟨rotateEuler_dot v w angles,
      rotateEulerInv_dot v w angles⟩⟩⟩
  show p.position + rotateEuler
      ((rotateEulerInv (origin - p.position) p.rotation / p.scale +
        rotateEulerInv direction p.rotation * t) * p.scale) p.rotation =
    origin + direction * (t * p.scale)
  rw [Vec3.div_add_mul_mul _ _ _ hScale, ← rotateEulerInv_add_mul, rotateEuler_rotateEulerInv,
    Vec3.add_sub_cancel_mul]

end Exact

/-! ### The reals -/

section Reals

-- Only local, since the order and the equality test of a scalar are second ones on the reals.
/-- The real numbers, with the sine and the cosine of an angle. -/
noncomputable local instance exactReal : ExactScalar ℝ where
  decLt := Classical.decRel _
  decLe := Classical.decRel _
  beq x y := Classical.propDecidable (x = y) |>.decide
  abs x := |x|
  sqrt := Real.sqrt
  sin := Real.sin
  cos := Real.cos
  log := Real.log
  pow := Real.rpow
  isFinite _ := true
  sin_opposite := Real.sin_neg
  cos_opposite := Real.cos_neg
  circle x := by
    rw [← pow_two, ← pow_two]
    exact Real.sin_sq_add_cos_sq x

/-- An object that is turned about all axes, and a ray across it. -/
theorem Placement.toWorld_toLocal_turned :
    (2 : ℝ) ≠ 0 ∧
      (⟨⟨1, 2, 3⟩, ⟨30, 45, 60⟩, 2⟩ : Placement ℝ).toWorld
        (((⟨⟨1, 2, 3⟩, ⟨30, 45, 60⟩, 2⟩ : Placement ℝ).toLocal ⟨0, 0, -3⟩ ⟨0, 1, 1⟩).1 +
          ((⟨⟨1, 2, 3⟩, ⟨30, 45, 60⟩, 2⟩ : Placement ℝ).toLocal ⟨0, 0, -3⟩ ⟨0, 1, 1⟩).2 * (5 : ℝ)) =
        ⟨0, 10, 7⟩ := by
  refine ⟨two_ne_zero, ?_⟩
  rw [(Placement.toWorld_toLocal ⟨⟨1, 2, 3⟩, ⟨30, 45, 60⟩, 2⟩ ⟨0, 0, -3⟩ ⟨0, 1, 1⟩ 5).1 two_ne_zero]
  show Vec3.mk ((0 : ℝ) + 0 * (5 * 2)) (0 + 1 * (5 * 2)) (-3 + 1 * (5 * 2)) = _
  norm_num

end Reals

end PathTracer
