import Mathlib
import PathTracer.Proofs.Binary32.Rounding
import PathTracer.Proofs.Geometry.Candidates

/-! Signs and magnitudes of numbers and of their products. A result has the sign of the
exact one, and where the exact one reaches a power of two so does the result. -/
namespace PathTracer.Binary32

open Float.Model (Format UnpackedFloat totalExponent)
open Float.Model.UnpackedFloat (Sign Accuracy pack unpack roundWithAccuracy decreaseExponent)

/-! ### Order -/

/-- A number that is less is also not greater. Neither side is no number then. -/
theorem le_of_lt {a b : Float32} (h : a < b) : a ≤ b := by
  rw [lt_iff_place] at h
  rw [le_iff_place]
  grind

/-- Comparisons of floats chain, as they do not hold of what is no number. -/
theorem lt_of_le_of_lt {a b c : Float32} (h : a ≤ b) (hNext : b < c) : a < c := by
  rw [lt_iff_place] at *
  rw [le_iff_place] at h
  grind

/-- What is no number is below nothing. -/
theorem not_le_of_isNaN {a b : Float32} (h : a.isNaN = true) : ¬a ≤ b := by
  rw [le_iff_place, isNaN_iff_place.mp h]
  simp

/-- A number that is not at or below zero is above it. The premise is needed, since what is
no number is on neither side. -/
theorem pos_of_not_le {x : Float32} (hNumber : x.isNaN = false) (h : ¬x ≤ 0.0) : 0.0 < x := by
  have hZero : place? 0.0 = some (toLex (0, toLex (0, 0))) := rfl
  rw [le_iff_place, hZero] at h
  rw [lt_iff_place, hZero]
  cases hPlace : place? x with
  | none =>
      rw [isNaN_iff_place.mpr hPlace] at hNumber
      cases hNumber
  | some p => exact ⟨_, p, rfl, rfl, by grind⟩

/-- A number equals itself. -/
theorem beq_self {a : Float32} (h : a.isNaN = false) : (a == a) = true := by
  rw [beq_iff_place]
  cases hPlace : place? a with
  | none =>
      rw [isNaN_iff_place.mpr hPlace] at h
      cases h
  | some x => exact ⟨x, rfl, rfl⟩

/-- What something is less than is a number. -/
theorem isNaN_of_gt {a b : Float32} (h : a < b) : b.isNaN = false := by
  obtain ⟨_, x, _, hPlace, _⟩ := lt_iff_place.mp h
  rw [← Bool.not_eq_true, isNaN_iff_place, hPlace]
  exact Option.some_ne_none x

/-! ### Magnitudes -/

/-- Whether a number has a sign and a magnitude of at least half of `2 ^ k`. -/
def Reaches (s : Sign) (k : Int) : UnpackedFloat → Prop
  | .infinity t => t = s
  | .finite t m e _ => t = s ∧ k ≤ totalExponent m e
  | _ => False

variable {s t : Sign} {k l : Int}

/-- What reaches a magnitude reaches every smaller one. -/
theorem Reaches.mono {x : UnpackedFloat} (h : Reaches s k x) (hLess : l ≤ k) : Reaches s l x := by
  rcases x with _ | _ | _ | _
  · exact h
  · exact h
  · exact h
  · exact ⟨h.1, hLess.trans h.2⟩

/-- Overflow does not take a number below a magnitude it had. -/
theorem Reaches.kept {x : UnpackedFloat} (h : Reaches s k x) : Reaches s k (kept x) := by
  rcases x with _ | _ | _ | ⟨_, _, e, _⟩
  · exact h
  · exact h
  · exact h
  · by_cases hHigh : e ≤ 104
    · rw [Binary32.kept, if_pos hHigh]
      exact h
    · rw [Binary32.kept, if_neg hHigh]
      exact h.1

/-- Rounding does not take a significand below half of the power of two under it. -/
theorem Reaches.roundWithAccuracy {m : Nat} {e : Int} (hPos : 0 < m)
    (hShift : e ≤ Format.binary32.targetExponent (totalExponent m e)) (accuracy : Accuracy)
    (hLeast : -148 ≤ k) (hReach : k ≤ totalExponent m e) :
    Reaches s k (roundWithAccuracy .binary32 s m e accuracy) := by
  rcases roundWithAccuracy_cases hPos hShift s accuracy with ⟨_, hBelow⟩ | ⟨r, f, _, hFinite, hMore⟩
  · omega
  · rw [hFinite]
    exact ⟨rfl, hReach.trans hMore⟩

/-- What is in memory has its form. -/
theorem rounded_unpack (x : Float32) : Rounded x.toModel.unpack := by
  cases hUnpack : x.toModel.unpack with
  | finite s m e hPos => exact (canonical_of_unpack hUnpack).1
  | _ => exact trivial

/-- A float is above zero exactly if it is positive with the least magnitude that a float
can have. -/
theorem pos_iff_reaches {x : Float32} : 0.0 < x ↔ Reaches .positive (-148) x.toModel.unpack := by
  have hZero : place? 0.0 = some (toLex (0, toLex (0, 0))) := rfl
  have hRounded := rounded_unpack x
  rw [lt_iff_place, hZero, place?]
  generalize x.toModel.unpack = u at *
  rcases u with (_ | _) | _ | _ | ⟨_ | _, m, e, hPos⟩
  all_goals simp [placeOf, Reaches, Prod.Lex.toLex_lt_toLex]
  exact Canonical.le_totalExponent hRounded

/-- A float is below zero exactly if it is negative with the least magnitude that a float
can have. -/
theorem neg_iff_reaches {x : Float32} : x < 0.0 ↔ Reaches .negative (-148) x.toModel.unpack := by
  have hZero : place? 0.0 = some (toLex (0, toLex (0, 0))) := rfl
  have hRounded := rounded_unpack x
  rw [lt_iff_place, hZero, place?]
  generalize x.toModel.unpack = u at *
  rcases u with (_ | _) | _ | _ | ⟨_ | _, m, e, hPos⟩
  all_goals simp [placeOf, Reaches, Prod.Lex.toLex_lt_toLex]
  exact Canonical.le_totalExponent hRounded

/-- A float is at least one exactly if its magnitude is. -/
theorem one_le_iff_reaches {x : Float32} : 1.0 ≤ x ↔ Reaches .positive 1 x.toModel.unpack := by
  have hOne : place? 1.0 = some (toLex (1, toLex (-23, 2 ^ 23))) := rfl
  have hRounded := rounded_unpack x
  rw [le_iff_place, hOne, place?]
  generalize x.toModel.unpack = u at *
  rcases u with (_ | _) | _ | _ | ⟨_ | _, m, e, hPos⟩
  all_goals simp [placeOf, Reaches, Prod.Lex.toLex_le_toLex]
  have hCanonical : Canonical m e := hRounded
  have hFits := hCanonical.fits
  have hFull := hCanonical.full
  have hLog : m.log2 < 24 := (Nat.log2_lt hPos.ne').mpr hFits
  unfold totalExponent
  constructor
  · intro h
    have hTop : 23 ≤ m.log2 := (Nat.le_log2 hPos.ne').mpr (by omega)
    omega
  · intro h
    omega

/-- What reaches a magnitude has its sign among its bits. -/
theorem signPart_of_reaches {b : BitVec 32} (h : Reaches s k (unpack .binary32 b)) :
    signPart b = s := by
  unfold unpack at h
  dsimp only at h
  split at h
  · split at h
    · exact h
    · cases h
  · split at h
    · split at h
      · cases h
      · exact h.1
    · exact h.1

/-- Numbers below zero have the sign bit. -/
theorem signBit_of_neg {x : Float32} (h : x < 0.0) : signBit x = true :=
  (signBit_iff x).mpr (signPart_of_reaches (neg_iff_reaches.mp h))

/-- Numbers above zero do not have the sign bit. -/
theorem signBit_of_pos {x : Float32} (h : 0.0 < x) : signBit x = false := by
  have hSign : signPart x.toBits.toBitVec = .positive := signPart_of_reaches (pos_iff_reaches.mp h)
  rw [← Bool.not_eq_true, signBit_iff, hSign]
  exact nofun

/-! ### Products -/

/-- A product of significands has at least as many digits as both together, but for one. -/
theorem Canonical.log2_mul {m n : Nat} {e f : Int} (h : Canonical m e) (hOther : Canonical n f) :
    m.log2 + n.log2 ≤ (m * n).log2 := by
  refine (Nat.le_log2 (Nat.mul_pos h.pos hOther.pos).ne').mpr ?_
  rw [pow_add]
  exact Nat.mul_le_mul (Nat.log2_self_le h.pos.ne') (Nat.log2_self_le hOther.pos.ne')

/-- A product of mantissas has bits enough. -/
theorem Canonical.mul_shift {m n : Nat} {e f : Int} (h : Canonical m e) (hOther : Canonical n f) :
    e + f ≤ Format.binary32.targetExponent (totalExponent (m * n) (e + f)) := by
  have hBits := h.log2_mul hOther
  rw [targetExponent_eq, totalExponent]
  rcases h.full with hFull | hFull
  · have hTop : 23 ≤ m.log2 := (Nat.le_log2 h.pos.ne').mpr hFull
    omega
  · rcases hOther.full with hFull | hFull
    · have hTop : 23 ≤ n.log2 := (Nat.le_log2 hOther.pos.ne').mpr hFull
      omega
    · omega

/-- A product is rounded to the precision of floats, whatever its operands are. -/
theorem rounded_mul {x y : UnpackedFloat} (hx : Rounded x) (hy : Rounded y) :
    Rounded (x.mul .binary32 y) := by
  rcases x with _ | _ | _ | ⟨_, m, e, hm⟩ <;> rcases y with _ | _ | _ | ⟨_, n, f, hn⟩
  all_goals try exact trivial
  exact rounded_roundWithAccuracy (Nat.mul_pos hm hn) (Canonical.mul_shift hx hy) _ _

/-- The product of two floats is that of their parts, kept if it does not overflow. -/
theorem unpack_mul (a b : Float32) :
    (a * b).toModel.unpack =
      kept (UnpackedFloat.mul .binary32 a.toModel.unpack b.toModel.unpack) :=
  unpack_pack (rounded_mul (rounded_unpack a) (rounded_unpack b))

/-- Magnitudes multiply, up to a factor of two, as long as the product is not lost below the
least float. -/
theorem Reaches.mul {x y : UnpackedFloat} (hx : Rounded x) (hy : Rounded y) (h : Reaches s k x)
    (hOther : Reaches t l y) (hLeast : -147 ≤ k + l) :
    Reaches (s * t) (k + l - 1) (x.mul .binary32 y) := by
  rcases x with _ | _ | _ | ⟨_, m, e, hm⟩ <;> rcases y with _ | _ | _ | ⟨_, n, f, hn⟩
  all_goals simp only [Reaches] at h hOther
  · rw [h, hOther]
    rfl
  · rw [h, hOther.1]
    rfl
  · rw [h.1, hOther]
    rfl
  · rw [h.1, hOther.1]
    have hBits := Canonical.log2_mul hx hy
    have hFirst := h.2
    have hSecond := hOther.2
    refine Reaches.roundWithAccuracy (Nat.mul_pos hm hn) (Canonical.mul_shift hx hy) _
      (by omega) ?_
    unfold totalExponent at *
    omega

/-- Magnitudes of products, where they are not too small to be numbers. -/
theorem reaches_mul {a b : Float32} (ha : Reaches s k a.toModel.unpack)
    (hb : Reaches t l b.toModel.unpack) (hLeast : -147 ≤ k + l) :
    Reaches (s * t) (k + l - 1) (a * b).toModel.unpack := by
  rw [unpack_mul]
  exact (Reaches.mul (rounded_unpack a) (rounded_unpack b) ha hb hLeast).kept

/-- What is made greater by one or more stays above zero. -/
theorem mul_pos_of_one_le {a b : Float32} (ha : 0.0 < a) (hb : 1.0 ≤ b) : 0.0 < a * b :=
  pos_iff_reaches.mpr (reaches_mul (pos_iff_reaches.mp ha) (one_le_iff_reaches.mp hb) (by decide))

/-- Numbers from one on have a product from one on, after rounding too. -/
theorem one_le_mul {a b : Float32} (ha : 1.0 ≤ a) (hb : 1.0 ≤ b) : 1.0 ≤ a * b :=
  one_le_iff_reaches.mpr
    (reaches_mul (one_le_iff_reaches.mp ha) (one_le_iff_reaches.mp hb) (by decide))

/-! ### Numbers that are not negative -/

/-- Whether a number is not below zero, which what is not a number never is. -/
def NotBelow : UnpackedFloat → Prop
  | .infinity s => s = .positive
  | .finite s _ _ _ => s = .positive
  | _ => True

/-- A float is not less than zero exactly if its parts are not below zero. What is no number
is among them. -/
theorem not_neg_iff {x : Float32} : ¬x < 0.0 ↔ NotBelow x.toModel.unpack := by
  have hRounded := rounded_unpack x
  rw [neg_iff_reaches]
  generalize x.toModel.unpack = u at *
  rcases u with (_ | _) | _ | _ | ⟨_ | _, m, e, hPos⟩
  all_goals simp [Reaches, NotBelow]
  exact Canonical.le_totalExponent hRounded

/-- Overflow does not change a sign. -/
theorem NotBelow.kept {x : UnpackedFloat} (h : NotBelow x) : NotBelow (kept x) := by
  rcases x with _ | _ | _ | ⟨_, _, e, _⟩
  · exact h
  · exact h
  · exact h
  · by_cases hHigh : e ≤ 104
    · rw [Binary32.kept, if_pos hHigh]
      exact h
    · rw [Binary32.kept, if_neg hHigh]
      exact h

/-- A product of what is not below zero is not below zero. Zero times infinity is no number,
and so not below zero either. -/
theorem NotBelow.mul {x y : UnpackedFloat} (hx : Rounded x) (hy : Rounded y) (h : NotBelow x)
    (hOther : NotBelow y) : NotBelow (x.mul .binary32 y) := by
  rcases x with s | _ | _ | ⟨s, m, e, hm⟩ <;> rcases y with t | _ | _ | ⟨t, n, f, hn⟩
  all_goals simp only [NotBelow] at h hOther
  all_goals simp only [UnpackedFloat.mul, NotBelow, h, hOther]
  any_goals rfl
  rcases roundWithAccuracy_cases (Nat.mul_pos hm hn) (Canonical.mul_shift hx hy)
    (.positive * .positive) .exact with ⟨hZero, _⟩ | ⟨r, g, _, hFinite, _⟩
  · rw [hZero]
    exact trivial
  · rw [hFinite]
    rfl

/-- The product of numbers that are not below zero is not below zero. -/
theorem not_neg_mul {a b : Float32} (ha : ¬a < 0.0) (hb : ¬b < 0.0) : ¬a * b < 0.0 := by
  rw [not_neg_iff] at *
  rw [unpack_mul]
  exact (NotBelow.mul (rounded_unpack a) (rounded_unpack b) ha hb).kept

/-! ### Results that are no numbers -/

/-- Overflow makes infinities and never what is no number. -/
theorem isNaN_kept (x : UnpackedFloat) : (kept x).isNaN = x.isNaN := by
  rcases x with _ | _ | _ | ⟨_, _, e, _⟩
  · rfl
  · rfl
  · rfl
  · by_cases hHigh : e ≤ 104
    · rw [kept, if_pos hHigh]
    · rw [kept, if_neg hHigh]
      rfl

/-- A rounded number is a number. -/
theorem isNaN_roundWithAccuracy {m : Nat} {e : Int} (s : Sign) (accuracy : Accuracy) :
    (roundWithAccuracy .binary32 s m e accuracy).isNaN = false := by
  unfold roundWithAccuracy
  dsimp only
  split <;> rfl

/-- Both zeros equal zero, and nothing else does. -/
theorem beq_zero_iff {a : Float32} : (a == 0.0) = true ↔ ∃ s, a.toModel.unpack = .zero s := by
  have hZero : place? 0.0 = some (toLex (0, toLex (0, 0))) := rfl
  rw [beq_iff_place, hZero, place?]
  rcases a.toModel.unpack with (_ | _) | _ | _ | ⟨_ | _, _, _, _⟩ <;> simp [placeOf]

/-- A product with what is no number is none. -/
theorem isNaN_mul_left {a b : Float32} (h : a.isNaN = true) : (a * b).isNaN = true := by
  change a.toModel.unpack.isNaN = true at h
  change (a * b).toModel.unpack.isNaN = true
  rw [unpack_mul, isNaN_kept]
  generalize a.toModel.unpack = x at *
  cases x with
  | notANumber => rfl
  | _ => cases h

/-- With a factor that is not zero a product is no number only as a zero times an
infinity. -/
theorem isNaN_mul_iff {a b : Float32} (ha : a.isNaN = false)
    (hb : Reaches s k b.toModel.unpack) :
    (a * b).isNaN = true ↔ (a == 0.0) = true ∧ b.isInf = true := by
  change a.toModel.unpack.isNaN = false at ha
  change (a * b).toModel.unpack.isNaN = true ↔ (a == 0.0) = true ∧ b.toModel.unpack.isInf = true
  rw [unpack_mul, isNaN_kept, beq_zero_iff]
  generalize a.toModel.unpack = x at *
  generalize b.toModel.unpack = y at *
  rcases x with _ | _ | _ | _ <;> rcases y with _ | _ | _ | _
  all_goals simp_all [UnpackedFloat.mul, UnpackedFloat.isNaN, UnpackedFloat.isInf, Reaches]
  exact isNaN_roundWithAccuracy _ _

/-- A product with an infinity is not finite. -/
theorem isFinite_mul_of_isInf {a b : Float32} (hb : b.isInf = true) :
    (a * b).isFinite = false := by
  change b.toModel.unpack.isInf = true at hb
  change (a * b).toModel.unpack.isFinite = false
  rw [unpack_mul]
  generalize a.toModel.unpack = x at *
  generalize b.toModel.unpack = y at *
  rcases y with _ | _ | _ | _
  · rcases x with _ | _ | _ | _ <;> rfl
  all_goals cases hb

/-- What equals a finite number is finite. -/
theorem isFinite_of_beq {a b : Float32} (h : (a == b) = true) (hb : b.isFinite = true) :
    a.isFinite = true := by
  obtain ⟨p, hFirst, hSecond⟩ := beq_iff_place.mp h
  change b.toModel.unpack.isFinite = true at hb
  change a.toModel.unpack.isFinite = true
  unfold place? at hFirst hSecond
  generalize a.toModel.unpack = x at *
  generalize b.toModel.unpack = y at *
  rcases y with _ | _ | _ | ⟨_ | _, _, _, _⟩
  · cases hb
  · cases hb
  all_goals
    obtain rfl := Option.some.inj hSecond
    rcases x with (_ | _) | _ | _ | ⟨_ | _, _, _, _⟩
    all_goals first | rfl | simp [placeOf] at hFirst

end PathTracer.Binary32
