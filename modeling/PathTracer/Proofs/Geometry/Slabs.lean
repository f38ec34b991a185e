import Mathlib
import PathTracer.Proofs.Binary32.Quotient

/-! Where a ray meets a box. The box is what three slabs have in common, and the ray
is in a slab between the planes that it crosses along one axis. A ray in the upper
plane of the last axis crosses it at no number, and this is where the test fails. -/
namespace PathTracer

inductive Axis where
  | x
  | y
  | z
  deriving DecidableEq

/-- The component along an axis. -/
def Vec3.coord (v : Vec3 Float32) : Axis → Float32
  | .x => v.x
  | .y => v.y
  | .z => v.z

namespace Binary32

/-- The smaller of two distances is no number exactly if the second is none. This is not
symmetric: the second one is kept where the comparison fails. -/
theorem isNaN_lesser (a b : Float32) : (Box.lesser a b).isNaN = b.isNaN := by
  unfold Box.lesser
  split
  · rename_i hLess
    rw [isNaN_of_lt hLess, isNaN_of_gt hLess]
  · rfl

/-- The greater of two distances is no number exactly if the second is none. -/
theorem isNaN_greater (a b : Float32) : (Box.greater a b).isNaN = b.isNaN := by
  unfold Box.greater
  split
  · rename_i hLess
    rw [isNaN_of_gt hLess, isNaN_of_lt hLess]
  · rfl

/-- A positive component has the sign one. -/
theorem signum_of_pos {x : Float32} (h : 0.0 < x) : signum x = 1.0 := by
  have hOne : (1.0 : Float32).abs = 1.0 := by decide
  rw [signum, isNaN_of_gt h, if_neg Bool.false_ne_true, copySign, signBit_of_pos h,
    if_neg Bool.false_ne_true, hOne]

/-- A negative component has the sign minus one. -/
theorem signum_of_neg {x : Float32} (h : x < 0.0) : signum x = -1.0 := by
  have hOne : (1.0 : Float32).abs = 1.0 := by decide
  rw [signum, isNaN_of_lt h, if_neg Bool.false_ne_true, copySign, signBit_of_neg h, if_pos rfl,
    hOne]

end Binary32

namespace Box

open Binary32

variable (b : Box) (origin direction : Vec3 Float32)

/-! ### The slabs -/

/-- Where the ray crosses the lower plane across an axis. -/
def lowCrossing (a : Axis) : Float32 :=
  (b.low.coord a - origin.coord a) * (1.0 / direction.coord a)

/-- Where the ray crosses the upper plane across an axis. -/
def highCrossing (a : Axis) : Float32 :=
  (b.high.coord a - origin.coord a) * (1.0 / direction.coord a)

/-- Where the ray enters the slab of each axis. -/
def entries : Vec3 Float32 :=
  Vec3.zipWith lesser ((b.low - origin) * direction.map (1.0 / ·))
    ((b.high - origin) * direction.map (1.0 / ·))

/-- Where the ray leaves the slab of each axis. -/
def exits : Vec3 Float32 :=
  Vec3.zipWith greater ((b.low - origin) * direction.map (1.0 / ·))
    ((b.high - origin) * direction.map (1.0 / ·))

/-- A ray enters a slab at the smaller of its two crossings. -/
theorem coord_entries (a : Axis) : (b.entries origin direction).coord a =
    lesser (b.lowCrossing origin direction a) (b.highCrossing origin direction a) := by
  cases a <;> rfl

/-- A ray leaves a slab at the greater of its two crossings. -/
theorem coord_exits (a : Axis) : (b.exits origin direction).coord a =
    greater (b.lowCrossing origin direction a) (b.highCrossing origin direction a) := by
  cases a <;> rfl

/-- Where the ray has entered all slabs. -/
def near : Float32 :=
  (b.entries origin direction).maxElement

/-- Where the ray leaves the first slab. -/
def far : Float32 :=
  (b.exits origin direction).minElement

/-- The first axis with a distance, or the last one. -/
def axisAt (distances : Vec3 Float32) (t : Float32) : Axis :=
  if distances.x == t then .x else if distances.y == t then .y else .z

/-- The normal across an axis that is turned against the ray. -/
def normalAgainst : Axis → Vec3 Float32
  | .x => ⟨-signum direction.x, 0.0, 0.0⟩
  | .y => ⟨0.0, -signum direction.y, 0.0⟩
  | .z => ⟨0.0, 0.0, -signum direction.z⟩

/-- The axis whose face the ray is taken to meet. -/
def metAxis : Axis :=
  if 0.0 < b.near origin direction then
    axisAt (b.entries origin direction) (b.near origin direction)
  else axisAt (b.exits origin direction) (b.far origin direction)

/-- The normal is that of the first axis with the distance, as nested comparisons would
choose it. -/
theorem normalAgainst_axisAt (distances : Vec3 Float32) (t : Float32) :
    normalAgainst direction (axisAt distances t) =
      if distances.x == t then ⟨-signum direction.x, 0.0, 0.0⟩
      else if distances.y == t then ⟨0.0, -signum direction.y, 0.0⟩
      else ⟨0.0, 0.0, -signum direction.z⟩ := by
  unfold axisAt
  split
  · rfl
  · split <;> rfl

/-- A box is met where the ray has entered all slabs before it leaves one, and leaves ahead.
The distance is that of entering if it is ahead, and that of leaving from inside. -/
theorem intersect_eq : b.intersect origin direction =
    if b.far origin direction < b.near origin direction ∨ b.far origin direction ≤ 0.0 then none
    else if 0.0 < b.near origin direction then
      some (b.near origin direction, normalAgainst direction (b.metAxis origin direction))
    else some (b.far origin direction, -normalAgainst direction (b.metAxis origin direction)) := by
  unfold metAxis
  simp only [apply_ite (normalAgainst direction), normalAgainst_axisAt]
  have hUnfold : b.intersect origin direction =
      if b.far origin direction < b.near origin direction || b.far origin direction ≤ 0.0 then none
      else
        let entering := decide (0.0 < b.near origin direction)
        let picked : Float32 × Vec3 Float32 :=
          if entering then (b.near origin direction, b.entries origin direction)
          else (b.far origin direction, b.exits origin direction)
        let outward : Vec3 Float32 :=
          if picked.2.x == picked.1 then ⟨-signum direction.x, 0.0, 0.0⟩
          else if picked.2.y == picked.1 then ⟨0.0, -signum direction.y, 0.0⟩
          else ⟨0.0, 0.0, -signum direction.z⟩
        some (picked.1, if entering then outward else -outward) := rfl
  rw [hUnfold]
  by_cases hEnters : 0.0 < b.near origin direction <;> simp [hEnters]

/-! ### Crossings that are no numbers -/

/-- Both ends of the ray, and the planes of the box, are at finite places. -/
structure Finite : Prop where
  low : ∀ a, (b.low.coord a).isFinite = true
  high : ∀ a, (b.high.coord a).isFinite = true
  origin : ∀ a, (origin.coord a).isFinite = true
  direction : ∀ a, (direction.coord a).isFinite = true

/-- The ray stays in the upper plane across the last axis. -/
def Grazes : Prop :=
  (b.high.z == origin.z) = true ∧ (1.0 / direction.z).isInf = true

variable {b origin direction}

/-- The crossing with an upper plane is no number exactly if the ray stays in that plane. -/
theorem Finite.isNaN_highCrossing (h : b.Finite origin direction) (a : Axis) :
    (b.highCrossing origin direction a).isNaN = true ↔
      (b.high.coord a == origin.coord a) = true ∧ (1.0 / direction.coord a).isInf = true := by
  obtain ⟨s, hReaches⟩ := inverse_reaches (h.direction a)
  rw [highCrossing, isNaN_mul_iff (isNaN_sub (h.high a) (h.origin a)) hReaches,
    sub_beq_zero_iff (h.high a) (h.origin a)]

/-- Entering a slab is no number where the crossing with its upper plane is none. -/
theorem isNaN_entry (a : Axis) : ((b.entries origin direction).coord a).isNaN =
    (b.highCrossing origin direction a).isNaN := by
  rw [coord_entries, isNaN_lesser]

/-- Leaving a slab is no number where the crossing with its upper plane is none. -/
theorem isNaN_exit (a : Axis) : ((b.exits origin direction).coord a).isNaN =
    (b.highCrossing origin direction a).isNaN := by
  rw [coord_exits, isNaN_greater]

/-- Only the last axis passes on what is not a number. -/
theorem isNaN_near : (b.near origin direction).isNaN =
    (b.highCrossing origin direction .z).isNaN := by
  show (greater _ (greater _ ((b.entries origin direction).coord .z))).isNaN = _
  rw [isNaN_greater, isNaN_greater, isNaN_entry]

/-- Leaving all slabs is no number where the last axis has none, since it is compared last.
-/
theorem isNaN_far : (b.far origin direction).isNaN =
    (b.highCrossing origin direction .z).isNaN := by
  show (lesser _ (lesser _ ((b.exits origin direction).coord .z))).isNaN = _
  rw [isNaN_lesser, isNaN_lesser, isNaN_exit]

/-- Leaving all slabs is no number exactly if the ray grazes the box. -/
theorem Finite.isNaN_far_iff (h : b.Finite origin direction) :
    (b.far origin direction).isNaN = true ↔ b.Grazes origin direction := by
  rw [isNaN_far, h.isNaN_highCrossing]
  rfl

/-! ### The axis that is met -/

/-- The smaller of two distances is one of them. -/
theorem lesser_cases (a b : Float32) : lesser a b = a ∨ lesser a b = b :=
  ite_eq_or_eq _ _ _

/-- The greater of two distances is one of them. -/
theorem greater_cases (a b : Float32) : greater a b = a ∨ greater a b = b :=
  ite_eq_or_eq _ _ _

/-- What is chosen among the components is one of them. -/
theorem chosen_mem {choose : Float32 → Float32 → Float32}
    (hChoose : ∀ a b, choose a b = a ∨ choose a b = b) (v : Vec3 Float32) :
    ∃ a, choose v.x (choose v.y v.z) = v.coord a := by
  rcases hChoose v.x (choose v.y v.z) with hFirst | hRest
  · exact ⟨.x, hFirst⟩
  · rcases hChoose v.y v.z with hSecond | hThird
    · exact ⟨.y, hRest.trans hSecond⟩
    · exact ⟨.z, hRest.trans hThird⟩

/-- The greatest component is one of the three. -/
theorem maxElement_mem (v : Vec3 Float32) : ∃ a, v.maxElement = v.coord a :=
  chosen_mem greater_cases v

/-- The least component is one of the three. -/
theorem minElement_mem (v : Vec3 Float32) : ∃ a, v.minElement = v.coord a :=
  chosen_mem lesser_cases v

/-- A distance that belongs to some axis belongs to the one that is found. -/
theorem coord_axisAt {distances : Vec3 Float32} {t : Float32} {a : Axis}
    (h : t = distances.coord a) (hNumber : t.isNaN = false) :
    (distances.coord (axisAt distances t) == t) = true := by
  have hSame : (distances.coord a == t) = true := h ▸ beq_self hNumber
  unfold axisAt
  split
  · rename_i hFirst
    exact hFirst
  · rename_i hFirst
    split
    · rename_i hSecond
      exact hSecond
    · rename_i hSecond
      cases a with
      | x => exact absurd hSame hFirst
      | y => exact absurd hSame hSecond
      | z => exact hSame

/-! ### Normals -/

/-- A normal stands across an axis along which the ray moves: against the ray where it
enters and along it where it leaves. -/
structure Faces (entering : Prop) (normal direction : Vec3 Float32) (a : Axis) : Prop where
  moves : 0.0 < direction.coord a ∨ direction.coord a < 0.0
  forward : 0.0 < direction.coord a →
    (entering → normal.coord a = -1.0) ∧ (¬entering → normal.coord a = 1.0)
  backward : direction.coord a < 0.0 →
    (entering → normal.coord a = 1.0) ∧ (¬entering → normal.coord a = -1.0)
  across : ∀ other, other ≠ a → (normal.coord other == 0.0) = true

/-- The hit of a box that is one: at a positive distance, on a face across an axis
along which the ray moves. -/
def IsProper (b : Box) (origin direction : Vec3 Float32) (t : Float32)
    (normal : Vec3 Float32) : Prop :=
  0.0 < t ∧ ∃ a, Faces (0.0 < b.near origin direction) normal direction a

/-- Along its axis the normal is turned against the ray. -/
theorem coord_normalAgainst (a : Axis) :
    (normalAgainst direction a).coord a = -signum (direction.coord a) := by
  cases a <;> rfl

/-- Along other axes the normal has nothing. -/
theorem coord_normalAgainst_of_ne {a other : Axis} (h : other ≠ a) :
    (normalAgainst direction a).coord other = 0.0 := by
  cases a <;> cases other
  all_goals first | rfl | exact absurd rfl h

/-- Components are negated one by one. -/
theorem coord_neg (v : Vec3 Float32) (a : Axis) : (-v).coord a = -v.coord a := by
  cases a <;> rfl

/-- A normal across an axis along which the ray moves faces it, where it enters and where it
leaves. -/
theorem faces_normalAgainst {a : Axis} (entering : Prop) [Decidable entering]
    (hMoves : 0.0 < direction.coord a ∨ direction.coord a < 0.0) :
    Faces entering (if entering then normalAgainst direction a else -normalAgainst direction a)
      direction a := by
  have hNotZero : ((-0.0 : Float32) == 0.0) = true := by decide
  have hTwice : (- -1.0 : Float32) = 1.0 := by decide
  have hThrice : (- - -1.0 : Float32) = -1.0 := by decide
  refine ⟨hMoves, fun hForward => ?_, fun hBackward => ?_, fun other hOther => ?_⟩
  · refine ⟨fun hEnters => ?_, fun hLeaves => ?_⟩
    · rw [if_pos hEnters, coord_normalAgainst, signum_of_pos hForward]
    · rw [if_neg hLeaves, coord_neg, coord_normalAgainst, signum_of_pos hForward, hTwice]
  · refine ⟨fun hEnters => ?_, fun hLeaves => ?_⟩
    · rw [if_pos hEnters, coord_normalAgainst, signum_of_neg hBackward, hTwice]
    · rw [if_neg hLeaves, coord_neg, coord_normalAgainst, signum_of_neg hBackward, hThrice]
  · split
    · rw [coord_normalAgainst_of_ne hOther]
      decide
    · rw [coord_neg, coord_normalAgainst_of_ne hOther]
      exact hNotZero

/-- The normal that is given stands across the axis that is met, unless the ray does not
move along it. -/
theorem IsProper.of_moves {t : Float32} {normal : Vec3 Float32}
    (h : b.intersect origin direction = some (t, normal)) (hPos : 0.0 < t)
    (hMoves : 0.0 < direction.coord (b.metAxis origin direction) ∨
      direction.coord (b.metAxis origin direction) < 0.0) :
    b.IsProper origin direction t normal := by
  have hFaces := faces_normalAgainst (0.0 < b.near origin direction) hMoves
  rw [intersect_eq] at h
  split at h
  · cases h
  · refine ⟨hPos, b.metAxis origin direction, ?_⟩
    split at h
    all_goals
      rename_i hEnters
      cases h
      simpa [hEnters] using hFaces

/-- A normal that stands across an axis stands across the one that is met. The two axes may
be different, where crossings are at one distance. -/
theorem IsProper.moves {t : Float32} {normal : Vec3 Float32}
    (h : b.intersect origin direction = some (t, normal))
    (hProper : b.IsProper origin direction t normal) :
    0.0 < direction.coord (b.metAxis origin direction) ∨
      direction.coord (b.metAxis origin direction) < 0.0 := by
  obtain ⟨-, a, hFaces⟩ := hProper
  suffices a = b.metAxis origin direction from this ▸ hFaces.moves
  by_contra hOther
  -- Across other axes the normal that is given is a zero, of either sign.
  have hZero : normal.coord a = 0.0 ∨ normal.coord a = -0.0 := by
    rw [intersect_eq] at h
    split at h
    · cases h
    · split at h
      · cases h
        exact .inl (coord_normalAgainst_of_ne hOther)
      · cases h
        rw [coord_neg, coord_normalAgainst_of_ne hOther]
        exact .inr rfl
  have hUnit : normal.coord a = 1.0 ∨ normal.coord a = -1.0 := by
    by_cases hEnters : 0.0 < b.near origin direction
    · rcases hFaces.moves with hForward | hBackward
      · exact .inr ((hFaces.forward hForward).1 hEnters)
      · exact .inl ((hFaces.backward hBackward).1 hEnters)
    · rcases hFaces.moves with hForward | hBackward
      · exact .inl ((hFaces.forward hForward).2 hEnters)
      · exact .inr ((hFaces.backward hBackward).2 hEnters)
  rcases hZero with hZero | hZero <;> rcases hUnit with hUnit | hUnit <;>
    exact absurd (hZero.symm.trans hUnit) (by decide)

/-! ### Distances -/

/-- Where the ray does not graze the box, its distance is positive and belongs to the axis
that is met. -/
theorem distance_of_not_isNaN {t : Float32} {normal : Vec3 Float32}
    (h : b.intersect origin direction = some (t, normal))
    (hNumber : (b.far origin direction).isNaN = false) :
    0.0 < t ∧ ∃ distances, (distances = b.entries origin direction ∨
        distances = b.exits origin direction) ∧
      (distances.coord (b.metAxis origin direction) == t) = true := by
  have hNear : (b.near origin direction).isNaN = false := by rwa [isNaN_near, ← isNaN_far]
  unfold metAxis
  rw [intersect_eq] at h
  split at h
  · cases h
  · rename_i hMeets
    split at h
    · rename_i hEnters
      cases h
      obtain ⟨a, hAxis⟩ := maxElement_mem (b.entries origin direction)
      rw [if_pos hEnters]
      exact ⟨hEnters, _, .inl rfl, coord_axisAt hAxis hNear⟩
    · rename_i hLeaves
      cases h
      obtain ⟨a, hAxis⟩ := minElement_mem (b.exits origin direction)
      rw [if_neg hLeaves]
      exact ⟨pos_of_not_le hNumber fun hBehind => hMeets (.inr hBehind), _, .inr rfl,
        coord_axisAt hAxis hNumber⟩

/-- No hit of a box is behind the ray. -/
theorem pos_or_isNaN {t : Float32} {normal : Vec3 Float32}
    (h : b.intersect origin direction = some (t, normal)) : 0.0 < t ∨ t.isNaN = true := by
  cases hFar : (b.far origin direction).isNaN with
  | false => exact .inl (distance_of_not_isNaN h hFar).1
  | true =>
      rw [intersect_eq] at h
      split at h
      · cases h
      · split at h
        · rename_i hEnters
          cases h
          exact .inl hEnters
        · cases h
          exact .inr hFar

/-- Each entry and each exit is a crossing with one of the two planes of its axis. -/
theorem coord_crossing {distances : Vec3 Float32}
    (h : distances = b.entries origin direction ∨ distances = b.exits origin direction)
    (a : Axis) : distances.coord a = b.lowCrossing origin direction a ∨
      distances.coord a = b.highCrossing origin direction a := by
  rcases h with rfl | rfl
  · rw [coord_entries]
    exact lesser_cases _ _
  · rw [coord_exits]
    exact greater_cases _ _

/-- At a finite distance the ray moves along the axis that is met. Along an axis without
movement all crossings are infinite or no numbers. -/
theorem Finite.moves_of_isFinite (h : b.Finite origin direction) {t : Float32}
    {distances : Vec3 Float32}
    (hAxes : distances = b.entries origin direction ∨ distances = b.exits origin direction)
    {a : Axis} (hSame : (distances.coord a == t) = true) (hFinite : t.isFinite = true) :
    0.0 < direction.coord a ∨ direction.coord a < 0.0 := by
  refine pos_or_neg_of_inverse (h.direction a) ?_
  rw [← Bool.not_eq_true]
  intro hInfinite
  have hCrossing := isFinite_of_beq hSame hFinite
  rcases coord_crossing hAxes a with hLow | hHigh
  · rw [hLow, lowCrossing, isFinite_mul_of_isInf hInfinite] at hCrossing
    cases hCrossing
  · rw [hHigh, highCrossing, isFinite_mul_of_isInf hInfinite] at hCrossing
    cases hCrossing

/-- Inside the box, at most a unit of length at a time, every slab has been entered
and none has been left. -/
theorem crossings_inside {low high place d : Float32} (hLow : low.isFinite = true)
    (hHigh : high.isFinite = true) (hPlace : place.isFinite = true) (hAbove : low < place)
    (hBelow : place < high) (hUnit : d.abs ≤ 1.0) :
    lesser ((low - place) * (1.0 / d)) ((high - place) * (1.0 / d)) < 0.0 ∧
      0.0 < greater ((low - place) * (1.0 / d)) ((high - place) * (1.0 / d)) := by
  obtain ⟨s, hInverse⟩ := inverse_reaches_one hUnit
  have hFirst := reaches_mul (neg_iff_reaches.mp (sub_neg hLow hPlace hAbove)) hInverse (by decide)
  have hSecond := reaches_mul (pos_iff_reaches.mp (sub_pos hHigh hPlace hBelow)) hInverse
    (by decide)
  unfold lesser greater
  cases s with
  | positive =>
      replace hFirst := neg_iff_reaches.mpr hFirst
      replace hSecond := pos_iff_reaches.mpr hSecond
      rw [if_pos (lt_trans hFirst hSecond), if_neg fun hLess => lt_irrefl _
        (lt_trans hFirst (lt_trans hSecond hLess))]
      exact ⟨hFirst, hSecond⟩
  | negative =>
      replace hFirst := pos_iff_reaches.mpr hFirst
      replace hSecond := neg_iff_reaches.mpr hSecond
      rw [if_pos (lt_trans hSecond hFirst), if_neg fun hLess => lt_irrefl _
        (lt_trans hSecond (lt_trans hFirst hLess))]
      exact ⟨hSecond, hFirst⟩

/-- From inside of a box every ray with components up to one meets it. -/
theorem Finite.isSome_of_inside (h : b.Finite origin direction)
    (hInside : ∀ a, b.low.coord a < origin.coord a ∧ origin.coord a < b.high.coord a)
    (hUnit : ∀ a, (direction.coord a).abs ≤ 1.0) :
    (b.intersect origin direction).isSome = true := by
  have hCrossings (a : Axis) := crossings_inside (h.low a) (h.high a) (h.origin a) (hInside a).1
    (hInside a).2 (hUnit a)
  have hNear : b.near origin direction < 0.0 := by
    obtain ⟨a, hAxis⟩ := maxElement_mem (b.entries origin direction)
    rw [near, hAxis, coord_entries]
    exact (hCrossings a).1
  have hFar : 0.0 < b.far origin direction := by
    obtain ⟨a, hAxis⟩ := minElement_mem (b.exits origin direction)
    rw [far, hAxis, coord_exits]
    exact (hCrossings a).2
  have hMeets : ¬(b.far origin direction < b.near origin direction ∨
      b.far origin direction ≤ 0.0) := by
    rintro (hOrder | hBehind)
    · exact lt_irrefl _ (lt_trans hFar (lt_trans hOrder hNear))
    · exact lt_irrefl _ (lt_of_le_of_lt hBehind hFar)
  rw [intersect_eq, if_neg hMeets]
  split <;> rfl

/-- A ray that grazes the box has a hit at no distance. -/
theorem isSome_of_isNaN (hNumber : (b.far origin direction).isNaN = true) :
    (b.intersect origin direction).isSome = true := by
  have hMeets : ¬(b.far origin direction < b.near origin direction ∨
      b.far origin direction ≤ 0.0) := by
    rintro (hOrder | hBehind)
    · rw [isNaN_of_lt hOrder] at hNumber
      cases hNumber
    · exact not_le_of_isNaN hNumber hBehind
  rw [intersect_eq, if_neg hMeets]
  split <;> rfl

/-- The distance that is returned is no number exactly if the ray grazes the box. -/
theorem Finite.isNaN_distance_iff (h : b.Finite origin direction) {t : Float32}
    {normal : Vec3 Float32} (hHit : b.intersect origin direction = some (t, normal)) :
    t.isNaN = true ↔ b.Grazes origin direction := by
  rw [← h.isNaN_far_iff]
  cases hFar : (b.far origin direction).isNaN with
  | false =>
      have hPos := (distance_of_not_isNaN hHit hFar).1
      rw [isNaN_of_gt hPos]
  | true =>
      have hNear : (b.near origin direction).isNaN = true := by rwa [isNaN_near, ← isNaN_far]
      have hLeaves : ¬0.0 < b.near origin direction := by
        intro hEnters
        rw [isNaN_of_gt hEnters] at hNear
        cases hNear
      rw [intersect_eq, if_neg hLeaves] at hHit
      split at hHit
      · cases hHit
      · cases hHit
        exact iff_of_true hFar rfl

/-- The hits of a box are proper, but for two kinds of rays: those that graze it, whose hit
is at no distance, and those whose distance is infinite, where the axis that is met may be
one along which the ray does not move. From inside a ray that moves at most by one along
each axis always meets the box. The corners of the box need not be in order, and but in the
last part the direction may have any length. -/
theorem intersect_isProper_iff (h : b.Finite origin direction) :
    (∀ t normal, b.intersect origin direction = some (t, normal) →
      (t.isNaN = true ↔ b.Grazes origin direction) ∧
      (b.IsProper origin direction t normal ↔ ¬b.Grazes origin direction ∧
        (t.isFinite = false → 0.0 < direction.coord (b.metAxis origin direction) ∨
          direction.coord (b.metAxis origin direction) < 0.0))) ∧
    (b.Grazes origin direction → (b.intersect origin direction).isSome = true) ∧
    ((∀ a, b.low.coord a < origin.coord a ∧ origin.coord a < b.high.coord a) →
      (∀ a, (direction.coord a).abs ≤ 1.0) → (b.intersect origin direction).isSome = true) := by
  refine ⟨fun t normal hHit => ⟨h.isNaN_distance_iff hHit, ?_⟩, fun hGrazes => ?_,
    h.isSome_of_inside⟩
  · constructor
    · intro hProper
      refine ⟨fun hGrazes => ?_, fun _ => hProper.moves hHit⟩
      have hNumber := isNaN_of_gt hProper.1
      rw [(h.isNaN_distance_iff hHit).mpr hGrazes] at hNumber
      cases hNumber
    · rintro ⟨hGrazes, hInfinite⟩
      rw [← h.isNaN_far_iff, Bool.not_eq_true] at hGrazes
      obtain ⟨hPos, distances, hAxes, hSame⟩ := distance_of_not_isNaN hHit hGrazes
      refine .of_moves hHit hPos ?_
      cases hFinite : t.isFinite with
      | true => exact h.moves_of_isFinite hAxes hSame hFinite
      | false => exact hInfinite hFinite
  · exact isSome_of_isNaN (h.isNaN_far_iff.mpr hGrazes)

/-- A ray that meets the unit cube two ahead, and one that starts inside. -/
theorem intersect_isProper_iff_cube :
    let cube : Box := .ofHalf .one
    (∃ normal, cube.intersect ⟨0.0, 0.0, -3.0⟩ ⟨0.0, 0.0, 1.0⟩ = some (2.0, normal) ∧
        cube.IsProper ⟨0.0, 0.0, -3.0⟩ ⟨0.0, 0.0, 1.0⟩ 2.0 normal) ∧
      (cube.intersect .zero ⟨0.5, -1.0, 0.0⟩).isSome = true := by
  intro cube
  have hAhead : cube.Finite ⟨0.0, 0.0, -3.0⟩ ⟨0.0, 0.0, 1.0⟩ := by
    constructor <;> (intro a; cases a <;> decide)
  have hInside : cube.Finite .zero ⟨0.5, -1.0, 0.0⟩ := by
    constructor <;> (intro a; cases a <;> decide)
  have hHit : cube.intersect ⟨0.0, 0.0, -3.0⟩ ⟨0.0, 0.0, 1.0⟩ = some (2.0, ⟨0.0, 0.0, -1.0⟩) := by
    decide
  refine ⟨⟨_, hHit, ?_⟩, (intersect_isProper_iff hInside).2.2 ?_ ?_⟩
  · have hNumber : ¬(2.0 : Float32).isNaN = true := by decide
    have hFinite : (2.0 : Float32).isFinite = true := by decide
    obtain ⟨hGrazes, hProper⟩ := (intersect_isProper_iff hAhead).1 _ _ hHit
    refine hProper.mpr ⟨fun h => hNumber (hGrazes.mpr h), fun h => ?_⟩
    rw [hFinite] at h
    cases h
  · intro a
    cases a <;> decide
  · intro a
    cases a <;> decide

/-- A ray in the upper plane of the unit cube meets it, at a distance that is no number. -/
theorem intersect_cube_grazing :
    (Box.ofHalf .one).Finite ⟨0.0, 0.0, 1.0⟩ ⟨1.0, 0.0, 0.0⟩ ∧
      ∃ t normal, (Box.ofHalf .one).intersect ⟨0.0, 0.0, 1.0⟩ ⟨1.0, 0.0, 0.0⟩ = some (t, normal) ∧
        ¬0.0 < t := by
  refine ⟨?_, _, _, rfl, by decide⟩
  constructor <;> (intro a; cases a <;> decide)

end Box

end PathTracer
