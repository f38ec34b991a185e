import Mathlib
import PathTracer.Geometry.Hit

/-! The hit that is left when candidates replace each other one by one. It is the
first of those that no other is nearer than, so that the order of the
candidates matters only among equally near ones. -/
namespace PathTracer

/-! ### The order of numbers -/

namespace Binary32

open Float.Model (UnpackedFloat)

/-- Place of a number in the order of all numbers: by its sign, then by its
exponent and its mantissa. What is not a number has no place. -/
def placeOf : UnpackedFloat → Option (ℤ ×ₗ ℤ ×ₗ ℤ)
  | .notANumber => none
  | .infinity .negative => some (toLex (-2, toLex (0, 0)))
  | .finite .negative m e _ => some (toLex (-1, toLex (-e, -m)))
  | .zero _ => some (toLex (0, toLex (0, 0)))
  | .finite .positive m e _ => some (toLex (1, toLex (e, m)))
  | .infinity .positive => some (toLex (2, toLex (0, 0)))

theorem compare_toLex {α β : Type} [LinearOrder α] [LinearOrder β] (a c : α) (b d : β) :
    compare (toLex (a, b)) (toLex (c, d)) = (compare a c).then (compare b d) := by
  rw [Prod.Lex.compare_def]
  rfl

theorem compare_neg_neg (a b : ℤ) : compare (-a) (-b) = (compare a b).swap := by
  rw [Int.compare_swap, ← cmp_eq_compare, ← cmp_eq_compare]
  exact StrictAnti.cmp_map_eq (fun _ _ => Int.neg_lt_neg) a b

theorem compare_natCast (a b : ℕ) : compare (a : ℤ) b = compare a b := by
  rw [← cmp_eq_compare, ← cmp_eq_compare]
  exact StrictMono.cmp_map_eq (fun _ _ => Int.ofNat_lt.mpr) a b

/-- Floats are compared by their places in one order, where zeros share one and what is no
number has none. -/
theorem compare_eq_places (a b : UnpackedFloat) :
    a.compare b = (placeOf a).bind fun x => (placeOf b).map (compare x) := by
  rcases a with (_ | _) | _ | _ | (_ | _) <;> rcases b with (_ | _) | _ | _ | (_ | _) <;>
    simp [placeOf, UnpackedFloat.compare, compare_toLex, compare_neg_neg, compare_natCast,
      Ordering.swap_then] <;> rfl

/-- Place of a number in the order of all numbers. -/
def place? (x : Float32) : Option (ℤ ×ₗ ℤ ×ₗ ℤ) :=
  placeOf x.toModel.unpack

/-- A float is less than another exactly if both have places, in this order. -/
theorem lt_iff_place {a b : Float32} :
    a < b ↔ ∃ x y, place? a = some x ∧ place? b = some y ∧ x < y := by
  have hModel : a < b ↔ a.toModel.unpack.compare b.toModel.unpack = some .lt :=
    decide_eq_true_iff.trans beq_iff_eq
  rw [hModel, compare_eq_places, place?, place?]
  cases placeOf a.toModel.unpack <;> cases placeOf b.toModel.unpack <;>
    simp [compare_lt_iff_lt]

/-- A float is at most another exactly if both have places, in this order or the same. -/
theorem le_iff_place {a b : Float32} :
    a ≤ b ↔ ∃ x y, place? a = some x ∧ place? b = some y ∧ x ≤ y := by
  have hModel : a ≤ b ↔
      (a.toModel.unpack.compare b.toModel.unpack).any (fun x => x.isLE) = true :=
    decide_eq_true_iff
  rw [hModel, compare_eq_places, place?, place?]
  cases placeOf a.toModel.unpack <;> cases placeOf b.toModel.unpack <;>
    simp [← compare_le_iff_le, Ordering.isLE_iff_ne_gt]

theorem lt_irrefl (a : Float32) : ¬a < a := by
  rw [lt_iff_place]
  grind

theorem lt_trans {a b c : Float32} (h : a < b) (hNext : b < c) : a < c := by
  rw [lt_iff_place] at *
  grind

/-- Of two numbers that are below something one is not above the other. -/
theorem le_of_not_lt {a b c d : Float32} (ha : a < c) (hb : b < d) (h : ¬a < b) : b ≤ a := by
  rw [lt_iff_place] at *
  rw [le_iff_place]
  grind

/-- What is less than a float is less than everything that is not less than the float and is
compared with something at all. -/
theorem lt_of_lt_of_not_lt {a b c d : Float32} (h : a < b) (hc : c < d) (hNot : ¬c < b) :
    a < c := by
  rw [lt_iff_place] at *
  grind

end Binary32

/-! ### Candidates one by one -/

namespace Hit

/-- A hit that none of the candidates is nearer than. A ray meets nothing at or
beyond the distance of a miss. -/
def IsNearest (candidates : List Hit) (h : Hit) : Prop :=
  h.t < farDistance ∧ ∀ other ∈ candidates, ¬other.t < h.t

instance (candidates : List Hit) : DecidablePred (IsNearest candidates) :=
  fun _ => inferInstanceAs (Decidable (_ ∧ _))

/-- The first of the nearest candidates. -/
def nearestOf (candidates : List Hit) : Hit :=
  (candidates.find? (IsNearest candidates ·)).getD .miss

/-- The first of the nearest is one of them, unless there are none. -/
theorem nearestOf_cases (candidates : List Hit) :
    (∃ before after, candidates = before ++ nearestOf candidates :: after ∧
      IsNearest candidates (nearestOf candidates) ∧
      ∀ other ∈ before, ¬IsNearest candidates other) ∨
    (nearestOf candidates = .miss ∧ ∀ other ∈ candidates, ¬IsNearest candidates other) := by
  unfold nearestOf
  cases hFind : candidates.find? (IsNearest candidates ·) with
  | none => exact .inr ⟨rfl, by simpa using hFind⟩
  | some h =>
      obtain ⟨hNearest, before, after, hSplit, hBefore⟩ := List.find?_eq_some_iff_append.mp hFind
      exact .inl ⟨before, after, hSplit, by simpa using hNearest, by simpa using hBefore⟩

/-- The nearest of some hits is the first one at the least distance. -/
theorem nearestOf_eq_of_split {candidates before after : List Hit} {h : Hit}
    (hSplit : candidates = before ++ h :: after) (hNearest : IsNearest candidates h)
    (hBefore : ∀ other ∈ before, ¬IsNearest candidates other) : nearestOf candidates = h := by
  have hFind : candidates.find? (IsNearest candidates ·) = some h :=
    List.find?_eq_some_iff_append.mpr
      ⟨by simpa using hNearest, before, after, hSplit, by simpa using hBefore⟩
  rw [nearestOf, hFind, Option.getD_some]

/-- Without a hit in reach there is none. -/
theorem nearestOf_eq_miss {candidates : List Hit}
    (h : ∀ other ∈ candidates, ¬IsNearest candidates other) : nearestOf candidates = .miss := by
  have hFind : candidates.find? (IsNearest candidates ·) = none := by simpa using h
  rw [nearestOf, hFind, Option.getD_none]

theorem IsNearest.of_append {before after : List Hit} {h : Hit}
    (hNearest : IsNearest (before ++ after) h) : IsNearest before h :=
  ⟨hNearest.1, fun other hOther => hNearest.2 other (List.mem_append_left _ hOther)⟩

/-- Which hits are nearest does not depend on their order. -/
theorem isNearest_perm {a b : List Hit} (hPerm : a.Perm b) (h : Hit) :
    IsNearest a h ↔ IsNearest b h := by
  simp only [IsNearest, hPerm.mem_iff]

/-- A new candidate that is nearer than all others is the nearest. -/
theorem isNearest_append_of_lt {candidates : List Hit} {h : Hit}
    (hLeast : ∀ other ∈ candidates, ¬other.t < (nearestOf candidates).t)
    (hNearer : h.t < (nearestOf candidates).t) : IsNearest (candidates ++ [h]) h := by
  constructor
  · rcases nearestOf_cases candidates with ⟨_, _, _, hNearest, _⟩ | ⟨hMiss, _⟩
    · exact Binary32.lt_trans hNearer hNearest.1
    · rwa [hMiss] at hNearer
  · refine List.forall_mem_append.mpr ⟨fun other hOther hLess => ?_, ?_⟩
    · exact hLeast other hOther (Binary32.lt_trans hLess hNearer)
    · exact List.forall_mem_singleton.mpr (Binary32.lt_irrefl h.t)

/-- It also comes first, since no other stays among the nearest. -/
theorem nearestOf_append_of_lt {candidates : List Hit} {h : Hit}
    (hLeast : ∀ other ∈ candidates, ¬other.t < (nearestOf candidates).t)
    (hNearer : h.t < (nearestOf candidates).t) : nearestOf (candidates ++ [h]) = h := by
  refine nearestOf_eq_of_split rfl (isNearest_append_of_lt hLeast hNearer) fun other hOther hOld => ?_
  exact hOld.2 h (by simp) (Binary32.lt_of_lt_of_not_lt hNearer hOld.1 (hLeast other hOther))

/-- A new candidate that is not nearer changes nothing. -/
theorem nearestOf_append_of_not_lt {candidates : List Hit} {h : Hit}
    (hNot : ¬h.t < (nearestOf candidates).t) :
    nearestOf (candidates ++ [h]) = nearestOf candidates := by
  rcases nearestOf_cases candidates with ⟨before, after, hSplit, hNearest, hBefore⟩ | ⟨hMiss, hNone⟩
  · have hLonger : candidates ++ [h] = before ++ nearestOf candidates :: (after ++ [h]) := by
      rw [← List.cons_append, ← List.append_assoc, ← hSplit]
    refine nearestOf_eq_of_split hLonger ?_ ?_
    · exact ⟨hNearest.1,
        List.forall_mem_append.mpr ⟨hNearest.2, List.forall_mem_singleton.mpr hNot⟩⟩
    · exact fun other hOther hNew => hBefore other hOther hNew.of_append
  · rw [hMiss] at hNot ⊢
    refine nearestOf_eq_miss (List.forall_mem_append.mpr ⟨fun other hOther hNew => ?_, ?_⟩)
    · exact hNone other hOther hNew.of_append
    · exact List.forall_mem_singleton.mpr fun hNew => hNot hNew.1

/-- Replacing a hit by every nearer one leaves the first of the nearest, and no
candidate is nearer than what is left. -/
theorem foldl_nearer (candidates : List Hit) :
    candidates.foldl nearer .miss = nearestOf candidates ∧
      ∀ other ∈ candidates, ¬other.t < (nearestOf candidates).t := by
  -- From the end, where the hit so far is the nearest of all candidates before.
  induction candidates using List.reverseRecOn with
  | nil => exact ⟨rfl, nofun⟩
  | append_singleton before h ih =>
      obtain ⟨hFold, hLeast⟩ := ih
      rw [List.foldl_append, hFold, List.foldl_cons, List.foldl_nil, nearer]
      split
      · rename_i hNearer
        rw [nearestOf_append_of_lt hLeast hNearer]
        exact ⟨rfl, (isNearest_append_of_lt hLeast hNearer).2⟩
      · rename_i hNot
        rw [nearestOf_append_of_not_lt hNot]
        exact ⟨rfl, List.forall_mem_append.mpr ⟨hLeast, List.forall_mem_singleton.mpr hNot⟩⟩

/-- The same for candidates that may not exist. -/
theorem foldl_orNearer (candidates : List (Option Hit)) :
    candidates.foldl orNearer .miss = nearestOf candidates.reduceOption := by
  rw [← (foldl_nearer _).1, List.reduceOption, List.foldl_filterMap]
  congr 1
  funext best next
  cases next <;> rfl

theorem far_lt : farDistance < 20000.0 := by decide

/-- The nearest hit is below the far bound, also where nothing is hit. -/
theorem nearestOf_t_lt (candidates : List Hit) : (nearestOf candidates).t < 20000.0 := by
  rcases nearestOf_cases candidates with ⟨_, _, _, hNearest, _⟩ | ⟨hMiss, _⟩
  · exact Binary32.lt_trans hNearest.1 far_lt
  · rw [hMiss]
    exact far_lt

/-- More candidates leave nothing that is farther away. -/
theorem nearestOf_le {fewer more : List Hit} (h : fewer ⊆ more) :
    (nearestOf more).t ≤ (nearestOf fewer).t := by
  refine Binary32.le_of_not_lt (nearestOf_t_lt fewer) (nearestOf_t_lt more) fun hLess => ?_
  rcases nearestOf_cases fewer with ⟨before, after, hSplit, _, _⟩ | ⟨hMiss, _⟩
  · have hMem : nearestOf fewer ∈ fewer :=
      (congrArg (nearestOf fewer ∈ ·) hSplit).mpr (by simp)
    exact (foldl_nearer more).2 _ (h hMem) hLess
  · rw [hMiss] at hLess
    rcases nearestOf_cases more with ⟨_, _, _, hNearest, _⟩ | ⟨hMiss, _⟩
    · exact Binary32.lt_irrefl _ (Binary32.lt_trans hLess hNearest.1)
    · exact Binary32.lt_irrefl _ (hMiss ▸ hLess)

end Hit

end PathTracer
