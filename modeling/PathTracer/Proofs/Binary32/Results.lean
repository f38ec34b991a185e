import PathTracer.Proofs.Binary32.Finite

/-! Results by their values. No other number is between a result and the exact one, and where the
exact one is a number itself, it is the result. -/
namespace PathTracer.Binary32

open Float.Model (UnpackedFloat)

variable {a b c : Float32} {x : ℝ} {r : UnpackedFloat}

/-! ### Order of results -/

theorem Rounds.le_value (h : Rounds x r) (hUnpack : c.toModel.unpack = kept r)
    (hFinite : c.isFinite = true) (hSide : value a ≤ x) : value a ≤ value c := by
  change c.toModel.unpack.isFinite = true at hFinite
  rw [hUnpack] at hFinite
  rw [value, value, hUnpack, isFinite_of_kept hFinite]
  exact h.lower _ (rounded_unpack a) hSide

theorem Rounds.value_le (h : Rounds x r) (hUnpack : c.toModel.unpack = kept r)
    (hFinite : c.isFinite = true) (hSide : x ≤ value a) : value c ≤ value a := by
  change c.toModel.unpack.isFinite = true at hFinite
  rw [hUnpack] at hFinite
  rw [value, value, hUnpack, isFinite_of_kept hFinite]
  exact h.upper _ (rounded_unpack a) hSide

/-- A sum of numbers that are not below zero is not below any of them. -/
theorem value_le_add (h : (a + b).isFinite = true) (ha : 0 ≤ value a) (hb : 0 ≤ value b) :
    value a ≤ value (a + b) ∧ value b ≤ value (a + b) := by
  obtain ⟨hFirst, hSecond⟩ := isFinite_of_add h
  have hRounds := Rounds.add (rounded_unpack a) (rounded_unpack b) hFirst hSecond
  exact ⟨hRounds.le_value (unpack_add a b) h (le_add_of_nonneg_right hb),
    hRounds.le_value (unpack_add a b) h (le_add_of_nonneg_left ha)⟩

/-! ### Exact results -/

theorem abs_value_lt_overflow (ha : a.isFinite = true) : |value a| < overflow := by
  refine (abs_value_le ha).trans_lt ?_
  unfold overflow
  norm_num

/-- A result whose exact value is that of a number is this number, or the other zero. -/
theorem Rounds.beq_of_value (h : Rounds x r) (hUnpack : c.toModel.unpack = kept r)
    (ha : a.isFinite = true) (hSame : x = value a) : (c == a) = true := by
  have hFinite := (h.approximates hUnpack (hSame ▸ abs_value_lt_overflow ha)).isFinite
  rw [value_eq_iff hFinite ha]
  exact le_antisymm (h.value_le hUnpack hFinite hSame.le) (h.le_value hUnpack hFinite hSame.ge)

section Operations

variable (ha : a.isFinite = true) (hb : b.isFinite = true) (hc : c.isFinite = true)

include ha hb hc

theorem add_beq_of_value (h : value a + value b = value c) : (a + b == c) = true :=
  (Rounds.add (rounded_unpack a) (rounded_unpack b) ha hb).beq_of_value (unpack_add a b) hc h

theorem mul_beq_of_value (h : value a * value b = value c) : (a * b == c) = true :=
  (Rounds.mul (rounded_unpack a) (rounded_unpack b) ha hb).beq_of_value (unpack_mul a b) hc h

end Operations

/-! ### Signs and zeros -/

theorem value_nonneg (h : a.isFinite = true) (hSide : ¬a < 0.0) : 0 ≤ value a := by
  rw [value_lt_iff h (by decide), value_zero] at hSide
  exact not_lt.mp hSide

/-- Only a number is zero, and its value is. -/
theorem value_eq_zero (h : a.isFinite = true) : (a == 0.0) = true ↔ value a = 0 := by
  rw [value_eq_iff h (by decide), value_zero]

theorem lt_or_beq_of_le (h : a ≤ b) : a < b ∨ (a == b) = true := by
  obtain ⟨p, q, hp, hq, hLess⟩ := le_iff_place.mp h
  rw [lt_iff_place, beq_iff_place]
  rcases hLess.lt_or_eq with hBelow | rfl
  · exact .inl ⟨p, q, hp, hq, hBelow⟩
  · exact .inr ⟨p, hp, hq⟩

/-- Numbers above zero are equal only to themselves. -/
theorem eq_of_beq_of_pos (h : (a == b) = true) (hPos : 0.0 < b) : a = b := by
  obtain ⟨p, hFirst, hSecond⟩ := beq_iff_place.mp h
  have hReach := pos_iff_reaches.mp hPos
  refine eq_of_unpack_eq ?_
  unfold place? at hFirst hSecond
  generalize a.toModel.unpack = u at *
  generalize b.toModel.unpack = v at *
  rcases v with s | _ | _ | ⟨s, n, f, hn⟩
  · obtain rfl : s = .positive := hReach
    obtain rfl := Option.some.inj hSecond
    rcases u with ⟨_ | _⟩ | _ | _ | ⟨_ | _, _, _, _⟩ <;> simp_all [placeOf]
  · cases hReach
  · cases hReach
  · obtain rfl : s = .positive := hReach.1
    obtain rfl := Option.some.inj hSecond
    rcases u with ⟨_ | _⟩ | _ | _ | ⟨_ | _, _, _, _⟩ <;> simp_all [placeOf]

end PathTracer.Binary32
