import PathTracer.Proofs.Binary32.Error

/-! What a result says about its operands. A finite sum or product has finite operands and is near
the exact one, and what comes of zeros and NaN is never positive. -/
namespace PathTracer.Binary32

open Float.Model (UnpackedFloat)

variable {a b c : Float32}

/-! ### Finite results -/

theorem isFinite_of_kept {u : UnpackedFloat} (h : (kept u).isFinite = true) : kept u = u := by
  rcases u with _ | _ | _ | ⟨s, m, e, hm⟩
  · rfl
  · rfl
  · rfl
  · by_cases hHigh : e ≤ 104
    · rw [kept, if_pos hHigh]
    · rw [kept, if_neg hHigh] at h
      cases h

theorem Rounds.approximates_of_isFinite {u : UnpackedFloat} {x : ℝ} (h : Rounds x u)
    (hUnpack : c.toModel.unpack = kept u) (hFinite : c.isFinite = true) : Approximates c x := by
  change c.toModel.unpack.isFinite = true at hFinite
  rw [hUnpack] at hFinite
  refine ⟨?_, ?_⟩
  · show c.toModel.unpack.isFinite = true
    rwa [hUnpack]
  · rw [value, hUnpack, isFinite_of_kept hFinite]
    exact h.near

theorem isFinite_of_add (h : (a + b).isFinite = true) : a.isFinite = true ∧ b.isFinite = true := by
  change (a + b).toModel.unpack.isFinite = true at h
  show a.toModel.unpack.isFinite = true ∧ b.toModel.unpack.isFinite = true
  rw [unpack_add] at h
  generalize a.toModel.unpack = u at *
  generalize b.toModel.unpack = v at *
  rcases u with ⟨_ | _⟩ | _ | _ | _ <;> rcases v with ⟨_ | _⟩ | _ | _ | _
  all_goals first | exact ⟨rfl, rfl⟩ | cases h

theorem isFinite_of_mul (h : (a * b).isFinite = true) : a.isFinite = true ∧ b.isFinite = true := by
  change (a * b).toModel.unpack.isFinite = true at h
  show a.toModel.unpack.isFinite = true ∧ b.toModel.unpack.isFinite = true
  rw [unpack_mul] at h
  generalize a.toModel.unpack = u at *
  generalize b.toModel.unpack = v at *
  rcases u with _ | _ | _ | _ <;> rcases v with _ | _ | _ | _
  all_goals first | exact ⟨rfl, rfl⟩ | cases h

/-- A finite sum is near the exact one. -/
theorem approximates_of_add (h : (a + b).isFinite = true) :
    Approximates (a + b) (value a + value b) :=
  (Rounds.add (rounded_unpack a) (rounded_unpack b) (isFinite_of_add h).1
    (isFinite_of_add h).2).approximates_of_isFinite (unpack_add a b) h

/-- A finite product is near the exact one. -/
theorem approximates_of_mul (h : (a * b).isFinite = true) :
    Approximates (a * b) (value a * value b) :=
  (Rounds.mul (rounded_unpack a) (rounded_unpack b) (isFinite_of_mul h).1
    (isFinite_of_mul h).2).approximates_of_isFinite (unpack_mul a b) h

/-- Only infinities of both sides make a sum of numbers no number. -/
theorem isNaN_add_of_isFinite (ha : a.isNaN = false) (hb : b.isFinite = true) :
    (a + b).isNaN = false := by
  by_cases hFinite : a.isFinite = true
  · show (a + b).toModel.unpack.isNaN = false
    have hRounds := Rounds.add (rounded_unpack a) (rounded_unpack b) hFinite hb
    rw [unpack_add, isNaN_kept]
    have hResult := hRounds.isFinite
    generalize UnpackedFloat.add _ _ _ = r at hResult ⊢
    rcases r with _ | _ | _ | _
    · rfl
    · cases hResult
    · rfl
    · rfl
  · obtain ⟨s, hUnpack⟩ := exists_infinity ha (by simpa using hFinite)
    show (a + b).toModel.unpack.isNaN = false
    rw [unpack_add_infinity hUnpack hb]
    rfl

/-- The reciprocal of a root is a number above zero only where the root has one of its own. -/
theorem isFinite_of_inverse_sqrt (hFinite : (1.0 / a.sqrt).isFinite = true)
    (hPos : 0.0 < 1.0 / a.sqrt) : a.isFinite = true ∧ value a ≠ 0 := by
  change (1.0 / a.sqrt).toModel.unpack.isFinite = true at hFinite
  rw [pos_iff_reaches] at hPos
  rw [unpack_div, unpack_sqrt, unpack_one_literal] at hFinite hPos
  show a.toModel.unpack.isFinite = true ∧ valueOf a.toModel.unpack ≠ 0
  have hRounded := rounded_unpack a
  generalize a.toModel.unpack = u at *
  rcases u with ⟨_ | _⟩ | _ | ⟨_ | _⟩ | ⟨s, m, e, hm⟩
  · cases hFinite
  · cases hPos
  · cases hFinite
  · cases hFinite
  · cases hFinite
  · refine ⟨rfl, ?_⟩
    have hCanonical : Canonical m e := hRounded
    exact div_ne_zero (by exact_mod_cast hCanonical.units_ne_zero) (by positivity)

/-! ### Zeros and NaN -/

theorem eq_zero_of_beq (h : (a == 0.0) = true) : a = 0.0 ∨ a = -0.0 := by
  obtain ⟨_ | _, hUnpack⟩ := beq_zero_iff.mp h
  · exact .inr (eq_of_unpack_eq hUnpack)
  · exact .inl (eq_of_unpack_eq hUnpack)

/-- A zero or NaN, which is on neither side of zero. -/
def Sideless (a : Float32) : Prop :=
  match a.toModel.unpack with
  | .notANumber => True
  | .zero _ => True
  | _ => False

theorem Sideless.not_pos (h : Sideless a) : ¬0.0 < a := by
  rw [pos_iff_reaches]
  unfold Sideless at h
  generalize a.toModel.unpack = u at *
  rcases u with _ | _ | _ | _
  · cases h
  · exact id
  · exact id
  · cases h

theorem sideless_of_beq (h : (a == 0.0) = true) : Sideless a := by
  obtain ⟨s, hUnpack⟩ := beq_zero_iff.mp h
  rw [Sideless, hUnpack]
  trivial

theorem sideless_of_isNaN (h : a.isNaN = true) : Sideless a := by
  change a.toModel.unpack.isNaN = true at h
  unfold Sideless
  generalize a.toModel.unpack = u at *
  rcases u with _ | _ | _ | _
  · cases h
  · trivial
  · cases h
  · cases h

theorem Sideless.add (ha : Sideless a) (hb : Sideless b) : Sideless (a + b) := by
  unfold Sideless at *
  rw [unpack_add]
  generalize a.toModel.unpack = u at *
  generalize b.toModel.unpack = v at *
  rcases u with _ | _ | ⟨_ | _⟩ | _ <;> rcases v with _ | _ | ⟨_ | _⟩ | _
  all_goals trivial

/-- A zero times an infinity is NaN, and all other products of a zero are zeros. -/
theorem Sideless.mul_left (ha : Sideless a) (b : Float32) : Sideless (a * b) := by
  unfold Sideless at *
  rw [unpack_mul]
  generalize a.toModel.unpack = u at *
  generalize b.toModel.unpack = v at *
  rcases u with _ | _ | _ | _ <;> rcases v with _ | _ | _ | _
  all_goals trivial

theorem Sideless.mul_right (a : Float32) (hb : Sideless b) : Sideless (a * b) := by
  unfold Sideless at *
  rw [unpack_mul]
  generalize a.toModel.unpack = u at *
  generalize b.toModel.unpack = v at *
  rcases u with _ | _ | _ | _ <;> rcases v with _ | _ | _ | _
  all_goals trivial

end PathTracer.Binary32
