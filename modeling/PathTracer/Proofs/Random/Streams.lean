import PathTracer.Proofs.Binary32.Error
import PathTracer.Random.Pcg

/-! The small random streams. Every step of the generator can be undone, so that streams
that start apart stay apart, and the words of a stream become numbers below one. -/
namespace PathTracer

namespace Binary32

/-! ### Numbers on a grid -/

theorem value_gridStep : value (1.0 / 16777216.0) = 1 / 2 ^ 24 := by
  rw [value_of_place (e := -47) (m := 2 ^ 23) rfl (by decide)]
  norm_num

/-- The grid of twenty-four bits is exact, so that its last number is below one. -/
theorem grid_bounds {n : Nat} (h : n < 2 ^ 24) :
    0.0 ≤ Float32.ofNat n * (1.0 / 16777216.0) ∧ Float32.ofNat n * (1.0 / 16777216.0) < 1.0 := by
  have hNonneg : (0 : ℝ) ≤ n / 2 ^ 24 := by positivity
  have hLast : (n : ℝ) / 2 ^ 24 ≤ 1 - 1 / 2 ^ 24 := by
    have hNext : (n : ℝ) + 1 ≤ 2 ^ 24 := by exact_mod_cast h
    linarith
  have hExact : value (Float32.ofNat n) * value (1.0 / 16777216.0) = n / 2 ^ 24 := by
    rw [value_ofNat h, value_gridStep, mul_one_div]
  have hProduct : Approximates (Float32.ofNat n * (1.0 / 16777216.0)) (n / 2 ^ 24) := by
    rw [← hExact]
    refine approximates_mul (isFinite_ofNat h) (by decide) ?_
    rw [hExact, abs_of_nonneg hNonneg]
    exact lt_overflow (by norm_num at hLast ⊢; linarith)
  have hError := hProduct.near.error 0 (by decide) (by
    rw [abs_of_nonneg hNonneg, zpow_zero]
    norm_num at hLast ⊢
    linarith)
  rw [value_le_iff (by decide) hProduct.isFinite, value_lt_iff hProduct.isFinite (by decide),
    value_zero, value_one]
  refine ⟨hProduct.near.nonneg hNonneg, ?_⟩
  have hAbove := (abs_le.mp hError).2
  norm_num at hAbove hLast
  linarith

end Binary32

namespace Pcg

/-! ### Steps that can be undone -/

theorem injective_mul {c : UInt32} (inverse : UInt32) (hUnit : c * inverse = 1) :
    Function.Injective fun x : UInt32 => x * c := by
  intro x y h
  have hBack := congrArg (· * inverse) h
  simpa only [UInt32.mul_assoc, hUnit, UInt32.mul_one] using hBack

variable {x y k : UInt32}

theorem eq_zero_of_shiftRight (hSome : 0 < k.toNat % 32) (h : x >>> k = x) : x = 0 := by
  have hValue : x.toNat / 2 ^ (k.toNat % 32) = x.toNat := by
    rw [← Nat.shiftRight_eq_div_pow, ← UInt32.toNat_shiftRight, h]
  by_contra hBits
  have hPos : 0 < x.toNat := Nat.pos_of_ne_zero fun hNone => hBits (UInt32.toNat_inj.mp hNone)
  exact (Nat.div_lt_self hPos (Nat.one_lt_two_pow hSome.ne')).ne hValue

/-- Words that become equal differ by a word that the shift keeps. -/
theorem injective_xorShift (hSome : 0 < k.toNat % 32) :
    Function.Injective fun x : UInt32 => (x >>> k) ^^^ x := by
  intro x y h
  have hBoth : (x >>> k) ^^^ x = (y >>> k) ^^^ y := h
  have hParts : ((x >>> k) ^^^ (y >>> k)) ^^^ (x ^^^ y) = 0 := by
    calc ((x >>> k) ^^^ (y >>> k)) ^^^ (x ^^^ y)
      _ = ((x >>> k) ^^^ x) ^^^ ((y >>> k) ^^^ y) := by ac_rfl
      _ = 0 := by rw [hBoth, UInt32.xor_self]
  rw [UInt32.xor_eq_zero_iff, ← UInt32.shiftRight_xor] at hParts
  exact UInt32.xor_eq_zero_iff.mp (eq_zero_of_shiftRight hSome hParts)

theorem injective_advance : Function.Injective advance := by
  intro x y h
  have hProducts : x * 747796405 = y * 747796405 := (UInt32.add_left_inj _).mp h
  exact injective_mul 3425435293 (by decide) hProducts

/-- The amount by which the output permutation shifts a state. -/
def shiftOf (state : UInt32) : UInt32 :=
  (state >>> 28) + 4

theorem shiftOf_bounds (state : UInt32) :
    4 ≤ (shiftOf state).toNat ∧ (shiftOf state).toNat < 20 := by
  have hTop : (state >>> 28).toNat < 16 := by
    rw [UInt32.toNat_shiftRight, Nat.shiftRight_eq_div_pow]
    have hState := state.toNat_lt
    show state.toNat / 2 ^ 28 < 16
    omega
  have hSum : (shiftOf state).toNat = (state >>> 28).toNat + 4 := by
    rw [shiftOf, UInt32.toNat_add]
    show ((state >>> 28).toNat + 4) % 2 ^ 32 = _
    omega
  omega

/-- The four highest bits, which give the amount, stay as they are. -/
theorem shiftOf_xorShift (state : UInt32) :
    shiftOf ((state >>> shiftOf state) ^^^ state) = shiftOf state := by
  have hNone : (state >>> shiftOf state) >>> 28 = 0 := by
    obtain ⟨hLow, hHigh⟩ := shiftOf_bounds state
    have hState := state.toNat_lt
    rw [← UInt32.toNat_inj, UInt32.toNat_shiftRight, UInt32.toNat_shiftRight,
      Nat.mod_eq_of_lt (by omega : (shiftOf state).toNat < 32), ← Nat.shiftRight_add,
      Nat.shiftRight_eq_div_pow]
    refine Nat.div_eq_of_lt (hState.trans_le (Nat.pow_le_pow_right (by decide) ?_))
    show 32 ≤ (shiftOf state).toNat + 28
    omega
  rw [shiftOf, UInt32.shiftRight_xor, hNone, UInt32.zero_xor, shiftOf]

theorem injective_permute : Function.Injective permute := by
  intro x y h
  have hWords := injective_xorShift (k := 22) (by decide) h
  have hShifted : (x >>> shiftOf x) ^^^ x = (y >>> shiftOf y) ^^^ y :=
    injective_mul 2897767785 (by decide) hWords
  have hAmounts : shiftOf x = shiftOf y := by
    rw [← shiftOf_xorShift x, hShifted, shiftOf_xorShift]
  obtain ⟨hLow, hHigh⟩ := shiftOf_bounds y
  rw [hAmounts] at hShifted
  exact injective_xorShift (by omega) hShifted

theorem injective_hash : Function.Injective hash :=
  injective_permute.comp injective_advance

/-! ### Streams -/

theorem start_inj_pixel {pixel other frameSeed salt : UInt32} :
    start pixel frameSeed salt = start other frameSeed salt ↔ pixel = other := by
  simp only [start, Pcg.mk.injEq, injective_hash.eq_iff, UInt32.xor_left_inj]

theorem start_inj_salt {pixel frameSeed salt other : UInt32} :
    start pixel frameSeed salt = start pixel frameSeed other ↔ salt = other := by
  simp only [start, Pcg.mk.injEq, injective_hash.eq_iff, UInt32.xor_right_inj]

/-- The stream after so many numbers. -/
def after (rng : Pcg) : Nat → Pcg
  | 0 => rng
  | n + 1 => (rng.after n).next.2

theorem after_inj {rng other : Pcg} (n : Nat) : rng.after n = other.after n ↔ rng = other := by
  induction n with
  | zero => rfl
  | succ n ih =>
      rw [← ih, after, after, next, next, Pcg.mk.injEq, injective_advance.eq_iff]
      exact ⟨congrArg Pcg.mk, congrArg Pcg.state⟩

theorem next_bounds (rng : Pcg) : 0.0 ≤ rng.next.1 ∧ rng.next.1 < 1.0 := by
  have hBits : (permute rng.state >>> 8).toNat < 2 ^ 24 := by
    rw [UInt32.toNat_shiftRight, Nat.shiftRight_eq_div_pow]
    have hWord := (permute rng.state).toNat_lt
    show (permute rng.state).toNat / 2 ^ 8 < 2 ^ 24
    omega
  rw [next, Binary32.toFloat32_toUInt32, ← Binary32.ofNat_eq_packedWhole_of_lt hBits]
  exact Binary32.grid_bounds hBits

end Pcg

end PathTracer
