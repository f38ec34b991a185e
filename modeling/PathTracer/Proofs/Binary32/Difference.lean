import PathTracer.Proofs.Binary32.Magnitude

/-! Differences. Finite numbers are multiples of the least magnitude, so that a difference
is never too small to be a number, and its sign is that of the exact one. -/
namespace PathTracer.Binary32

open Float.Model (Format UnpackedFloat totalExponent)
open Float.Model.UnpackedFloat (Sign decreaseExponent)

variable {s t : Sign} {k l : Int}

/-! ### Units -/

/-- A finite number as a multiple of the least magnitude. -/
def units : UnpackedFloat → Int
  | .finite s m e _ => s.apply (m * 2 ^ (e + 149).toNat : Nat)
  | _ => 0

/-- A number from a power of two on has at least its exponent. -/
theorem le_totalExponent_of_le {m : Nat} {e : Int} (hLeast : -149 ≤ e)
    (h : 2 ^ (k + 148).toNat ≤ m * 2 ^ (e + 149).toNat) : k ≤ totalExponent m e := by
  have hHigh : m < 2 ^ (m.log2 + 1) := Nat.lt_log2_self
  have hPower : 2 ^ (k + 148).toNat < 2 ^ (m.log2 + 1 + (e + 149).toNat) := by
    rw [pow_add 2 (m.log2 + 1)]
    exact h.trans_lt (Nat.mul_lt_mul_of_pos_right hHigh (Nat.two_pow_pos _))
  have hLess := (Nat.pow_lt_pow_iff_right (by decide : 1 < 2)).mp hPower
  unfold totalExponent
  omega

/-- Of two numbers in the form of memory the one with the greater exponent is greater. -/
theorem Canonical.scaled_lt {m n : Nat} {e f : Int} (h : Canonical m e) (hOther : Canonical n f)
    (hLess : toLex (e, (m : Int)) < toLex (f, (n : Int))) :
    m * 2 ^ (e + 149).toNat < n * 2 ^ (f + 149).toNat := by
  rw [Prod.Lex.toLex_lt_toLex] at hLess
  rcases hLess with hExponent | ⟨hExponent, hMantissa⟩
  · have hBits : 2 ^ 23 ≤ n := hOther.full.resolve_right (by have := h.least; omega)
    have hShift : (f + 149).toNat = (e + 149).toNat + 1 + (f - e - 1).toNat := by
      have := h.least
      omega
    calc m * 2 ^ (e + 149).toNat
      _ < 2 ^ 24 * 2 ^ (e + 149).toNat := Nat.mul_lt_mul_of_pos_right h.fits (Nat.two_pow_pos _)
      _ = 2 ^ 23 * 2 ^ ((e + 149).toNat + 1) := by rw [pow_succ 2 (e + 149).toNat]; ring
      _ ≤ n * 2 ^ (f + 149).toNat := by
        rw [hShift, pow_add 2 _ (f - e - 1).toNat]
        exact Nat.mul_le_mul hBits (Nat.le_mul_of_pos_right _ (Nat.two_pow_pos _))
  · obtain rfl : e = f := hExponent
    exact Nat.mul_lt_mul_of_pos_right (Int.ofNat_lt.mp hMantissa) (Nat.two_pow_pos _)

/-- A significand is not zero, and neither is the number of units. -/
theorem Canonical.units_pos {m : Nat} {e : Int} (h : Canonical m e) :
    (0 : Int) < (m * 2 ^ (e + 149).toNat : Nat) :=
  Int.natCast_pos.mpr (Nat.mul_pos h.pos (Nat.two_pow_pos _))

/-- Finite numbers have places in the order of their units. -/
theorem units_lt_of_place_lt {x y : UnpackedFloat} (hx : Rounded x) (hy : Rounded y)
    (hFinite : x.isFinite = true) (hOther : y.isFinite = true) {p q : ℤ ×ₗ ℤ ×ₗ ℤ}
    (hp : placeOf x = some p) (hq : placeOf y = some q) (h : p < q) : units x < units y := by
  rcases x with _ | _ | _ | ⟨_ | _, m, e, hm⟩
  · cases hFinite
  · cases hFinite
  all_goals
    rcases y with _ | _ | _ | ⟨_ | _, n, f, hn⟩
    · cases hOther
    · cases hOther
  all_goals
    obtain rfl := Option.some.inj hp
    obtain rfl := Option.some.inj hq
    simp only [units, Sign.apply]
    rw [Prod.Lex.toLex_lt_toLex] at h
  · simp at h
  · simp at h
  · exact Canonical.units_pos hy
  · exact Int.neg_neg_of_pos (Canonical.units_pos hx)
  · refine Int.neg_lt_neg (Int.ofNat_lt.mpr (Canonical.scaled_lt hy hx ?_))
    simpa [Prod.Lex.toLex_lt_toLex, eq_comm] using h
  · exact (Int.neg_neg_of_pos (Canonical.units_pos hx)).trans (Canonical.units_pos hy)
  · simp at h
  · simp at h
  · refine Int.ofNat_lt.mpr (Canonical.scaled_lt hx hy ?_)
    simpa using h

/-- The place of a number tells its units. -/
theorem units_eq_of_place {x : UnpackedFloat} {side a b : ℤ}
    (h : placeOf x = some (toLex (side, toLex (a, b)))) :
    units x = b * 2 ^ (side * a + 149).toNat := by
  rcases x with (_ | _) | _ | _ | ⟨_ | _, m, e, hm⟩
  all_goals
    simp only [placeOf, reduceCtorEq, Option.some.injEq, EmbeddingLike.apply_eq_iff_eq,
      Prod.mk.injEq] at h
  all_goals
    obtain ⟨rfl, rfl, rfl⟩ := h
    simp [units, Sign.apply]

/-- Every finite number has a place in the order. -/
theorem exists_place {x : UnpackedFloat} (h : x.isFinite = true) : ∃ p, placeOf x = some p := by
  rcases x with _ | _ | _ | ⟨_ | _, _, _, _⟩
  · cases h
  · cases h
  all_goals exact ⟨_, rfl⟩

/-- Places of finite numbers are in the order of their units. -/
theorem exists_places {x y : Float32} (hx : x.isFinite = true) (hy : y.isFinite = true) :
    ∃ p q, place? x = some p ∧ place? y = some q ∧
      (p < q → units x.toModel.unpack < units y.toModel.unpack) ∧
      (p = q → units x.toModel.unpack = units y.toModel.unpack) ∧
      (q < p → units y.toModel.unpack < units x.toModel.unpack) := by
  obtain ⟨p, hp⟩ := exists_place hx
  obtain ⟨q, hq⟩ := exists_place hy
  refine ⟨p, q, hp, hq, ?_, ?_, ?_⟩
  · exact units_lt_of_place_lt (rounded_unpack x) (rounded_unpack y) hx hy hp hq
  · rintro rfl
    exact (units_eq_of_place hp).trans (units_eq_of_place hq).symm
  · exact units_lt_of_place_lt (rounded_unpack y) (rounded_unpack x) hy hx hq hp

/-- Finite floats are ordered as their numbers of units. -/
theorem lt_iff_units {x y : Float32} (hx : x.isFinite = true) (hy : y.isFinite = true) :
    x < y ↔ units x.toModel.unpack < units y.toModel.unpack := by
  obtain ⟨p, q, hp, hq, hLess, hSame, hGreater⟩ := exists_places hx hy
  have hPlaces : x < y ↔ p < q := by
    rw [lt_iff_place, hp, hq]
    simp
  rw [hPlaces]
  rcases lt_trichotomy p q with h | h | h
  · exact iff_of_true h (hLess h)
  · exact iff_of_false h.not_lt (hSame h).not_lt
  · exact iff_of_false h.not_gt (hGreater h).not_gt

/-- Finite floats are equal exactly if their units are, as the two zeros are. -/
theorem beq_iff_units {x y : Float32} (hx : x.isFinite = true) (hy : y.isFinite = true) :
    (x == y) = true ↔ units x.toModel.unpack = units y.toModel.unpack := by
  obtain ⟨p, q, hp, hq, hLess, hSame, hGreater⟩ := exists_places hx hy
  have hPlaces : (x == y) = true ↔ p = q := by
    rw [beq_iff_place, hp, hq]
    simp [eq_comm]
  rw [hPlaces]
  rcases lt_trichotomy p q with h | h | h
  · exact iff_of_false h.ne (hLess h).ne
  · exact iff_of_true h (hSame h)
  · exact iff_of_false h.ne' (hGreater h).ne'

/-! ### Differences -/

/-- A number that is shifted has as many more digits. -/
theorem log2_mul_two_pow {m : Nat} (hPos : 0 < m) (j : Nat) : (m * 2 ^ j).log2 = m.log2 + j := by
  refine (Nat.log2_eq_iff (Nat.mul_pos hPos (Nat.two_pow_pos j)).ne').mpr ⟨?_, ?_⟩
  · rw [pow_add]
    exact Nat.mul_le_mul_right _ (Nat.log2_self_le hPos.ne')
  · rw [add_right_comm, pow_add]
    exact Nat.mul_lt_mul_of_pos_right Nat.lt_log2_self (Nat.two_pow_pos j)

/-- Rounding an exact number keeps the magnitude that it has in full. -/
theorem Reaches.round {m : Nat} {e : Int} (hPos : 0 < m) (hLeast : -148 ≤ k)
    (hReach : k ≤ totalExponent m e) :
    Rounded (UnpackedFloat.round .binary32 s m e) ∧
      Reaches s k (UnpackedFloat.round .binary32 s m e) := by
  unfold UnpackedFloat.round decreaseExponent
  dsimp only
  generalize hTarget : Format.binary32.targetExponent (totalExponent m e) = target
  rw [Nat.shiftLeft_eq]
  have hWider : 0 < m * 2 ^ (e - target).toNat := Nat.mul_pos hPos (Nat.two_pow_pos _)
  have hTotal : totalExponent (m * 2 ^ (e - target).toNat) (e - (e - target).toNat) =
      totalExponent m e := by
    rw [totalExponent, log2_mul_two_pow hPos, totalExponent]
    push_cast
    ring
  have hShift : e - (e - target).toNat ≤ Format.binary32.targetExponent
      (totalExponent (m * 2 ^ (e - target).toNat) (e - (e - target).toNat)) := by
    rw [hTotal, hTarget]
    omega
  exact ⟨rounded_roundWithAccuracy hWider hShift s .exact,
    Reaches.roundWithAccuracy hWider hShift .exact hLeast (hTotal.symm ▸ hReach)⟩

/-- A signed significand is rounded to the precision of floats. -/
theorem rounded_normalize (D : Int) (E : Int) (zero : Sign) (hE : -149 ≤ E) :
    Rounded (UnpackedFloat.normalize .binary32 D E zero) := by
  have hLeast {m : Nat} (hPos : 0 < m) : -148 ≤ totalExponent m E :=
    le_totalExponent_of_le hE (Nat.mul_pos hPos (Nat.two_pow_pos _))
  unfold UnpackedFloat.normalize
  split
  · rename_i hSign
    have hNegative : D < 0 := Int.compare_eq_lt.mp hSign
    have hPos : 0 < (-D).toNat := by omega
    exact (Reaches.round hPos le_rfl (hLeast hPos)).1
  · exact trivial
  · rename_i hSign
    have hPositive : 0 < D := Int.compare_eq_gt.mp hSign
    have hPos : 0 < D.toNat := by omega
    exact (Reaches.round hPos le_rfl (hLeast hPos)).1

/-- An exact result that is rounded keeps its sign and the powers of two that it reaches. -/
theorem Reaches.normalize {D : Int} {E : Int} (hE : -149 ≤ E) (hLeast : -148 ≤ k)
    (hGap : 2 ^ (k + 148).toNat ≤ s.apply D * 2 ^ (E + 149).toNat) (zero : Sign) :
    Reaches s k (UnpackedFloat.normalize .binary32 D E zero) := by
  have hPower : (0 : Int) < 2 ^ (k + 148).toNat := by positivity
  have hPos : 0 < s.apply D := pos_of_mul_pos_left (hPower.trans_le hGap) (by positivity)
  obtain ⟨m, hm⟩ := Int.eq_ofNat_of_zero_le hPos.le
  rw [hm] at hGap hPos
  have hReach : k ≤ totalExponent m E := le_totalExponent_of_le hE (by exact_mod_cast hGap)
  have hMantissa : 0 < m := Int.natCast_pos.mp hPos
  unfold UnpackedFloat.normalize
  cases s with
  | negative =>
      change -D = m at hm
      rw [Int.compare_eq_lt.mpr (by omega : D < 0)]
      dsimp only
      rw [hm, Int.toNat_natCast]
      exact (Reaches.round hMantissa hLeast hReach).2
  | positive =>
      change D = m at hm
      rw [Int.compare_eq_gt.mpr (by omega : 0 < D)]
      dsimp only
      rw [hm, Int.toNat_natCast]
      exact (Reaches.round hMantissa hLeast hReach).2

/-- A sign can be put before a product. -/
theorem apply_mul (s : Sign) (a c : Int) : s.apply a * c = s.apply (a * c) := by
  cases s with
  | negative => exact neg_mul a c
  | positive => rfl

/-- Mantissas at a common exponent keep their units. -/
theorem aligned_units {m : Nat} {e E : Int} (hLeast : -149 ≤ E) (hLess : E ≤ e) (s : Sign) :
    s.apply (m <<< (e - E).toNat : Nat) * 2 ^ (E + 149).toNat =
      s.apply (m * 2 ^ (e + 149).toNat : Nat) := by
  have hShift : (e + 149).toNat = (e - E).toNat + (E + 149).toNat := by omega
  rw [apply_mul, Nat.shiftLeft_eq, hShift, pow_add]
  push_cast
  rw [mul_assoc]

/-- A difference is rounded to the precision of floats, whatever its operands are. -/
theorem rounded_sub {x y : UnpackedFloat} (hx : Rounded x) (hy : Rounded y) :
    Rounded (x.sub .binary32 y) := by
  rcases x with _ | _ | _ | ⟨_, m, e, hm⟩ <;> rcases y with _ | _ | _ | ⟨_, n, f, hn⟩
  all_goals first | exact trivial | exact hx | exact hy | skip
  · show Rounded (if _ then .infinity _ else .notANumber)
    split <;> exact trivial
  · show Rounded (if _ then .zero _ else .zero _)
    split <;> exact trivial
  · have hFirst := Canonical.least hx
    have hSecond := Canonical.least hy
    exact rounded_normalize _ _ _ (by omega)

/-- The difference of two floats is that of their parts, kept if it does not overflow. -/
theorem unpack_sub (a b : Float32) :
    (a - b).toModel.unpack =
      kept (UnpackedFloat.sub .binary32 a.toModel.unpack b.toModel.unpack) :=
  unpack_pack (rounded_sub (rounded_unpack a) (rounded_unpack b))

/-- A number with enough units reaches a magnitude. -/
theorem Reaches.of_units {m : Nat} {e : Int} {hPos : 0 < m} (h : Canonical m e)
    (hGap : 2 ^ (k + 148).toNat ≤ s.apply (units (.finite t m e hPos))) :
    Reaches s k (.finite t m e hPos) := by
  have hPower : (0 : Int) < 2 ^ (k + 148).toNat := by positivity
  have hUnits := h.units_pos
  simp only [units] at hGap
  have hSign : t = s := by
    cases s <;> cases t
    · rfl
    · exact absurd (hPower.trans_le hGap) (Int.neg_neg_of_pos hUnits).not_gt
    · exact absurd (hPower.trans_le hGap) (Int.neg_neg_of_pos hUnits).not_gt
    · rfl
  refine ⟨hSign, le_totalExponent_of_le h.least ?_⟩
  rw [hSign] at hGap
  cases s <;> simp only [Sign.apply, neg_neg] at hGap <;> exact_mod_cast hGap

/-- A difference has the sign of the exact one and reaches the powers of two that the exact
one does. It is never too small to be a number. -/
theorem Reaches.sub {x y : UnpackedFloat} (hx : Rounded x) (hy : Rounded y)
    (hFinite : x.isFinite = true) (hOther : y.isFinite = true) (hLeast : -148 ≤ k)
    (hGap : 2 ^ (k + 148).toNat ≤ s.apply (units x - units y)) :
    Reaches s k (x.sub .binary32 y) := by
  have hPower : (0 : Int) < 2 ^ (k + 148).toNat := by positivity
  rcases x with _ | _ | _ | ⟨u, m, e, hm⟩
  · cases hFinite
  · cases hFinite
  all_goals
    rcases y with _ | _ | _ | ⟨v, n, f, hn⟩
    · cases hOther
    · cases hOther
  · cases s <;> exact absurd hGap hPower.not_ge
  · refine Reaches.of_units hy ?_
    have hOpposite : units (.finite (-v) n f hn) = - units (.finite v n f hn) := by
      cases v
      · exact (neg_neg _).symm
      · rfl
    rw [hOpposite]
    rwa [show units (.zero _) = 0 from rfl, zero_sub] at hGap
  · refine Reaches.of_units hx ?_
    rwa [show units (.zero _) = 0 from rfl, sub_zero] at hGap
  · have hFirst := Canonical.least hx
    have hSecond := Canonical.least hy
    refine Reaches.normalize (by omega) hLeast ?_ _
    rwa [apply_mul, sub_mul, aligned_units (by omega) (min_le_left e f),
      aligned_units (by omega) (min_le_right e f)]

/-- A difference reaches the magnitude of the exact difference. This is where it matters
that floats have denormal numbers. -/
theorem reaches_sub {a b : Float32} (ha : a.isFinite = true) (hb : b.isFinite = true)
    (hLeast : -148 ≤ k)
    (hGap : 2 ^ (k + 148).toNat ≤ s.apply (units a.toModel.unpack - units b.toModel.unpack)) :
    Reaches s k (a - b).toModel.unpack := by
  rw [unpack_sub]
  exact (Reaches.sub (rounded_unpack a) (rounded_unpack b) ha hb hLeast hGap).kept

/-- The difference of a greater and a smaller float is above zero and never rounded away. -/
theorem sub_pos {a b : Float32} (ha : a.isFinite = true) (hb : b.isFinite = true) (h : b < a) :
    0.0 < a - b := by
  rw [lt_iff_units hb ha] at h
  refine pos_iff_reaches.mpr (reaches_sub ha hb le_rfl ?_)
  show (1 : Int) ≤ units a.toModel.unpack - units b.toModel.unpack
  omega

/-- The difference of a smaller and a greater float is below zero. -/
theorem sub_neg {a b : Float32} (ha : a.isFinite = true) (hb : b.isFinite = true) (h : a < b) :
    a - b < 0.0 := by
  rw [lt_iff_units ha hb] at h
  refine neg_iff_reaches.mpr (reaches_sub ha hb le_rfl ?_)
  show (1 : Int) ≤ -(units a.toModel.unpack - units b.toModel.unpack)
  omega

/-- Finite floats have a difference, if only an infinite one. -/
theorem isNaN_sub {a b : Float32} (ha : a.isFinite = true) (hb : b.isFinite = true) :
    (a - b).isNaN = false := by
  change a.toModel.unpack.isFinite = true at ha
  change b.toModel.unpack.isFinite = true at hb
  change (a - b).toModel.unpack.isNaN = false
  rw [unpack_sub, isNaN_kept]
  generalize a.toModel.unpack = x at *
  generalize b.toModel.unpack = y at *
  rcases x with _ | _ | _ | _
  · cases ha
  · cases ha
  all_goals
    rcases y with _ | _ | _ | _
    · cases hb
    · cases hb
  · show UnpackedFloat.isNaN (if _ then .zero _ else .zero _) = false
    split <;> rfl
  · rfl
  · rfl
  · show UnpackedFloat.isNaN (UnpackedFloat.normalize _ _ _ _) = false
    unfold UnpackedFloat.normalize
    split
    · exact isNaN_roundWithAccuracy _ _
    · rfl
    · exact isNaN_roundWithAccuracy _ _

/-- A number with a significand is no zero. -/
theorem Canonical.units_ne_zero {m : Nat} {e : Int} {hPos : 0 < m} (h : Canonical m e) :
    units (.finite s m e hPos) ≠ 0 := by
  have hUnits := h.units_pos
  cases s with
  | negative => exact (Int.neg_neg_of_pos hUnits).ne
  | positive => exact hUnits.ne'

/-- Equal numbers have no difference. -/
theorem sub_eq_zero {x y : UnpackedFloat} (hx : Rounded x) (hy : Rounded y)
    (hFinite : x.isFinite = true) (hOther : y.isFinite = true) (h : units x = units y) :
    ∃ s, x.sub .binary32 y = .zero s := by
  rcases x with _ | _ | _ | ⟨u, m, e, hm⟩
  · cases hFinite
  · cases hFinite
  all_goals
    rcases y with _ | _ | _ | ⟨v, n, f, hn⟩
    · cases hOther
    · cases hOther
  · unfold UnpackedFloat.sub
    dsimp only
    split <;> exact ⟨_, rfl⟩
  · exact absurd h.symm (Canonical.units_ne_zero hy)
  · exact absurd h (Canonical.units_ne_zero hx)
  · have hFirst := Canonical.least hx
    have hSecond := Canonical.least hy
    have hAligned : u.apply (m <<< (e - min e f).toNat : Nat) =
        v.apply (n <<< (f - min e f).toNat : Nat) := by
      refine Int.eq_of_mul_eq_mul_right (a := 2 ^ (min e f + 149).toNat) (by positivity) ?_
      rwa [aligned_units (by omega) (min_le_left e f), aligned_units (by omega) (min_le_right e f)]
    refine ⟨.positive, ?_⟩
    show UnpackedFloat.normalize _ (u.apply (m <<< (e - min e f).toNat : Nat) -
      v.apply (n <<< (f - min e f).toNat : Nat)) _ _ = _
    rw [hAligned, sub_self]
    rfl

/-- The difference of finite floats is zero exactly if they are equal. -/
theorem sub_beq_zero_iff {a b : Float32} (ha : a.isFinite = true) (hb : b.isFinite = true) :
    (a - b == 0.0) = true ↔ (a == b) = true := by
  rw [beq_iff_units ha hb]
  constructor
  · intro hZero
    by_contra hDiffer
    rcases lt_or_gt_of_ne hDiffer with hLess | hGreater
    · have hNegative := sub_neg ha hb ((lt_iff_units ha hb).mpr hLess)
      rw [lt_iff_place] at hNegative
      rw [beq_iff_place] at hZero
      grind
    · have hPositive := sub_pos ha hb ((lt_iff_units hb ha).mpr hGreater)
      rw [lt_iff_place] at hPositive
      rw [beq_iff_place] at hZero
      grind
  · intro h
    obtain ⟨s, hZero⟩ := sub_eq_zero (rounded_unpack a) (rounded_unpack b) ha hb h
    refine beq_zero_iff.mpr ⟨s, ?_⟩
    rw [unpack_sub, hZero]
    rfl

/-! ### Absolute values -/

/-- A magnitude is rounded to the precision of floats. -/
theorem rounded_abs {x : UnpackedFloat} (h : Rounded x) : Rounded x.abs := by
  rcases x with _ | _ | _ | _ <;> exact h

/-- The magnitude of a float is that of its parts. -/
theorem unpack_abs (x : Float32) : x.abs.toModel.unpack = kept x.toModel.unpack.abs :=
  unpack_pack (rounded_abs (rounded_unpack x))

/-- What has a magnitude of one has it without its sign. -/
theorem one_le_abs {x : Float32} (h : Reaches s 1 x.toModel.unpack) : 1.0 ≤ x.abs := by
  rw [one_le_iff_reaches, unpack_abs]
  refine Reaches.kept ?_
  generalize x.toModel.unpack = u at h
  rcases u with _ | _ | _ | _
  · rfl
  · exact h
  · exact h
  · exact ⟨rfl, h.2⟩

end PathTracer.Binary32
