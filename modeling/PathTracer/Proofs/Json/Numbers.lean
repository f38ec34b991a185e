import PathTracer.Json.Basic
import PathTracer.Proofs.Decimal.Recovery

/-! A spelled number is a number of a document. Its parts are read as they stand, up to
the blank, comma or bracket behind it, and its digits fit into the coefficient that
scaling starts from. -/
namespace PathTracer

namespace Decimal

/-! ### Coefficients -/

/-- More digits do not make a number smaller. -/
theorem le_digitsValue (digits : List Char) (before : ℕ) : before ≤ digitsValue digits before := by
  induction digits generalizing before with
  | nil => exact le_rfl
  | cons c rest ih => exact le_trans (by omega) (ih (before * 10 + digitValue c))

/-- Digits that make a small enough number all fit. -/
theorem appendDigits_eq {digits : List Char} {before : ℕ}
    (h : digitsValue digits before < coefficientBound) :
    appendDigits before digits = (digitsValue digits before, []) := by
  induction digits generalizing before with
  | nil => rfl
  | cons c rest ih =>
      have hLonger : before * 10 + digitValue c < coefficientBound :=
        (le_digitsValue rest _).trans_lt h
      rw [appendDigits, if_pos hLonger]
      exact ih h

theorem fitted_eq {whole fraction : List Char} (power : ℤ)
    (h : digitsValue (whole ++ fraction) 0 < coefficientBound) :
    fitted whole fraction power = ⟨digitsValue (whole ++ fraction) 0, power - fraction.length⟩ := by
  rw [digitsValue_append] at h ⊢
  have hWhole := appendDigits_eq ((le_digitsValue fraction _).trans_lt h)
  unfold fitted
  rw [hWhole]
  dsimp only
  rw [appendDigits_eq h]
  simp

/-- The number of a document that a numeral spells. -/
def Numeral.number (negative : Bool) (n : Numeral) : Json.Number :=
  ⟨negative, n.whole, n.fraction, exponent? n.power⟩

theorem Numeral.throughDouble?_number {n : Numeral} (h : n.literal.digits < coefficientBound)
    (negative : Bool) :
    (n.number negative).throughDouble? = n.literal.throughDouble? negative := by
  unfold Json.Number.throughDouble? number
  rw [fitted_eq _ h]
  rfl

/-! ### Digits -/

/-- The digits of a positive number do not start with a zero. -/
theorem head_digitsOf {n : ℕ} (h : 0 < n) {c : Char} {rest : List Char}
    (hDigits : digitsOf n = c :: rest) : c ≠ '0' := by
  rintro rfl
  have hRest : ∀ d ∈ rest, d.isDigit = true := fun d hd =>
    isDigit_of_mem_digitsOf (hDigits ▸ List.mem_cons_of_mem _ hd)
  have hValue := digitsValue_digitsOf n
  rw [hDigits, show digitsValue ('0' :: rest) 0 = digitsValue rest 0 from rfl] at hValue
  have hSmall := digitsValue_lt hRest 0
  rw [hValue, Nat.zero_add, Nat.one_mul] at hSmall
  have hSome : 0 < rest.length := by
    refine List.length_pos_iff.mpr ?_
    rintro rfl
    exact h.ne hValue
  have hLength := Nat.toDigits_length 10 n rest.length hSome hSmall
  rw [show Nat.toDigits 10 n = '0' :: rest from hDigits, List.length_cons] at hLength
  omega

theorem isWholeNumber_of_head {c : Char} {rest : List Char} (h : c ≠ '0') :
    Json.isWholeNumber (c :: rest) = true := by
  unfold Json.isWholeNumber
  split
  · contradiction
  · rfl
  · rename_i hCons
    obtain ⟨rfl, -⟩ := List.cons.inj hCons
    simpa using h

/-- The whole part of a positional numeral has no zero in front, unless it is nothing but a
zero. -/
theorem Style.isWholeNumber_positionalNumeral (s : Style) {c : Char} {rest : List Char} {e : ℤ}
    (h : c ≠ '0' ∨ rest = [] ∧ e ≤ 0) :
    Json.isWholeNumber (s.positionalNumeral (c :: rest) e).whole = true := by
  unfold positionalNumeral
  split
  · obtain hHead | ⟨rfl, hExponent⟩ := h
    · exact isWholeNumber_of_head hHead
    · rw [show e.toNat = 0 by omega]
      by_cases hHead : c = '0'
      · rw [hHead]
        rfl
      · exact isWholeNumber_of_head hHead
  · dsimp only
    split
    · rename_i hNegative hPlaces
      obtain ⟨k, hTake⟩ : ∃ k, (c :: rest).length - (-e).toNat = k + 1 :=
        Nat.exists_eq_succ_of_ne_zero (by omega)
      obtain hHead | ⟨rfl, -⟩ := h
      · rw [hTake]
        exact isWholeNumber_of_head hHead
      · rw [List.length_singleton] at hPlaces
        omega
    · rfl

/-- The part before the point has no superfluous zeros, unless the literal is a zero with places
before the point. -/
theorem Style.isWholeNumber_numeral (s : Style) {d : Literal}
    (h : d.digits = 0 → d.exponent ≤ 0) : Json.isWholeNumber (s.numeral d).whole = true := by
  obtain ⟨n, e⟩ := d
  dsimp only at h
  obtain ⟨c, rest, hDigits⟩ := List.exists_cons_of_ne_nil (digitsOf_ne_nil n)
  have hHead : c ≠ '0' ∨ rest = [] ∧ e ≤ 0 := by
    obtain rfl | hPos := Nat.eq_zero_or_pos n
    · obtain ⟨-, rfl⟩ := List.cons.inj (hDigits.symm.trans (show digitsOf 0 = ['0'] from rfl))
      exact .inr ⟨rfl, h rfl⟩
    · exact .inl (head_digitsOf hPos hDigits)
  unfold numeral
  dsimp only
  rw [hDigits]
  split
  · exact s.isWholeNumber_positionalNumeral hHead
  · split
    · exact s.isWholeNumber_positionalNumeral hHead
    · rename_i hScientific
      simp only [Bool.or_eq_true, decide_eq_true_eq, not_or] at hScientific
      exact isWholeNumber_of_head (head_digitsOf (Nat.pos_of_ne_zero hScientific.1) hDigits)

/-- Settings spell a number with a point or a power, so that it is not taken for a whole one. -/
theorem Style.not_isWhole_numeral (d : Literal) (negative : Bool) :
    ((Style.settings.numeral d).number negative).isWhole = false := by
  have hDigits := List.length_pos_iff.mpr (digitsOf_ne_nil d.digits)
  unfold Json.Number.isWhole Numeral.number numeral settings
  dsimp only
  split
  · unfold positionalNumeral
    split
    · rfl
    · dsimp only
      split
      · rename_i hNegative hPlaces
        have hSome : (digitsOf d.digits).drop ((digitsOf d.digits).length - (-d.exponent).toNat) ≠
            [] := by
          rw [Ne, List.drop_eq_nil_iff]
          omega
        simp [hSome]
      · simp [digitsOf_ne_nil]
  · obtain ⟨e, hPower⟩ := (Style.isPower_powerText ⟨some (-6, 12), .even, true, true⟩
      (d.exponent + ((digitsOf d.digits).length - 1 : ℕ))).exponent?
    simp [scientificNumeral, hPower]

end Decimal

namespace Json

open Decimal

/-! ### Numbers in a text -/

/-- A character that may stand behind a value. -/
def isBreak (c : Char) : Bool :=
  isBlank c || c = ',' || c = ']' || c = '\x7d'

/-- What may follow a value: nothing, or something that starts with a break. -/
def Follows (rest : List Char) : Prop :=
  ∀ c ∈ rest.head?, isBreak c = true

theorem eq_of_isBreak {c : Char} (h : isBreak c = true) :
    c = ' ' ∨ c = '\n' ∨ c = '\t' ∨ c = '\r' ∨ c = ',' ∨ c = ']' ∨ c = '\x7d' := by
  simpa [isBreak, isBlank, or_assoc] using h

theorem not_isDigit_of_isBreak {c : Char} (h : isBreak c = true) : c.isDigit = false := by
  obtain rfl | rfl | rfl | rfl | rfl | rfl | rfl := eq_of_isBreak h <;> rfl

theorem Follows.not_isDigit {rest : List Char} (h : Follows rest) :
    ∀ c ∈ rest.head?, c.isDigit = false := fun c hc => not_isDigit_of_isBreak (h c hc)

/-- A break is neither a point nor the letter of a power. -/
theorem Follows.plain {rest : List Char} (h : Follows rest) :
    fraction? rest = some ([], rest) ∧ exponent? rest = some (none, rest) := by
  cases rest with
  | nil => exact ⟨rfl, rfl⟩
  | cons c more =>
      obtain rfl | rfl | rfl | rfl | rfl | rfl | rfl := eq_of_isBreak (h c rfl) <;> exact ⟨rfl, rfl⟩

variable {n : Numeral} {rest : List Char}

/-- A power behind its letter is read as an exponent, where the number ends. -/
theorem exponent?_power {power : List Char} (h : Numeral.IsPower power) (hRest : Follows rest) :
    exponent? ('e' :: (power ++ rest)) = some (Decimal.exponent? power, rest) := by
  have hStop := hRest.not_isDigit
  cases h with
  | plain hSome hDigits =>
      obtain ⟨c, more, rfl⟩ := List.exists_cons_of_ne_nil hSome
      have hFirst := hDigits c List.mem_cons_self
      have hMinus := Numeral.ne_of_isDigit (d := '-') hFirst rfl
      have hPlus := Numeral.ne_of_isDigit (d := '+') hFirst rfl
      have hAll : (c :: more).all Char.isDigit = true := List.all_eq_true.mpr hDigits
      obtain ⟨hTake, hDrop⟩ := scan_append hDigits hStop
      rw [List.cons_append] at hTake hDrop ⊢
      simp [exponent?, Decimal.exponent?, hMinus, hPlus, hAll, hTake, hDrop]
  | signed hSign hSome hDigits =>
      obtain ⟨hTake, hDrop⟩ := scan_append hDigits hStop
      have hAll := List.all_eq_true.mpr hDigits
      obtain rfl | rfl := hSign
      · simp [exponent?, Decimal.exponent?, hSome, hAll, hTake, hDrop]
      · simp [exponent?, Decimal.exponent?, hSome, hAll, hTake, hDrop]

theorem exponent?_powerText (h : n.WellFormed) (hRest : Follows rest) :
    exponent? (n.powerText ++ rest) = some (Decimal.exponent? n.power, rest) := by
  obtain hPlain | hPower := h.power
  · rw [Numeral.powerText, if_pos hPlain, List.nil_append, hRest.plain.2, hPlain]
    rfl
  · rw [Numeral.powerText, if_neg hPower.ne_nil, List.cons_append]
    exact exponent?_power hPower hRest

/-- The fraction of a numeral is read up to its exponent. -/
theorem fraction?_tail (h : n.WellFormed) (hRest : Follows rest) :
    fraction? (n.tail ++ rest) = some (n.fraction, n.powerText ++ rest) := by
  unfold Numeral.tail Numeral.fractionText
  by_cases hPoint : n.fraction = []
  · rw [if_pos hPoint, List.nil_append, hPoint]
    obtain hPlain | hPower := h.power
    · rw [Numeral.powerText, if_pos hPlain, List.nil_append, hRest.plain.1]
    · rw [Numeral.powerText, if_neg hPower.ne_nil, List.cons_append]
      rfl
  · obtain ⟨hTake, hDrop⟩ := scan_append h.fraction (n.head?_powerText hRest.not_isDigit)
    rw [if_neg hPoint, List.append_assoc, List.cons_append, fraction?, hTake, hDrop]
    simp [hPoint]

/-- A numeral is read as it stands. -/
theorem magnitude?_text (h : n.WellFormed) (hWhole : isWholeNumber n.whole = true)
    (hRest : Follows rest) (negative : Bool) :
    magnitude? negative (n.text ++ rest) = some (n.number negative, rest) := by
  obtain ⟨hTake, hDrop⟩ := scan_append h.whole (n.head?_tail hRest.not_isDigit)
  unfold magnitude? Numeral.text
  rw [List.append_assoc, hTake, hDrop]
  simp [hWhole, fraction?_tail h hRest, exponent?_powerText h hRest, Numeral.number]

/-- A well formed numeral with a proper whole part is read as its number, sign and all. -/
theorem number?_text (h : n.WellFormed) (hWhole : isWholeNumber n.whole = true)
    (hRest : Follows rest) (negative : Bool) :
    number? ((if negative then ['-'] else []) ++ n.text ++ rest) =
      some (n.number negative, rest) := by
  cases negative with
  | true => exact magnitude?_text h hWhole hRest true
  | false =>
      rw [if_neg Bool.false_ne_true, List.nil_append, ← magnitude?_text h hWhole hRest false]
      obtain ⟨c, more, hCons⟩ := List.exists_cons_of_ne_nil h.whole_ne
      have hMinus : c ≠ '-' := Numeral.ne_of_isDigit (h.whole c (hCons ▸ List.mem_cons_self)) rfl
      unfold number?
      split
      · rename_i hText
        rw [Numeral.text, hCons] at hText
        exact absurd (List.cons.inj hText).1 hMinus
      · rfl

/-- The digits of a whole number are a numeral. -/
theorem wellFormed_digitsOf (k : ℕ) : Numeral.WellFormed ⟨digitsOf k, [], []⟩ :=
  ⟨digitsOf_ne_nil k, fun _ => isDigit_of_mem_digitsOf, by simp, .inl rfl⟩

theorem isWholeNumber_digitsOf (k : ℕ) : isWholeNumber (digitsOf k) = true := by
  obtain rfl | hPos := Nat.eq_zero_or_pos k
  · rfl
  · obtain ⟨c, more, hCons⟩ := List.exists_cons_of_ne_nil (digitsOf_ne_nil k)
    rw [hCons]
    exact isWholeNumber_of_head (head_digitsOf hPos hCons)

theorem text_digitsOf (k : ℕ) : (⟨digitsOf k, [], []⟩ : Numeral).text = digitsOf k := by
  simp [Numeral.text, Numeral.tail, Numeral.fractionText, Numeral.powerText]

end Json

end PathTracer
