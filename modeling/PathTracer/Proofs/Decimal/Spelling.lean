import PathTracer.Decimal.Style
import PathTracer.Proofs.Decimal.Ordinal
import PathTracer.Proofs.Decimal.Shortest

/-! A spelled number reads back as the number. Whatever the style, the text is a
numeral: a whole part, a fraction and a power of ten, of which the last two may
be missing. -/
namespace PathTracer

/-- A run of characters is all that a scan takes, if the next one does not belong
to it. -/
theorem scan_append {p : Char → Bool} {run rest : List Char} (hRun : ∀ c ∈ run, p c = true)
    (hRest : ∀ c ∈ rest.head?, p c = false) :
    (run ++ rest).takeWhile p = run ∧ (run ++ rest).dropWhile p = rest := by
  rw [List.takeWhile_append_of_pos hRun, List.dropWhile_append_of_pos hRun]
  cases rest with
  | nil => simp
  | cons c more =>
      have hStop : p c = false := hRest c rfl
      simp [hStop]

namespace Decimal

/-! ### Runs of digits -/

/-- The value of digits is that of the library. -/
theorem digitsValue_eq_ofDigitChars (digits : List Char) (before : ℕ) :
    digitsValue digits before = Nat.ofDigitChars 10 digits before := by
  rw [Nat.ofDigitChars_eq_foldl]
  unfold digitsValue digitValue
  simp only [Nat.mul_comm]

/-- The digits of a number have its value. -/
theorem digitsValue_digitsOf (n : ℕ) : digitsValue (digitsOf n) 0 = n := by
  rw [digitsValue_eq_ofDigitChars]
  exact Nat.ofDigitChars_ten_toDigits

/-- Digits are read one after the other. -/
theorem digitsValue_append (first second : List Char) (before : ℕ) :
    digitsValue (first ++ second) before = digitsValue second (digitsValue first before) :=
  List.foldl_append

/-- Zeros behind digits are powers of ten. -/
theorem digitsValue_zeros (count before : ℕ) :
    digitsValue (List.replicate count '0') before = before * 10 ^ count := by
  rw [digitsValue_eq_ofDigitChars, Nat.ofDigitChars_replicate_zero, Nat.mul_comm]

/-- The digits of a number are digits. -/
theorem isDigit_of_mem_digitsOf {n : ℕ} {c : Char} (h : c ∈ digitsOf n) : c.isDigit = true :=
  Nat.isDigit_of_mem_toDigits (by decide) (by decide) h

/-- Every number has a digit, zero included. -/
theorem digitsOf_ne_nil (n : ℕ) : digitsOf n ≠ [] :=
  Nat.toDigits_ne_nil

/-! ### Numerals -/

/-- The parts of a spelled number. Without a fraction there is no point, and
without a power no `e`. -/
structure Numeral where
  whole : List Char
  fraction : List Char
  power : List Char

namespace Numeral

/-- The fraction with its point. -/
def fractionText (n : Numeral) : List Char :=
  if n.fraction = [] then [] else '.' :: n.fraction

/-- The power of ten with its `e`. -/
def powerText (n : Numeral) : List Char :=
  if n.power = [] then [] else 'e' :: n.power

/-- What follows the whole part of a numeral. -/
def tail (n : Numeral) : List Char :=
  n.fractionText ++ n.powerText

def text (n : Numeral) : List Char :=
  n.whole ++ n.tail

/-- A power of ten as it is spelled: digits after an optional sign. -/
inductive IsPower : List Char → Prop where
  | plain {digits : List Char} (hSome : digits ≠ []) (hDigits : ∀ c ∈ digits, c.isDigit = true) :
      IsPower digits
  | signed {sign : Char} {digits : List Char} (hSign : sign = '-' ∨ sign = '+')
      (hSome : digits ≠ []) (hDigits : ∀ c ∈ digits, c.isDigit = true) : IsPower (sign :: digits)

/-- Numerals with a digit before the point, and with digits where digits belong. -/
structure WellFormed (n : Numeral) : Prop where
  whole_ne : n.whole ≠ []
  whole : ∀ c ∈ n.whole, c.isDigit = true
  fraction : ∀ c ∈ n.fraction, c.isDigit = true
  power : n.power = [] ∨ IsPower n.power

/-- The literal that a numeral spells. -/
def literal (n : Numeral) : Literal :=
  ⟨digitsValue (n.whole ++ n.fraction) 0, (exponent? n.power).getD 0 - n.fraction.length⟩

theorem ne_of_isDigit {c d : Char} (h : c.isDigit = true) (hOther : d.isDigit = false) : c ≠ d := by
  rintro rfl
  rw [h] at hOther
  cases hOther

/-- A power is read as an exponent. -/
theorem IsPower.exponent? {power : List Char} (h : IsPower power) :
    ∃ e, exponent? power = some e := by
  cases h with
  | plain hSome hDigits =>
      obtain ⟨c, more, rfl⟩ := List.exists_cons_of_ne_nil hSome
      have hFirst := hDigits c List.mem_cons_self
      have hMinus := ne_of_isDigit (d := '-') hFirst rfl
      have hPlus := ne_of_isDigit (d := '+') hFirst rfl
      have hAll : (c :: more).all Char.isDigit = true := List.all_eq_true.mpr hDigits
      simp [Decimal.exponent?, hMinus, hPlus, hAll]
  | signed hSign hSome hDigits =>
      have hAll := List.all_eq_true.mpr hDigits
      obtain rfl | rfl := hSign
      · simp [Decimal.exponent?, hSome, hAll]
      · simp [Decimal.exponent?, hSome, hAll]

theorem IsPower.ne_nil {power : List Char} (h : IsPower power) : power ≠ [] := by
  cases h with
  | plain hSome _ => exact hSome
  | signed _ _ _ => exact List.cons_ne_nil _ _

/-- Behind the digits of a fraction comes no digit, unless one follows. -/
theorem head?_powerText (n : Numeral) {rest : List Char}
    (hRest : ∀ c ∈ rest.head?, c.isDigit = false) :
    ∀ c ∈ (n.powerText ++ rest).head?, c.isDigit = false := by
  unfold powerText
  split
  · exact hRest
  · simp

/-- Behind the digits of the whole part comes no digit, unless one follows. -/
theorem head?_tail (n : Numeral) {rest : List Char} (hRest : ∀ c ∈ rest.head?, c.isDigit = false) :
    ∀ c ∈ (n.tail ++ rest).head?, c.isDigit = false := by
  unfold tail fractionText
  split
  · exact n.head?_powerText hRest
  · simp

/-- What is read of a numeral depends on whether it spells a power. -/
theorem literal?_text_cases {n : Numeral} (h : n.WellFormed) :
    (n.powerText = [] → literal? n.text =
      some ⟨digitsValue (n.whole ++ n.fraction) 0, -(n.fraction.length : ℤ)⟩) ∧
    ∀ power, n.powerText = 'e' :: power → literal? n.text =
      (Decimal.exponent? power).map fun e =>
        ⟨digitsValue (n.whole ++ n.fraction) 0, e - n.fraction.length⟩ := by
  have hEmpty : n.whole.isEmpty = false := by simpa using h.whole_ne
  have hDigits : digitsValue (n.whole ++ n.fraction) 0 =
      digitsValue n.fraction (digitsValue n.whole 0) := digitsValue_append _ _ _
  have hTail : ∀ c ∈ (n.tail ++ []).head?, c.isDigit = false := n.head?_tail (by simp)
  have hEnd : ∀ c ∈ (n.powerText ++ []).head?, c.isDigit = false := n.head?_powerText (by simp)
  rw [List.append_nil] at hTail hEnd
  obtain ⟨hTake, hDrop⟩ := scan_append h.whole hTail
  unfold literal? text
  rw [hTake, hDrop, hDigits]
  unfold tail fractionText
  by_cases hPoint : n.fraction = []
  · rw [if_pos hPoint, List.nil_append, hPoint]
    refine ⟨fun hPlain => ?_, fun power hPower => ?_⟩
    · simp [hPlain, hEmpty, digitsValue]
    · simp [hPower, hEmpty, digitsValue]
  · obtain ⟨hTakeMore, hDropMore⟩ := scan_append h.fraction hEnd
    rw [if_neg hPoint]
    simp only [List.cons_append, hTakeMore, hDropMore, hEmpty, Bool.false_and]
    refine ⟨fun hPlain => ?_, fun power hPower => ?_⟩
    · simp [hPlain]
    · simp [hPower]

/-- The text of a numeral is read back as its literal. -/
theorem literal?_text {n : Numeral} (h : n.WellFormed) : literal? n.text = some n.literal := by
  obtain ⟨hWhole, hScaled⟩ := literal?_text_cases h
  obtain hPlain | hPower := h.power
  · rw [hWhole (by simp [powerText, hPlain])]
    simp [literal, hPlain, Decimal.exponent?]
  · obtain ⟨e, hExponent⟩ := hPower.exponent?
    rw [hScaled n.power (by simp [powerText, hPower.ne_nil]), hExponent]
    simp [literal, hExponent]

end Numeral

/-! ### Spelled literals -/

namespace Style

/-- The parts of a positional form. -/
def positionalNumeral (s : Style) (digits : List Char) (exponent : ℤ) : Numeral :=
  if 0 ≤ exponent then
    ⟨digits ++ List.replicate exponent.toNat '0', if s.keepsPoint then ['0'] else [], []⟩
  else
    let places := (-exponent).toNat
    if places < digits.length then
      ⟨digits.take (digits.length - places), digits.drop (digits.length - places), []⟩
    else ⟨['0'], List.replicate (places - digits.length) '0' ++ digits, []⟩

/-- The spelled power of ten of an exponent form. -/
def powerText (s : Style) (order : ℤ) : List Char :=
  if order < 0 then '-' :: digitsOf order.natAbs
  else (if s.signsExponent then ['+'] else []) ++ digitsOf order.natAbs

/-- The parts of an exponent form. -/
def scientificNumeral (s : Style) (digits : List Char) (order : ℤ) : Numeral :=
  ⟨digits.take 1, digits.drop 1, s.powerText order⟩

/-- The numeral that a style chooses for a literal. -/
def numeral (s : Style) (d : Literal) : Numeral :=
  let digits := digitsOf d.digits
  let order := d.exponent + (digits.length - 1 : Nat)
  match s.plain with
  | none => s.positionalNumeral digits d.exponent
  | some (least, greatest) =>
    if d.digits = 0 || (decide (least ≤ order) && decide (order ≤ greatest)) then
      s.positionalNumeral digits d.exponent
    else s.scientificNumeral digits order

variable (s : Style)

/-- Positional spelling is the text of a numeral, so that what holds of numerals holds of
it. -/
theorem positional_eq_text {digits : List Char} (h : digits ≠ []) (exponent : ℤ) :
    positional s digits exponent = (s.positionalNumeral digits exponent).text := by
  have hLength : 0 < digits.length := List.length_pos_iff.mpr h
  unfold positional positionalNumeral
  split
  · cases s.keepsPoint <;> simp [Numeral.text, Numeral.tail, Numeral.fractionText, Numeral.powerText]
  · rename_i hNegative
    dsimp only
    split
    · rename_i hPlaces
      have hDrop : digits.drop (digits.length - (-exponent).toNat) ≠ [] := by
        rw [Ne, List.drop_eq_nil_iff]
        omega
      simp [Numeral.text, Numeral.tail, Numeral.fractionText, Numeral.powerText, hDrop]
    · simp [Numeral.text, Numeral.tail, Numeral.fractionText, Numeral.powerText, h]

/-- The power of a style is one. -/
theorem isPower_powerText (order : ℤ) : Numeral.IsPower (s.powerText order) := by
  have hSome := digitsOf_ne_nil order.natAbs
  have hDigits : ∀ c ∈ digitsOf order.natAbs, c.isDigit = true := fun _ => isDigit_of_mem_digitsOf
  unfold powerText
  split
  · exact .signed (.inl rfl) hSome hDigits
  · cases s.signsExponent with
    | true => exact .signed (.inr rfl) hSome hDigits
    | false => exact .plain hSome hDigits

/-- Scientific spelling is the text of a numeral. -/
theorem scientific_eq_text {digits : List Char} (h : digits ≠ []) (order : ℤ) :
    scientific s digits order = (s.scientificNumeral digits order).text := by
  have hPower := (s.isPower_powerText order).ne_nil
  match digits with
  | [] => exact absurd rfl h
  | [first] =>
      simp only [scientificNumeral, Numeral.text, Numeral.tail, Numeral.fractionText,
        Numeral.powerText, hPower, if_false]
      rfl
  | first :: second :: more =>
      simp only [scientificNumeral, Numeral.text, Numeral.tail, Numeral.fractionText,
        Numeral.powerText, hPower, if_false]
      rfl

/-- What a style spells is the text of a numeral, in both notations. -/
theorem spellLiteral_eq_text (d : Literal) : spellLiteral s d = (s.numeral d).text := by
  have hSome := digitsOf_ne_nil d.digits
  unfold spellLiteral numeral
  cases s.plain with
  | none => exact s.positional_eq_text hSome _
  | some bounds =>
      dsimp only
      split
      · exact s.positional_eq_text hSome _
      · exact s.scientific_eq_text hSome _

/-! ### Their values -/

/-- Positional numerals are well formed. -/
theorem wellFormed_positionalNumeral {digits : List Char} (hSome : digits ≠ [])
    (hDigits : ∀ c ∈ digits, c.isDigit = true) (exponent : ℤ) :
    (s.positionalNumeral digits exponent).WellFormed := by
  have hZero : ('0' : Char).isDigit = true := rfl
  unfold positionalNumeral
  split
  · refine ⟨by simp [hSome], fun c hc => ?_, fun c hc => ?_, .inl rfl⟩
    · obtain hc | hc := List.mem_append.mp hc
      · exact hDigits c hc
      · rw [List.eq_of_mem_replicate hc]
        exact hZero
    · cases hPoint : s.keepsPoint <;> simp [hPoint] at hc
      rw [hc]
      exact hZero
  · dsimp only
    split
    · rename_i hPlaces
      refine ⟨?_, fun c hc => hDigits c (List.mem_of_mem_take hc),
        fun c hc => hDigits c (List.mem_of_mem_drop hc), .inl rfl⟩
      dsimp only
      rw [Ne, List.take_eq_nil_iff]
      rintro (hNone | rfl)
      · omega
      · exact hSome rfl
    · refine ⟨List.cons_ne_nil _ _, fun c hc => ?_, fun c hc => ?_, .inl rfl⟩
      · rw [List.mem_singleton.mp hc]
        exact hZero
      · obtain hc | hc := List.mem_append.mp hc
        · rw [List.eq_of_mem_replicate hc]
          exact hZero
        · exact hDigits c hc

/-- Scientific numerals are well formed. -/
theorem wellFormed_scientificNumeral {digits : List Char} (hSome : digits ≠ [])
    (hDigits : ∀ c ∈ digits, c.isDigit = true) (order : ℤ) :
    (s.scientificNumeral digits order).WellFormed :=
  ⟨by simpa [scientificNumeral, List.take_eq_nil_iff] using hSome,
    fun c hc => hDigits c (List.mem_of_mem_take hc), fun c hc => hDigits c (List.mem_of_mem_drop hc),
    .inr (s.isPower_powerText order)⟩

/-- Every numeral that a style chooses is well formed. -/
theorem wellFormed_numeral (d : Literal) : (s.numeral d).WellFormed := by
  have hSome := digitsOf_ne_nil d.digits
  have hDigits : ∀ c ∈ digitsOf d.digits, c.isDigit = true := fun _ => isDigit_of_mem_digitsOf
  unfold numeral
  cases s.plain with
  | none => exact s.wellFormed_positionalNumeral hSome hDigits _
  | some bounds =>
      dsimp only
      split
      · exact s.wellFormed_positionalNumeral hSome hDigits _
      · exact s.wellFormed_scientificNumeral hSome hDigits _

/-- Positional digits spell the number, the places of a whole one filled with
zeros. -/
theorem literal_positionalNumeral (n : ℕ) (exponent : ℤ) :
    (s.positionalNumeral (digitsOf n) exponent).literal = ⟨n, exponent⟩ ∨
      0 ≤ exponent ∧ ((s.positionalNumeral (digitsOf n) exponent).literal =
          ⟨n * 10 ^ exponent.toNat, 0⟩ ∨
        (s.positionalNumeral (digitsOf n) exponent).literal =
          ⟨n * 10 ^ exponent.toNat * 10, -1⟩) := by
  unfold positionalNumeral Numeral.literal
  split
  · rename_i hWhole
    refine .inr ⟨hWhole, ?_⟩
    cases s.keepsPoint with
    | false =>
        left
        simp [digitsValue_append, digitsValue_digitsOf, digitsValue_zeros, exponent?]
    | true =>
        right
        have hLast : digitsValue ['0'] (n * 10 ^ exponent.toNat) = n * 10 ^ exponent.toNat * 10 := by
          simpa using digitsValue_zeros 1 (n * 10 ^ exponent.toNat)
        simp [digitsValue_append, digitsValue_digitsOf, digitsValue_zeros, exponent?, hLast]
  · left
    dsimp only
    split
    · rename_i hNegative hPlaces
      rw [List.take_append_drop, digitsValue_digitsOf]
      simp only [exponent?, List.length_drop, Literal.mk.injEq, true_and]
      simp
      omega
    · rename_i hNegative hPlaces
      have hValue : digitsValue (['0'] ++ (List.replicate ((-exponent).toNat - (digitsOf n).length) '0'
          ++ digitsOf n)) 0 = n := by
        rw [digitsValue_append, digitsValue_append, digitsValue_zeros,
          show digitsValue ['0'] 0 = 0 from rfl, Nat.zero_mul, digitsValue_digitsOf]
      rw [hValue]
      simp [exponent?]
      omega

/-- The power of a style is read back as its exponent. -/
theorem exponent?_powerText (order : ℤ) : exponent? (s.powerText order) = some order := by
  have hSome := digitsOf_ne_nil order.natAbs
  have hDigits : ∀ c ∈ digitsOf order.natAbs, c.isDigit = true := fun _ => isDigit_of_mem_digitsOf
  have hAll := List.all_eq_true.mpr hDigits
  have hEmpty : (digitsOf order.natAbs).isEmpty = false := by simpa using hSome
  have hValue := digitsValue_digitsOf order.natAbs
  unfold powerText
  split
  · rename_i hNegative
    have hOrder : -(order.natAbs : ℤ) = order := by omega
    simp only [exponent?, hEmpty, hAll, hValue, Bool.not_true, Bool.or_self, Bool.false_eq_true,
      if_false, if_true, hOrder]
  · rename_i hNegative
    have hOrder : (order.natAbs : ℤ) = order := by omega
    cases s.signsExponent with
    | true =>
        simp only [exponent?, if_true, List.cons_append, List.nil_append, hEmpty, hAll, hValue,
          Bool.not_true, Bool.or_self, Bool.false_eq_true, if_false, hOrder]
    | false =>
        obtain ⟨c, more, hCons⟩ := List.exists_cons_of_ne_nil hSome
        have hFirst := hDigits c (hCons ▸ List.mem_cons_self)
        have hMinus := Numeral.ne_of_isDigit (d := '-') hFirst rfl
        have hPlus := Numeral.ne_of_isDigit (d := '+') hFirst rfl
        simp only [Bool.false_eq_true, if_false, List.nil_append]
        unfold exponent?
        rw [hCons]
        rw [hCons] at hAll hValue
        simpa [hMinus, hPlus, hAll, hValue] using hOrder

/-- The digits of an exponent form spell the literal as it is. -/
theorem literal_scientificNumeral (n : ℕ) (exponent : ℤ) :
    (s.scientificNumeral (digitsOf n) (exponent + ((digitsOf n).length - 1 : Nat))).literal =
      ⟨n, exponent⟩ := by
  unfold scientificNumeral Numeral.literal
  rw [exponent?_powerText, List.take_append_drop, digitsValue_digitsOf]
  simp

/-- The numeral of a literal has the literal's value, and lies as near. -/
theorem literal_numeral {d : Literal} (h : d.Near) :
    (s.numeral d).literal.value = d.value ∧ (s.numeral d).literal.Near := by
  obtain ⟨n, exponent⟩ := d
  have hPositional : (s.positionalNumeral (digitsOf n) exponent).literal.value =
        Literal.value ⟨n, exponent⟩ ∧
      (s.positionalNumeral (digitsOf n) exponent).literal.Near := by
    obtain hSame | ⟨hWhole, hSame | hSame⟩ := s.literal_positionalNumeral n exponent
    · rw [hSame]
      exact ⟨rfl, h⟩
    · rw [hSame]
      obtain ⟨e, rfl⟩ := Int.eq_ofNat_of_zero_le hWhole
      exact ⟨by simp [Literal.value], by simp [Literal.reach], by simp [Literal.reach]⟩
    · rw [hSame]
      obtain ⟨e, rfl⟩ := Int.eq_ofNat_of_zero_le hWhole
      exact ⟨by simp [Literal.value], by simp [Literal.reach], by simp [Literal.reach]⟩
  unfold numeral
  cases s.plain with
  | none => exact hPositional
  | some bounds =>
      dsimp only
      split
      · exact hPositional
      · rw [s.literal_scientificNumeral n exponent]
        exact ⟨rfl, h⟩

end Style

/-! ### Spelled numbers -/

/-- The literal that spells the magnitude of a number. -/
def literalOf (s : Style) (x : Float32) : Literal :=
  if toOrdinal x = 0 then ⟨0, 0⟩ else shortest s.tie (toOrdinal x)

/-- A finite number is spelled as its sign and the numeral of its shortest literal. -/
theorem spell_toList (s : Style) {x : Float32} (h : x.isFinite = true) :
    (spell s x).toList =
      (if Binary32.signBit x then ['-'] else []) ++ (s.numeral (literalOf s x)).text := by
  have hBody : (if x.isInf = true then ['i', 'n', 'f'] else if toOrdinal x = 0
      then spellLiteral s ⟨0, 0⟩ else spellLiteral s (shortest s.tie (toOrdinal x))) =
      (s.numeral (literalOf s x)).text := by
    rw [Binary32.isInf_of_isFinite h, ← s.spellLiteral_eq_text, literalOf]
    split
    · contradiction
    · split
      · rfl
      · rfl
  unfold spell
  rw [Binary32.isNaN_of_isFinite h]
  simp only [Bool.false_eq_true, if_false, String.toList_ofList, hBody]

/-- Every finite number reads back from its spelling. -/
theorem literal?_spelled (s : Style) {x : Float32} (h : x.isFinite = true) :
    ∃ d, literal? (s.numeral (literalOf s x)).text = some d ∧ d.nearest single = toOrdinal x := by
  have hNear : (literalOf s x).Near ∧ (literalOf s x).nearest single = toOrdinal x := by
    unfold literalOf
    split
    · rename_i hZero
      rw [hZero]
      exact ⟨⟨by decide, by decide⟩, rfl⟩
    · obtain ⟨hReads, hLow, hHigh⟩ := shortest_readsBack s.tie (toOrdinal_lt h)
      exact ⟨⟨by rw [Literal.reach]; omega, by rw [Literal.reach]; omega⟩, hReads⟩
  obtain ⟨hValue, hNumeral⟩ := s.literal_numeral hNear.1
  refine ⟨_, Numeral.literal?_text (s.wellFormed_numeral _), ?_⟩
  rw [hNumeral.nearest_congr hNear.1 hValue, hNear.2]

end Decimal

end PathTracer
