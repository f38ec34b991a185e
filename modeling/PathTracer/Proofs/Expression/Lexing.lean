import Mathlib.Data.List.Basic
import PathTracer.Expression.Token
import PathTracer.Proofs.Decimal.Spelling
import PathTracer.Proofs.Shader.Reading

/-! Texts against their tokens. A text that has tokens is their lexemes one after the
other with blanks between them, and a number takes as many characters as it can. -/
namespace PathTracer.Expression

open Decimal.Numeral (IsPower)

/-! ### Numbers -/

/-- No digit is a blank. -/
theorem isBlank_of_isDigit {c : Char} (h : c.isDigit = true) : Text.isBlank c = false := by
  rw [Char.isDigit_iff_toNat] at h
  have hZero : '0'.toNat = 48 := rfl
  have hNine : '9'.toNat = 57 := rfl
  simp only [Text.isBlank, Text.inRanges, Text.blankRanges, List.any_cons, List.any_nil,
    Bool.or_eq_false_iff, Bool.and_eq_false_iff, decide_eq_false_iff_not, and_true]
  omega

def AreDigits (text : List Char) : Prop :=
  ∀ c ∈ text, c.isDigit = true

/-- The exponent of a number: a mark, and digits after an optional sign. -/
inductive IsExponent : List Char → Prop where
  | intro {mark : Char} {power : List Char} (hMark : mark = 'e' ∨ mark = 'E')
      (hPower : IsPower power) : IsExponent (mark :: power)

/-- Numbers as they are written: digits, a point among them or at either end, and an
exponent, of which the last two may be missing. -/
inductive IsNumber : List Char → Prop where
  | whole {digits exponent : List Char} (hSome : digits ≠ []) (hDigits : AreDigits digits)
      (hExponent : exponent = [] ∨ IsExponent exponent) : IsNumber (digits ++ exponent)
  | pointed {digits fraction exponent : List Char} (hSome : digits ≠ [] ∨ fraction ≠ [])
      (hDigits : AreDigits digits) (hFraction : AreDigits fraction)
      (hExponent : exponent = [] ∨ IsExponent exponent) :
      IsNumber (digits ++ '.' :: (fraction ++ exponent))

/-- A letter that follows a point of a lexeme starts an exponent. -/
def KeepsPoints (lexeme rest : List Char) : Prop :=
  ∀ before after, lexeme = before ++ '.' :: after → startsLetter (after ++ rest) = true →
    ∃ exponent more, after ++ rest = exponent ++ more ∧ IsExponent exponent

/-- A number in front of a text, of all numbers there the longest. -/
structure IsLongestNumber (lexeme rest : List Char) : Prop where
  number : IsNumber lexeme
  keepsPoints : KeepsPoints lexeme rest
  longest : ∀ other more, other ++ more = lexeme ++ rest → IsNumber other → KeepsPoints other more →
    other.length ≤ lexeme.length

/-- A scan takes at least the run that a text starts with. -/
theorem AreDigits.le_takeWhile {digits : List Char} (h : AreDigits digits) (rest : List Char) :
    digits.length ≤ ((digits ++ rest).takeWhile Char.isDigit).length := by
  rw [List.takeWhile_append_of_pos h, List.length_append]
  exact Nat.le_add_right _ _

/-- The digits at the start of a text are digits. -/
theorem areDigits_takeWhile (text : List Char) : AreDigits (text.takeWhile Char.isDigit) :=
  fun _ hc => List.mem_takeWhile_imp hc

/-- Digits have no point among them. -/
theorem AreDigits.point_not_mem {digits : List Char} (h : AreDigits digits) : '.' ∉ digits :=
  fun hMem => absurd (h '.' hMem) (by decide)

/-- A text starts with a digit exactly if there are digits to take. -/
theorem startsDigit_iff {text : List Char} :
    startsDigit text = true ↔ text.takeWhile Char.isDigit ≠ [] := by
  cases text with
  | nil => simp [startsDigit]
  | cons c rest => by_cases hDigit : c.isDigit <;> simp [startsDigit, hDigit]

namespace IsExponent

/-- An exponent starts with no digit. -/
theorem head {exponent : List Char} (h : IsExponent exponent) (rest : List Char) :
    ∀ c ∈ (exponent ++ rest).head?, c.isDigit = false ∧ c ≠ '.' := by
  obtain ⟨hMark, _⟩ := h
  rintro c hc
  obtain rfl := Option.mem_some.mp hc
  obtain rfl | rfl := hMark <;> decide

/-- An exponent has no point in it. -/
theorem point_not_mem {exponent : List Char} (h : IsExponent exponent) : '.' ∉ exponent := by
  have hDigit {digits : List Char} (hDigits : AreDigits digits) : '.' ∉ digits :=
    hDigits.point_not_mem
  obtain ⟨hMark, hPower⟩ := h
  refine List.not_mem_cons_of_ne_of_not_mem (by obtain rfl | rfl := hMark <;> decide) ?_
  cases hPower with
  | plain _ hDigits => exact hDigit hDigits
  | signed hSign _ hDigits =>
      exact List.not_mem_cons_of_ne_of_not_mem (by obtain rfl | rfl := hSign <;> decide)
        (hDigit hDigits)

end IsExponent

/-! ### Exponents that are split off -/

/-- Splitting an exponent off loses no character. -/
theorem splitExponent_append (text : List Char) :
    (splitExponent text).1 ++ (splitExponent text).2 = text := by
  unfold splitExponent
  split
  · split_ifs <;> simp
  · rfl

/-- What is split off is nothing or an exponent, with digits. -/
theorem isExponent_splitExponent (text : List Char) :
    (splitExponent text).1 = [] ∨ IsExponent (splitExponent text).1 := by
  unfold splitExponent
  split
  · rename_i mark sign rest
    split_ifs with hMark hDigit hSign
    · refine .inr ⟨by simpa using hMark, .plain (List.cons_ne_nil _ _) ?_⟩
      exact List.forall_mem_cons.mpr ⟨hDigit, areDigits_takeWhile rest⟩
    · obtain ⟨hSign, hRest⟩ := Bool.and_eq_true_iff.mp hSign
      refine .inr ⟨by simpa using hMark, .signed (by simpa [isSign] using hSign) ?_ ?_⟩
      · exact startsDigit_iff.mp hRest
      · exact areDigits_takeWhile rest
    · exact .inl rfl
    · exact .inl rfl
  · exact .inl rfl

/-- What is split off is at least any exponent that a text starts with. -/
theorem IsExponent.le_splitExponent {exponent : List Char} (h : IsExponent exponent)
    (rest : List Char) : exponent.length ≤ (splitExponent (exponent ++ rest)).1.length := by
  obtain ⟨hMark, hPower⟩ := h
  have hMark := Bool.or_eq_true_iff.mpr (hMark.imp decide_eq_true decide_eq_true)
  cases hPower with
  | plain hSome hDigits =>
      obtain ⟨c, digits, rfl⟩ := List.exists_cons_of_ne_nil hSome
      obtain ⟨hFirst, hOthers⟩ := List.forall_mem_cons.mp hDigits
      have hTaken := AreDigits.le_takeWhile hOthers rest
      simpa [splitExponent, hMark, hFirst] using hTaken
  | @signed sign digits hSign hSome hDigits =>
      have hTaken := AreDigits.le_takeWhile hDigits rest
      have hOther : sign.isDigit = false ∧ isSign sign = true := by
        obtain rfl | rfl := hSign <;> decide
      have hStarts : startsDigit (digits ++ rest) = true := by
        rw [startsDigit_iff, ← List.length_pos_iff]
        exact Nat.lt_of_lt_of_le (List.length_pos_iff.mpr hSome) hTaken
      simpa [splitExponent, hMark, hOther, hStarts] using hTaken

/-- A text starts with an exponent exactly if one can be split off. An e without digits is
none. -/
theorem startsExponent_iff {text : List Char} : startsExponent text = true ↔
    ∃ exponent more, text = exponent ++ more ∧ IsExponent exponent := by
  constructor
  · intro h
    have hSome : (splitExponent text).1 ≠ [] := by simpa [startsExponent] using h
    exact ⟨_, _, (splitExponent_append text).symm, (isExponent_splitExponent text).resolve_left hSome⟩
  · rintro ⟨exponent, more, rfl, hExponent⟩
    have hTaken := hExponent.le_splitExponent more
    obtain ⟨_, _⟩ := hExponent
    simp only [startsExponent, Bool.not_eq_true', List.isEmpty_eq_false_iff, ← List.length_pos_iff]
    exact Nat.lt_of_lt_of_le (by simp) hTaken

/-! ### Fractions that are split off -/

/-- Whether a point in front of a text belongs to the number before it. -/
def pointBelongs (rest : List Char) : Bool :=
  startsExponent rest || !startsLetter rest

/-- A point that belongs to a number is taken with the digits behind it, also if there are
none. -/
theorem splitFraction_point {rest : List Char} (h : pointBelongs rest = true) :
    splitFraction ('.' :: rest) =
      ('.' :: rest.takeWhile Char.isDigit, rest.dropWhile Char.isDigit) := by
  rw [splitFraction]
  exact if_pos h

/-- A point that does not belong to a number stays, as one of a selection. -/
theorem splitFraction_other {text : List Char}
    (h : ∀ rest, text = '.' :: rest → pointBelongs rest = false) : splitFraction text = ([], text) := by
  unfold splitFraction
  split
  · rename_i rest
    exact if_neg (Bool.not_eq_true _ ▸ h rest rfl)
  · rfl

/-- A fraction is split off exactly where there is a point that belongs to the number. -/
theorem splitFraction_cases (text : List Char) :
    (∃ rest, text = '.' :: rest ∧ pointBelongs rest = true) ∨
      ∀ rest, text = '.' :: rest → pointBelongs rest = false := by
  by_cases h : ∃ rest, text = '.' :: rest ∧ pointBelongs rest = true
  · exact .inl h
  · refine .inr fun rest hText => ?_
    simpa using fun hPoint => h ⟨rest, hText, hPoint⟩

/-- A point is kept where it belongs to the number. -/
theorem pointBelongs_of_keepsPoints {before after more : List Char}
    (h : KeepsPoints (before ++ '.' :: after) more) : pointBelongs (after ++ more) = true := by
  cases hLetter : startsLetter (after ++ more) with
  | false => simp [pointBelongs, hLetter]
  | true =>
      have hExponent := startsExponent_iff.mpr (h before after rfl hLetter)
      simp [pointBelongs, hExponent]

/-! ### Numbers that are split off -/

/-- A number with a point goes on with digits and an exponent. -/
theorem splitNumber_pointed {digits rest : List Char} (hDigits : AreDigits digits)
    (h : pointBelongs rest = true) :
    splitNumber (digits ++ '.' :: rest) =
      (digits ++ '.' :: (rest.takeWhile Char.isDigit ++
          (splitExponent (rest.dropWhile Char.isDigit)).1),
        (splitExponent (rest.dropWhile Char.isDigit)).2) := by
  have hPoint : ∀ c ∈ ('.' :: rest).head?, c.isDigit = false := by simp
  obtain ⟨hTake, hDrop⟩ := scan_append hDigits hPoint
  rw [splitNumber, hTake, hDrop, splitFraction_point h]
  simp

/-- A number without a point goes on with an exponent. -/
theorem splitNumber_whole {digits rest : List Char} (hDigits : AreDigits digits)
    (hRest : ∀ c ∈ rest.head?, c.isDigit = false)
    (h : ∀ more, rest = '.' :: more → pointBelongs more = false) :
    splitNumber (digits ++ rest) =
      (digits ++ (splitExponent rest).1, (splitExponent rest).2) := by
  obtain ⟨hTake, hDrop⟩ := scan_append hDigits hRest
  rw [splitNumber, hTake, hDrop, splitFraction_other h]
  simp

/-- Where a scan stops. -/
theorem head?_dropWhile (p : Char → Bool) (text : List Char) :
    ∀ c ∈ (text.dropWhile p).head?, p c = false := by
  intro c hc
  have hHead := List.head?_dropWhile_not p text
  rw [Option.mem_def.mp hc] at hHead
  simpa using hHead

/-- Where digits in front of a text end. -/
theorem exists_digits (text : List Char) : ∃ digits rest, AreDigits digits ∧
    text = digits ++ rest ∧ ∀ c ∈ rest.head?, c.isDigit = false := by
  exact ⟨_, _, areDigits_takeWhile text, List.takeWhile_append_dropWhile.symm,
    head?_dropWhile Char.isDigit text⟩

/-- Splitting a number off loses no character. -/
theorem splitNumber_append (text : List Char) :
    (splitNumber text).1 ++ (splitNumber text).2 = text := by
  obtain ⟨digits, tail, hDigits, rfl, hTail⟩ := exists_digits text
  obtain ⟨rest, rfl, hPoint⟩ | hOther := splitFraction_cases tail
  · have hExponent := splitExponent_append (rest.dropWhile Char.isDigit)
    rw [splitNumber_pointed hDigits hPoint]
    simp [hExponent]
  · rw [splitNumber_whole hDigits hTail hOther, List.append_assoc, splitExponent_append]

/-- A point that belongs to a number is the only one in it. -/
theorem keepsPoints_splitNumber (text : List Char) :
    KeepsPoints (splitNumber text).1 (splitNumber text).2 := by
  obtain ⟨digits, tail, hDigits, rfl, hTail⟩ := exists_digits text
  have hExponent (more : List Char) : '.' ∉ (splitExponent more).1 := by
    obtain hNone | hSome := isExponent_splitExponent more
    · simp [hNone]
    · exact hSome.point_not_mem
  intro before after hLexeme hLetter
  obtain ⟨rest, rfl, hPoint⟩ | hOther := splitFraction_cases tail
  · have hText := splitExponent_append (rest.dropWhile Char.isDigit)
    rw [splitNumber_pointed hDigits hPoint] at hLexeme hLetter ⊢
    dsimp only at hLexeme hLetter ⊢
    have hRest : '.' ∉ rest.takeWhile Char.isDigit ++
        (splitExponent (rest.dropWhile Char.isDigit)).1 :=
      List.not_mem_append (areDigits_takeWhile rest).point_not_mem (hExponent _)
    obtain ⟨-, -, rfl⟩ :=
      (List.append_cons_inj_of_notMem hDigits.point_not_mem hRest).mp hLexeme
    rw [List.append_assoc, hText, List.takeWhile_append_dropWhile] at hLetter ⊢
    refine startsExponent_iff.mp ?_
    simpa [pointBelongs, hLetter] using hPoint
  · rw [splitNumber_whole hDigits hTail hOther] at hLexeme
    dsimp only at hLexeme
    have hMem : '.' ∈ digits ++ (splitExponent tail).1 := by
      rw [hLexeme]
      simp
    exact absurd hMem (List.not_mem_append hDigits.point_not_mem (hExponent tail))

/-- No number in front of a text is longer than the one that is split off. -/
theorem le_splitNumber {other more : List Char} (h : IsNumber other)
    (hPoints : KeepsPoints other more) :
    other.length ≤ (splitNumber (other ++ more)).1.length := by
  cases h with
  | @whole digits exponent hSome hDigits hExponent =>
      obtain rfl | hExponent := hExponent
      · have hTaken := hDigits.le_takeWhile more
        rw [List.append_nil, splitNumber]
        dsimp only
        simp only [List.length_append]
        omega
      · have hHead := hExponent.head more
        have hTaken := hExponent.le_splitExponent more
        have hWhole : ∀ rest, exponent ++ more = '.' :: rest → pointBelongs rest = false := by
          intro rest hText
          exact absurd rfl (hHead '.' (by rw [hText]; rfl)).2
        rw [List.append_assoc, splitNumber_whole hDigits (fun c hc => (hHead c hc).1) hWhole]
        simpa using hTaken
  | @pointed digits fraction exponent hSome hDigits hFraction hExponent =>
      have hPoint := pointBelongs_of_keepsPoints hPoints
      rw [List.append_assoc, List.cons_append, splitNumber_pointed hDigits hPoint]
      simp only [List.length_append, List.length_cons, List.append_assoc]
      obtain rfl | hExponent := hExponent
      · have hTaken := hFraction.le_takeWhile more
        simp only [List.nil_append, List.length_nil] at hTaken ⊢
        omega
      · obtain ⟨hTake, hDrop⟩ := scan_append hFraction fun c hc => (hExponent.head more c hc).1
        have hTaken := hExponent.le_splitExponent more
        rw [hTake, hDrop]
        omega

/-- A point before a digit belongs to a number. -/
theorem pointBelongs_of_startsDigit {rest : List Char} (h : startsDigit rest = true) :
    pointBelongs rest = true := by
  have hLetter := Shader.startsLetter_append (startsDigit_iff.mp h) (areDigits_takeWhile rest)
    (rest.dropWhile Char.isDigit)
  rw [List.takeWhile_append_dropWhile] at hLetter
  simp [pointBelongs, hLetter]

/-- A text that starts with a digit, or with a point and a digit. -/
def StartsNumber (text : List Char) : Prop :=
  startsDigit text = true ∨ ∃ rest, text = '.' :: rest ∧ startsDigit rest = true

/-- Where a number starts, what is split off is one. -/
theorem isNumber_splitNumber {text : List Char} (h : StartsNumber text) :
    IsNumber (splitNumber text).1 := by
  obtain ⟨digits, tail, hDigits, rfl, hTail⟩ := exists_digits text
  -- Without a digit in front the point has to be there, with a digit behind it.
  have hStart : digits ≠ [] ∨ ∃ rest, tail = '.' :: rest ∧ startsDigit rest = true := by
    rcases digits with _ | ⟨c, more⟩
    · refine .inr (h.resolve_left fun hDigit => ?_)
      rw [List.nil_append, startsDigit_iff] at hDigit
      have hNone : ([] ++ tail).takeWhile Char.isDigit = [] := (scan_append (by simp) hTail).1
      exact hDigit hNone
    · exact .inl (List.cons_ne_nil c more)
  obtain ⟨rest, rfl, hPoint⟩ | hOther := splitFraction_cases tail
  · rw [splitNumber_pointed hDigits hPoint]
    refine .pointed (hStart.imp_right ?_) hDigits (areDigits_takeWhile rest)
      (isExponent_splitExponent _)
    rintro ⟨rest, hSame, hDigit⟩
    obtain rfl := (List.cons.inj hSame).2
    exact startsDigit_iff.mp hDigit
  · rw [splitNumber_whole hDigits hTail hOther]
    refine .whole (hStart.resolve_right ?_) hDigits (isExponent_splitExponent tail)
    rintro ⟨rest, hText, hDigit⟩
    exact absurd (hOther rest hText) (by simp [pointBelongs_of_startsDigit hDigit])

/-- What is split off is the longest number in front of the text. -/
theorem isLongestNumber_splitNumber {text : List Char} (h : StartsNumber text) :
    IsLongestNumber (splitNumber text).1 (splitNumber text).2 := by
  refine ⟨isNumber_splitNumber h, keepsPoints_splitNumber text, ?_⟩
  intro other more hText hNumber hPoints
  rw [splitNumber_append] at hText
  exact hText ▸ le_splitNumber hNumber hPoints

/-! ### Values of numbers -/

/-- Whatever is written as a number has a value. -/
theorem IsNumber.exists_literal {text : List Char} (h : IsNumber text) :
    ∃ d, Decimal.literal? text = some d := by
  have hHead {exponent : List Char} (hExponent : exponent = [] ∨ IsExponent exponent) :
      ∀ c ∈ exponent.head?, c.isDigit = false ∧ c ≠ '.' := by
    obtain rfl | hExponent := hExponent
    · simp
    · simpa using hExponent.head []
  cases h with
  | whole hSome hDigits hExponent =>
      obtain ⟨hTake, hDrop⟩ := scan_append hDigits fun c hc => (hHead hExponent c hc).1
      unfold Decimal.literal?
      rw [hTake, hDrop]
      obtain rfl | ⟨hMark, hPower⟩ := hExponent
      · simp [hSome]
      · obtain ⟨e, hValue⟩ := hPower.exponent?
        obtain rfl | rfl := hMark <;> simp [hSome, hValue]
  | @pointed digits fraction exponent hSome hDigits hFraction hExponent =>
      obtain ⟨hTake, hDrop⟩ := scan_append hFraction fun c hc => (hHead hExponent c hc).1
      have hPoint : ∀ c ∈ ('.' :: (fraction ++ exponent)).head?, c.isDigit = false := by simp
      obtain ⟨hTakeAll, hDropAll⟩ := scan_append hDigits hPoint
      unfold Decimal.literal?
      rw [hTakeAll, hDropAll]
      simp only [hTake, hDrop]
      have hSome : ¬ (_ = [] ∧ _ = []) := not_and_or.mpr hSome
      obtain rfl | ⟨hMark, hPower⟩ := hExponent
      · simp [hSome]
      · obtain ⟨e, hValue⟩ := hPower.exponent?
        obtain rfl | rfl := hMark <;> simp [hSome, hValue]

/-! ### Lexemes -/

/-- A token as it is written in front of a text. No token can be written longer there. -/
inductive IsLexeme : Token → List Char → List Char → Prop where
  | number {lexeme rest : List Char} {d : Decimal.Literal} (hLongest : IsLongestNumber lexeme rest)
      (hValue : Decimal.literal? lexeme = some d) : IsLexeme (.number d.toSingle) lexeme rest
  | name {c : Char} {more rest : List Char} (hFirst : isNameStart c = true)
      (hMore : ∀ d ∈ more, isNamePart d = true) (hEnd : ∀ d ∈ rest.head?, isNamePart d = false) :
      IsLexeme (.name (String.ofList (c :: more))) (c :: more) rest
  | color {digits rest : List Char} {v : Value} (hDigits : ∀ d ∈ digits, d.isAlphanum = true)
      (hEnd : ∀ d ∈ rest.head?, d.isAlphanum = false) (hValue : color digits = .ok v) :
      IsLexeme (.color v) ('#' :: digits) rest
  | mark {m : Mark} {rest : List Char} (hPoint : m = .point → startsDigit rest = false) :
      IsLexeme (.mark m) [m.char] rest

/-- A mark is written as the character it was read from. -/
theorem Mark.char_of_ofChar? {c : Char} {m : Mark} (h : ofChar? c = some m) : m.char = c := by
  unfold ofChar? at h
  split at h <;> cases h <;> rfl

/-- Where a number starts it is read, and it is the longest one there. -/
theorem lexNumber_eq_ok {text : List Char} (h : StartsNumber text) :
    ∃ token, lexNumber text = .ok (token, (splitNumber text).2) ∧
      IsLexeme token (splitNumber text).1 (splitNumber text).2 := by
  have hLongest := isLongestNumber_splitNumber h
  obtain ⟨d, hValue⟩ := hLongest.number.exists_literal
  exact ⟨_, by rw [lexNumber, hValue], .number hLongest hValue⟩

/-- The first character, and with a point the second one, tell whether a number starts. -/
theorem startsNumber_iff {c : Char} {rest : List Char} :
    (c.isDigit || (decide (c = '.') && startsDigit rest)) = true ↔ StartsNumber (c :: rest) := by
  simp [StartsNumber, startsDigit]

/-- The token in front of a text and the text behind it are a lexeme with its rest. -/
theorem isLexeme_of_lex {c : Char} {rest more : List Char} {token : Token}
    (h : lex c rest = .ok (token, more)) :
    ∃ lexeme, c :: rest = lexeme ++ more ∧ IsLexeme token lexeme more := by
  unfold lex at h
  split at h
  · rename_i hNumber
    obtain ⟨found, hLex, hLexeme⟩ := lexNumber_eq_ok (startsNumber_iff.mp hNumber)
    rw [hLex] at h
    cases h
    exact ⟨_, (splitNumber_append _).symm, hLexeme⟩
  · rename_i hNumber
    split at h
    · rename_i hSharp
      unfold lexColor at h
      split at h
      · rename_i v hValue
        cases h
        refine ⟨'#' :: rest.takeWhile Char.isAlphanum, by simp [hSharp], ?_⟩
        exact .color (fun _ hd => List.mem_takeWhile_imp hd) (head?_dropWhile _ rest) hValue
      · cases h
    · split at h
      · rename_i hName
        cases h
        refine ⟨c :: rest.takeWhile isNamePart, by simp, ?_⟩
        exact .name hName (fun _ hd => List.mem_takeWhile_imp hd) (head?_dropWhile _ rest)
      · split at h
        · rename_i m hMark
          cases h
          have hChar := Mark.char_of_ofChar? hMark
          refine ⟨[m.char], by simp [hChar], .mark ?_⟩
          rintro rfl
          obtain rfl : '.' = c := hChar
          simpa using hNumber
        · cases h

/-- Reading a number does not fail. -/
theorem lex_ne_invalidNumber (c : Char) (rest : List Char) (lexeme : String) :
    lex c rest ≠ .error (.invalidNumber lexeme) := by
  unfold lex
  split
  · rename_i hNumber
    obtain ⟨found, hLex, -⟩ := lexNumber_eq_ok (startsNumber_iff.mp hNumber)
    rw [hLex]
    simp
  · split
    · unfold lexColor color
      dsimp only
      split
      · simp
      · rename_i d hValue
        split at hValue
        · cases hValue
          simp
        · split at hValue
          · cases hValue
          · cases hValue
            simp
    · split
      · simp
      · split <;> simp

/-! ### Texts -/

/-- A part of a text: a blank, or a lexeme with its token. -/
inductive Piece where
  | blank (c : Char)
  | lexeme (text : List Char) (token : Token)

namespace Piece

def text : Piece → List Char
  | blank c => [c]
  | lexeme text _ => text

def token? : Piece → Option Token
  | blank _ => none
  | lexeme _ token => some token

/-- Pieces one after the other: blanks, and lexemes in front of the text that follows. -/
inductive Follow : List Piece → Prop where
  | nil : Follow []
  | blank {c : Char} {more : List Piece} (hBlank : Text.isBlank c = true) (hMore : Follow more) :
      Follow (blank c :: more)
  | lexeme {lexeme : List Char} {token : Token} {more : List Piece}
      (hLexeme : IsLexeme token lexeme (more.flatMap text)) (hMore : Follow more) :
      Follow (.lexeme lexeme token :: more)

end Piece

/-- The pieces of a text that has tokens. -/
theorem exists_pieces (text : List Char) : ∀ {ts : List Token}, tokens text = .ok ts →
    ∃ pieces, Piece.Follow pieces ∧ pieces.flatMap Piece.text = text ∧
      pieces.filterMap Piece.token? = ts := by
  fun_induction tokens text with
  | case1 =>
      rintro ts ⟨⟩
      exact ⟨[], .nil, rfl, rfl⟩
  | case2 c rest hBlank ih =>
      intro ts h
      obtain ⟨pieces, hFollow, hText, hTokens⟩ := ih h
      exact ⟨.blank c :: pieces, .blank hBlank hFollow, by simp [Piece.text, hText],
        hTokens⟩
  | case3 => simp
  | case4 => simp
  | case5 c rest _ lexed hLex more hMore ih =>
      rintro ts ⟨⟩
      obtain ⟨pieces, hFollow, hText, hTokens⟩ := ih hMore
      obtain ⟨lexeme, hRest, hLexeme⟩ := isLexeme_of_lex hLex
      refine ⟨.lexeme lexeme lexed.1 :: pieces, .lexeme (hText ▸ hLexeme) hFollow, ?_, ?_⟩
      · simp [Piece.text, hText, hRest]
      · simp [Piece.token?, hTokens]

/-- No text fails for an invalid number: what is split off always spells one. -/
theorem tokens_ne_invalidNumber (text : List Char) (lexeme : String) :
    tokens text ≠ .error (.invalidNumber lexeme) := by
  fun_induction tokens text with
  | case1 => simp
  | case2 c rest hBlank ih => exact ih
  | case3 c rest _ d hLex =>
      rintro ⟨⟩
      exact lex_ne_invalidNumber c rest lexeme hLex
  | case4 c rest _ lexed hLex d hMore ih =>
      rintro ⟨⟩
      exact ih hMore
  | case5 => simp

/-- The tokens of a text in at most so many steps, each of which passes over a blank or
reads a token. -/
def tokensWithin : Nat → List Char → Option (Except ParseError (List Token))
  | _, [] => some (.ok [])
  | 0, _ :: _ => none
  | n + 1, c :: rest =>
    if Text.isBlank c then tokensWithin n rest
    else
      match lex c rest with
      | .error e => some (.error e)
      | .ok (token, more) => (tokensWithin n more).map (·.map (token :: ·))

/-- A text takes no more steps than it has characters. -/
theorem tokensWithin_eq (text : List Char) :
    ∀ {n : Nat}, text.length ≤ n → tokensWithin n text = some (tokens text) := by
  fun_induction tokens text with
  | case1 =>
      intro n _
      rw [tokensWithin]
  | case2 c rest hBlank ih =>
      rintro (_ | n) hLength
      · simp at hLength
      · rw [tokensWithin, if_pos hBlank, ih (by simpa using hLength)]
  | case3 c rest hBlank d hLex =>
      rintro (_ | n) hLength
      · simp at hLength
      · rw [tokensWithin, if_neg hBlank, hLex]
  | case4 c rest hBlank lexed hLex d hMore ih =>
      rintro (_ | n) hLength
      · simp at hLength
      · have hShorter := length_lex_lt hLex
        rw [tokensWithin, if_neg hBlank, hLex]
        dsimp only
        rw [ih (by simp only [List.length_cons] at hLength hShorter; omega), hMore]
        rfl
  | case5 c rest hBlank lexed hLex more hMore ih =>
      rintro (_ | n) hLength
      · simp at hLength
      · have hShorter := length_lex_lt hLex
        rw [tokensWithin, if_neg hBlank, hLex]
        dsimp only
        rw [ih (by simp only [List.length_cons] at hLength hShorter; omega), hMore]
        rfl

/-! ### Tokens one by one -/

/-- A blank before tokens is skipped. -/
theorem tokens_of_blank {c : Char} (h : Text.isBlank c = true) (rest : List Char) :
    tokens (c :: rest) = tokens rest := by
  rw [tokens, if_pos h]

/-- A lexeme gives one token, and reading goes on behind it. -/
theorem tokens_of_lex {c : Char} {rest more : List Char} {token : Token}
    (hBlank : Text.isBlank c = false) (hLex : lex c rest = .ok (token, more)) :
    tokens (c :: rest) = (tokens more).map (token :: ·) := by
  rw [tokens, if_neg (by simp [hBlank])]
  split
  · rename_i e hError
    rw [hLex] at hError
    cases hError
  · rename_i lexed hSame
    obtain rfl := Except.ok.inj (hLex.symm.trans hSame)
    cases tokens more <;> rfl

/-- A text with tokens is made of pieces, lexemes and blanks, that could not have been split
elsewhere. -/
theorem exists_pieces_of_tokenize {source : String} {ts : List Token}
    (h : tokenize source = .ok ts) :
    ∃ pieces, Piece.Follow pieces ∧ pieces.flatMap Piece.text = source.toList ∧
      pieces.filterMap Piece.token? = ts := by
  unfold tokenize at h
  split at h
  · cases h
  · exact exists_pieces source.toList h

/-- A text with tokens is their lexemes one after the other with blanks between them, where
each number is the longest one at its place. No text has a number that is none, and reading
ends after as many steps as the text has characters. Where a text is refused, nothing is
said of what stands before the fault. -/
theorem tokenize_lossless (source : String) :
    (∀ ts, tokenize source = .ok ts → ∃ pieces, Piece.Follow pieces ∧
      pieces.flatMap Piece.text = source.toList ∧ pieces.filterMap Piece.token? = ts) ∧
    (∀ lexeme, tokenize source ≠ .error (.invalidNumber lexeme)) ∧
    tokensWithin source.length source.toList = some (tokens source.toList) := by
  refine ⟨fun ts h => exists_pieces_of_tokenize h, fun lexeme h => ?_,
    tokensWithin_eq _ (Nat.le_refl _)⟩
  unfold tokenize at h
  split at h
  · cases h
  · exact tokens_ne_invalidNumber source.toList lexeme h

/-- The point after the first number is its own mark, since the letter behind it starts no
exponent. -/
theorem tokenize_lossless_selection :
    ∃ x y, tokenize "1.x 2.e5" = .ok [.number x, .mark .point, .name "x", .number y] ∧
      ∃ pieces, Piece.Follow pieces ∧ pieces.flatMap Piece.text = "1.x 2.e5".toList ∧
        pieces.filterMap Piece.token? = [.number x, .mark .point, .name "x", .number y] := by
  let x := Decimal.Literal.toSingle ⟨1, 0⟩
  let y := Decimal.Literal.toSingle ⟨2, 5⟩
  have hSource : "1.x 2.e5".toList = ['1', '.', 'x', ' ', '2', '.', 'e', '5'] := rfl
  have hFirst : lex '1' ['.', 'x', ' ', '2', '.', 'e', '5'] =
    .ok (.number x, ['.', 'x', ' ', '2', '.', 'e', '5']) := rfl
  have hPoint : lex '.' ['x', ' ', '2', '.', 'e', '5'] =
    .ok (.mark .point, ['x', ' ', '2', '.', 'e', '5']) := rfl
  have hName : lex 'x' [' ', '2', '.', 'e', '5'] = .ok (.name "x", [' ', '2', '.', 'e', '5']) := rfl
  have hSecond : lex '2' ['.', 'e', '5'] = .ok (.number y, []) := rfl
  have hTokens : tokenize "1.x 2.e5" = .ok [.number x, .mark .point, .name "x", .number y] := by
    rw [tokenize, hSource, tokens_of_lex (by decide) hFirst, tokens_of_lex (by decide) hPoint,
      tokens_of_lex (by decide) hName, tokens_of_blank (by decide),
      tokens_of_lex (by decide) hSecond, tokens]
    rfl
  exact ⟨x, y, hTokens, (tokenize_lossless _).1 _ hTokens⟩

end PathTracer.Expression
