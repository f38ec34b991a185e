import PathTracer.Decimal.Style
import PathTracer.Expression.Value
import PathTracer.Parsed
import PathTracer.Text.Blank
import PathTracer.Text.Letter

/-! The words of the expression language. A point is part of a number unless
a letter follows it, so that components of a number can be selected; an
exponent after the point still belongs to the number. -/
namespace PathTracer.Expression

/-- Marks that stand for themselves. -/
inductive Mark where
  | plus
  | minus
  | times
  | slash
  | opening
  | closing
  | comma
  | point
  deriving Repr, DecidableEq

def Mark.char : Mark → Char
  | plus => '+'
  | minus => '-'
  | times => '*'
  | slash => '/'
  | opening => '('
  | closing => ')'
  | comma => ','
  | point => '.'

def Mark.ofChar? (c : Char) : Option Mark :=
  match c with
  | '+' => some plus
  | '-' => some minus
  | '*' => some times
  | '/' => some slash
  | '(' => some opening
  | ')' => some closing
  | ',' => some comma
  | '.' => some point
  | _ => none

inductive Token where
  | number (value : Float32)
  | name (text : String)
  | color (value : Value)
  | mark (mark : Mark)
  deriving Repr, DecidableEq

def Token.text : Token → String
  | number x => Decimal.spell .display x
  | name s => s
  | color _ => "#color"
  | mark m => m.char.toString

/-- Why a text is not an expression. -/
inductive ParseError where
  | emptyExpression
  | unexpectedCharacter (c : Char)
  | invalidNumber (lexeme : String)
  | colorLength (digits : String)
  | colorDigits (digits : String)
  | unexpectedToken (token : Token)
  | unexpectedEnd
  | expected (mark : Mark)
  | selectionExpected
  | invalidSelection (text : String)
  | listLength (count : Nat)
  deriving Repr, DecidableEq

def ParseError.message : ParseError → String
  | emptyExpression => "empty expression"
  | unexpectedCharacter c => s!"unexpected character '{c}'"
  | invalidNumber lexeme => s!"invalid number '{lexeme}'"
  | colorLength digits => s!"hex color '#{digits}' needs 6 or 8 digits"
  | colorDigits digits => s!"invalid hex color '#{digits}'"
  | unexpectedToken token => s!"unexpected '{token.text}'"
  | unexpectedEnd => "unexpected end of expression"
  | expected mark => s!"expected '{mark.char}'"
  | selectionExpected => "expected swizzle after '.'"
  | invalidSelection text => s!"invalid swizzle '{text}'"
  | listLength count => s!"list of {count} components"

/-- Whether a text starts with a digit. -/
def startsDigit : List Char → Bool
  | c :: _ => c.isDigit
  | [] => false

/-- Whether a text starts with a letter. -/
def startsLetter : List Char → Bool
  | c :: _ => Text.isLetter c
  | [] => false

/-- A sign that may stand before the digits of an exponent. -/
def isSign (c : Char) : Bool :=
  c = '-' || c = '+'

/-- Split the exponent off a text that starts with one: `e` or `E`, an
optional sign, and digits. -/
def splitExponent : List Char → List Char × List Char
  | e :: sign :: rest =>
    if e = 'e' || e = 'E' then
      if sign.isDigit then
        (e :: sign :: rest.takeWhile Char.isDigit, rest.dropWhile Char.isDigit)
      else if isSign sign && startsDigit rest then
        (e :: sign :: rest.takeWhile Char.isDigit, rest.dropWhile Char.isDigit)
      else ([], e :: sign :: rest)
    else ([], e :: sign :: rest)
  | text => ([], text)

/-- Whether a text starts with an exponent. -/
def startsExponent (text : List Char) : Bool :=
  !(splitExponent text).1.isEmpty

/-- Split the fraction off a text that starts with one: a point that is not
followed by a letter, except that of an exponent, and digits. -/
def splitFraction : List Char → List Char × List Char
  | '.' :: rest =>
    if startsExponent rest || !startsLetter rest then
      ('.' :: rest.takeWhile Char.isDigit, rest.dropWhile Char.isDigit)
    else ([], '.' :: rest)
  | text => ([], text)

/-- Split the number off a text that starts with one. -/
def splitNumber (text : List Char) : List Char × List Char :=
  let whole := text.takeWhile Char.isDigit
  let (fraction, afterFraction) := splitFraction (text.dropWhile Char.isDigit)
  let (exponent, rest) := splitExponent afterFraction
  (whole ++ fraction ++ exponent, rest)

/-- The value of a hexadecimal digit. -/
def hexValue? (c : Char) : Option Nat :=
  if c.isDigit then some (c.toNat - '0'.toNat)
  else if 'a' ≤ c ∧ c ≤ 'f' then some (c.toNat - 'a'.toNat + 10)
  else if 'A' ≤ c ∧ c ≤ 'F' then some (c.toNat - 'A'.toNat + 10)
  else none

/-- Bytes written as pairs of hexadecimal digits. -/
def hexBytes? : List Char → Option (List Nat)
  | [] => some []
  | [_] => none
  | high :: low :: rest => do
    let h ← hexValue? high
    let l ← hexValue? low
    let bytes ← hexBytes? rest
    return (h * 16 + l) :: bytes

/-- The color that six or eight hexadecimal digits write, as parts of 255. -/
def color (digits : List Char) : Except ParseError Value :=
  if digits.length ≠ 6 ∧ digits.length ≠ 8 then .error (.colorLength (String.ofList digits))
  else
    let value := (hexBytes? digits).bind fun bytes =>
      Value.ofList? (bytes.map fun b => b.toUInt32.toFloat32 / 255.0)
    match value with
    | some v => .ok v
    | none => .error (.colorDigits (String.ofList digits))

/-- A token with the text that follows it. -/
abbrev Lexed : Type := Token × List Char

/-- The number at the start of a text. -/
def lexNumber (text : List Char) : Except ParseError Lexed :=
  match Decimal.literal? (splitNumber text).1 with
  | some d => .ok (.number d.toSingle, (splitNumber text).2)
  | none => .error (.invalidNumber (String.ofList (splitNumber text).1))

/-- The color at the start of a text, after its number sign. -/
def lexColor (text : List Char) : Except ParseError Lexed :=
  match color (text.takeWhile Char.isAlphanum) with
  | .ok v => .ok (.color v, text.dropWhile Char.isAlphanum)
  | .error e => .error e

/-- Characters of a name after its first. -/
def isNamePart (c : Char) : Bool :=
  Text.isLetterOrNumber c || c = '_'

/-- Characters that start a name. -/
def isNameStart (c : Char) : Bool :=
  Text.isLetter c || c = '_'

/-- The token that starts with `c`. -/
def lex (c : Char) (rest : List Char) : Except ParseError Lexed :=
  if c.isDigit || (c = '.' && startsDigit rest) then lexNumber (c :: rest)
  else if c = '#' then lexColor rest
  else if isNameStart c then
    .ok (.name (String.ofList (c :: rest.takeWhile isNamePart)), rest.dropWhile isNamePart)
  else
    match Mark.ofChar? c with
    | some m => .ok (.mark m, rest)
    | none => .error (.unexpectedCharacter c)

theorem length_splitExponent_le (text : List Char) :
    (splitExponent text).2.length ≤ text.length := by
  unfold splitExponent
  split
  · rename_i rest
    have hDrop := length_dropWhile_le Char.isDigit rest
    repeat' split
    all_goals simp; try omega
  · simp

theorem length_splitFraction_le (text : List Char) :
    (splitFraction text).2.length ≤ text.length := by
  unfold splitFraction
  split
  · rename_i rest
    have hDrop := length_dropWhile_le Char.isDigit rest
    split
    · simp; omega
    · simp
  · simp

theorem length_splitNumber_lt {c : Char} {rest : List Char}
    (h : c.isDigit = true ∨ c = '.' ∧ startsDigit rest = true) :
    (splitNumber (c :: rest)).2.length < (c :: rest).length := by
  have hExponent := length_splitExponent_le (splitFraction ((c :: rest).dropWhile Char.isDigit)).2
  refine Nat.lt_of_le_of_lt hExponent ?_
  by_cases hDigit : c.isDigit = true
  · have hFraction := length_splitFraction_le ((c :: rest).dropWhile Char.isDigit)
    have hDrop := length_dropWhile_le Char.isDigit rest
    rw [List.dropWhile_cons_of_pos hDigit] at hFraction ⊢
    simp only [List.length_cons]
    omega
  · obtain ⟨rfl, hRest⟩ := h.resolve_left hDigit
    have hKept : ('.' :: rest).dropWhile Char.isDigit = '.' :: rest := by
      rw [List.dropWhile_cons_of_neg hDigit]
    have hDrop := length_dropWhile_le Char.isDigit rest
    have hLetter : startsLetter rest = false := by
      cases rest with
      | nil => rfl
      | cons d more =>
        have hd : d.isDigit = true := hRest
        simp only [Char.isDigit, Bool.and_eq_true, decide_eq_true_eq, ge_iff_le,
          UInt32.le_iff_toNat_le] at hd
        have hAlpha : d.isAlpha = false := by
          delta Char.isAlpha Char.isUpper Char.isLower
          simp only [ge_iff_le, UInt32.le_iff_toNat_le, Bool.or_eq_false_iff,
            Bool.and_eq_false_iff, decide_eq_false_iff_not]
          have := hd.2
          simp at this ⊢
          omega
        have hLow : ¬ 0x80 ≤ d.toNat := by
          have := hd.2
          simp at this
          have hEq : d.toNat = d.val.toNat := rfl
          omega
        simp [startsLetter, Text.isLetter, hAlpha, hLow]
    rw [hKept]
    simp only [splitFraction, hLetter, Bool.not_false, Bool.or_true, if_true, List.length_cons]
    omega

theorem length_lex_lt {c : Char} {rest : List Char} {lexed : Lexed}
    (h : lex c rest = .ok lexed) : lexed.2.length < (c :: rest).length := by
  unfold lex at h
  split at h
  · rename_i hNumber
    unfold lexNumber at h
    split at h
    · cases h
      exact length_splitNumber_lt (by simpa using hNumber)
    · cases h
  · split at h
    · unfold lexColor at h
      split at h
      · cases h
        exact Nat.lt_succ_of_le (length_dropWhile_le _ rest)
      · cases h
    · split at h
      · cases h
        exact Nat.lt_succ_of_le (length_dropWhile_le _ rest)
      · split at h
        · cases h
          exact Nat.lt_succ_self _
        · cases h

/-- The tokens of a text, with white space between them skipped. -/
def tokens : List Char → Except ParseError (List Token)
  | [] => .ok []
  | c :: rest =>
    if Text.isBlank c then tokens rest
    else
      match _h : lex c rest with
      | .error e => .error e
      | .ok lexed =>
        match tokens lexed.2 with
        | .error e => .error e
        | .ok more => .ok (lexed.1 :: more)
termination_by text => text.length
decreasing_by
  · simp
  · exact length_lex_lt ‹_›

/-- The tokens of a text that holds at least one. -/
def tokenize (text : String) : Except ParseError (List Token) :=
  match tokens text.toList with
  | .ok [] => .error .emptyExpression
  | result => result

end PathTracer.Expression
