import PathTracer.Proofs.Decimal.Spelling
import PathTracer.Shader.Program

/-! Expressions of generated code read back from their text. What stands in
brackets of its own is read first, a negation with the bracket behind its sign
included, and the selections and indices that follow are put around it. -/
namespace PathTracer.Shader

open Expression (isNamePart isNameStart splitNumber splitFraction splitExponent)

/-- What is found at the start of a text, and the text behind it. -/
abbrev Reader (α : Type) : Type := List Char → Option (α × List Char)

/-- The text behind a word that stands at its start. -/
def skip : List Char → List Char → Option (List Char)
  | [], text => some text
  | c :: word, d :: text => if c = d then skip word text else none
  | _ :: _, [] => none

/-! ### Names -/

/-- A name at the start of a text. -/
def splitName (text : List Char) : String × List Char :=
  (String.ofList (text.takeWhile isNamePart), text.dropWhile isNamePart)

/-- The word at the start of a type. -/
def Ty.word : Ty → String
  | .f32 => "f32"
  | .vec2 => "vec2"
  | .vec3 => "vec3"
  | .vec4 => "vec4"
  | .i32 => "i32"
  | .u32 => "u32"
  | .bool => "bool"
  | .named name => name

/-- The type of the components, which vectors name. -/
def Ty.argument : Ty → String
  | .vec2 => "<f32>"
  | .vec3 => "<f32>"
  | .vec4 => "<f32>"
  | _ => ""

/-- The text of a type is its word with an argument in angle brackets, if it has one. -/
theorem Ty.text_eq (type : Ty) : type.text = type.word ++ type.argument := by
  cases type <;> simp [text, word, argument]

/-- The type that a word opens, unless it is a name. -/
def Ty.ofWord? (word : String) : Option Ty :=
  [Ty.f32, .vec2, .vec3, .vec4, .i32, .u32, .bool].find? fun type => type.word == word

/-- Words that open statements. -/
def keywords : List String := ["let", "var", "return", "if"]

/-- Names that are neither types nor keywords. -/
def isName (name : String) : Bool :=
  Material.isIdentifier name && (Ty.ofWord? name).isNone && !keywords.contains name

/-- A text that does not go on with a name, a number or a call. -/
def Bounded (text : List Char) : Prop :=
  ∀ c ∈ text.head?, isNamePart c = false ∧ c ≠ '('

/-- A text in which nothing more belongs to the expression before it. -/
def Ends (text : List Char) : Prop :=
  ∀ c ∈ text.head?, c = ')' ∨ c = ']' ∨ c = ',' ∨ c = ' ' ∨ c = ';'

/-- Where an expression ends no name and no number goes on. -/
theorem Ends.bounded {text : List Char} (h : Ends text) : Bounded text := by
  intro c hc
  obtain rfl | rfl | rfl | rfl | rfl := h c hc <;> decide

/-- A digit can stand inside of a name, though not at its start. -/
theorem isNamePart_of_isDigit {c : Char} (h : c.isDigit = true) : isNamePart c = true := by
  simp [isNamePart, Text.isLetterOrNumber, Text.isNumber, h]

/-- What can start a name can stand inside of one. -/
theorem isNamePart_of_isNameStart {c : Char} (h : isNameStart c = true) : isNamePart c = true := by
  simp only [isNameStart, isNamePart, Text.isLetterOrNumber, Bool.or_eq_true] at h ⊢
  exact h.imp_left .inl

/-- Names do not start with a digit. -/
theorem isDigit_of_isNameStart {c : Char} (h : isNameStart c = true) : c.isDigit = false := by
  by_contra hDigit
  rw [Bool.not_eq_false, Char.isDigit_iff_toNat] at hDigit
  have hLow : 48 ≤ c.val.toNat ∧ c.val.toNat ≤ 57 := hDigit
  have hOther : c ≠ '_' := by
    rintro rfl
    simp at hLow
  simp only [isNameStart, hOther, decide_false, Bool.or_false, Text.isLetter, Bool.or_eq_true,
    Bool.and_eq_true, decide_eq_true_eq, Char.isAlpha, Char.isUpper, Char.isLower, ge_iff_le,
    UInt32.le_iff_toNat_le] at h
  obtain (hUpper | hLower) | hHigh := h
  · exact absurd (hUpper.1.trans hLow.2) (by decide)
  · exact absurd (hLower.1.trans hLow.2) (by decide)
  · exact absurd (hHigh.1.trans hLow.2) (by decide)

/-- The characters of a name. -/
theorem isIdentifier_iff {name : String} :
    Material.isIdentifier name = true ↔ ∃ c rest, name.toList = c :: rest ∧
      isNameStart c = true ∧ ∀ d ∈ rest, isNamePart d = true := by
  unfold Material.isIdentifier
  cases name.toList with
  | nil => simp
  | cons c rest => simp

/-- Identifiers of materials consist of characters that the shader language allows in names.
-/
theorem isNamePart_of_isIdentifier {name : String} (h : Material.isIdentifier name = true) :
    ∀ c ∈ name.toList, isNamePart c = true := by
  obtain ⟨first, rest, hList, hFirst, hRest⟩ := isIdentifier_iff.mp h
  rw [hList]
  intro c hc
  obtain rfl | hc := List.mem_cons.mp hc
  · exact isNamePart_of_isNameStart hFirst
  · exact hRest c hc

/-- A name is read up to the first character that cannot stand in one, so that it is read
back wherever such a character follows. -/
theorem splitName_append {name : String} {rest : List Char}
    (h : ∀ c ∈ name.toList, isNamePart c = true) (hRest : ∀ c ∈ rest.head?, isNamePart c = false) :
    splitName (name.toList ++ rest) = (name, rest) := by
  obtain ⟨hTake, hDrop⟩ := scan_append h hRest
  rw [splitName, hTake, hDrop, String.ofList_toList]

/-! ### Types -/

/-- A type at the start of a text. -/
def readType (text : List Char) : Option (Ty × List Char) :=
  let (word, rest) := splitName text
  match Ty.ofWord? word with
  | none => some (.named word, rest)
  | some type => (skip type.argument.toList rest).map fun rest => (type, rest)

/-- Types that do not take the name of another one. -/
def Ty.isProper : Ty → Bool
  | .named name => isName name
  | _ => true

/-- Names of the shader language are the identifiers of materials that are neither types nor
keywords. -/
theorem isName_iff {name : String} : isName name = true ↔
    Material.isIdentifier name = true ∧ Ty.ofWord? name = none ∧ name ∉ keywords := by
  simp [isName, and_assoc]

/-- A word is skipped where it stands first. -/
theorem skip_append (word text : List Char) : skip word (word ++ text) = some text := by
  induction word with
  | nil => cases text <;> rfl
  | cons c word ih => simp [skip, ih]

/-- The text of a type is read back as the type where no part of a name follows. -/
theorem readType_text {type : Ty} (h : type.isProper = true) {rest : List Char}
    (hRest : ∀ c ∈ rest.head?, isNamePart c = false) :
    readType (type.text.toList ++ rest) = some (type, rest) := by
  have hParts : ∀ c ∈ type.word.toList, isNamePart c = true := by
    cases type with
    | named name => exact isNamePart_of_isIdentifier (isName_iff.mp h).1
    | _ => exact List.all_eq_true.mp (by decide)
  have hArgument : ∀ c ∈ (type.argument.toList ++ rest).head?, isNamePart c = false := by
    cases type <;> first | simpa [Ty.argument] using hRest | simp +decide [Ty.argument]
  have hWord : Ty.ofWord? type.word = none ∧ type = .named type.word ∧ type.argument = "" ∨
      Ty.ofWord? type.word = some type := by
    cases type with
    | named name => exact .inl ⟨(isName_iff.mp h).2.1, rfl, rfl⟩
    | _ => exact .inr (by decide)
  rw [Ty.text_eq, String.toList_append, List.append_assoc, readType,
    splitName_append hParts hArgument]
  obtain ⟨hNone, hNamed, hEmpty⟩ | hSome := hWord
  · simp only [hNone, hEmpty, String.toList_empty, List.nil_append]
    rw [← hNamed]
  · simp only [hSome, skip_append, Option.map_some]

/-! ### Numbers -/

/-- What follows a number. A letter that marks its type is none of its own. -/
structure EndsNumber (text : List Char) : Prop where
  digit : ∀ c ∈ text.head?, c.isDigit = false
  exponent : ∀ c ∈ text.head?, c ≠ 'e' ∧ c ≠ 'E'

/-- A number ends where no part of a name follows. -/
theorem EndsNumber.of_isNamePart {text : List Char}
    (h : ∀ c ∈ text.head?, isNamePart c = false) : EndsNumber text := by
  have hPart {d : Char} (hPart : isNamePart d = true) : ∀ c ∈ text.head?, c ≠ d := by
    rintro c hc rfl
    rw [h c hc] at hPart
    cases hPart
  refine ⟨fun c hc => ?_, fun c hc => ⟨hPart (by decide) c hc, hPart (by decide) c hc⟩⟩
  by_contra hDigit
  exact hPart (isNamePart_of_isDigit (by simpa using hDigit)) c hc rfl

/-- What bounds a name also ends a number. -/
theorem Bounded.endsNumber {text : List Char} (h : Bounded text) : EndsNumber text :=
  .of_isNamePart fun c hc => (h c hc).1

/-- The exponent of a numeral is read back, with its sign, where the number ends. -/
theorem splitExponent_append {n : Decimal.Numeral} (h : n.WellFormed) {rest : List Char}
    (hRest : EndsNumber rest) : splitExponent (n.powerText ++ rest) = (n.powerText, rest) := by
  unfold Decimal.Numeral.powerText
  obtain hPlain | hPower := h.power
  · rw [if_pos hPlain, List.nil_append]
    match rest with
    | [] => rfl
    | [_] => rfl
    | c :: d :: more =>
        have hOther := hRest.exponent c rfl
        simp [splitExponent, hOther]
  · rw [if_neg hPower.ne_nil]
    generalize n.power = power at hPower
    cases hPower with
    | plain hSome hDigits =>
        obtain ⟨c, more, rfl⟩ := List.exists_cons_of_ne_nil hSome
        have hFirst := hDigits c List.mem_cons_self
        obtain ⟨hTake, hDrop⟩ := scan_append
          (fun d hd => hDigits d (List.mem_cons_of_mem c hd)) hRest.digit
        simp [splitExponent, hFirst, hTake, hDrop]
    | @signed sign digits hSign hSome hDigits =>
        have hOther : sign.isDigit = false ∧ Expression.isSign sign = true := by
          obtain rfl | rfl := hSign <;> decide
        have hStart : Expression.startsDigit (digits ++ rest) = true := by
          obtain ⟨c, more, rfl⟩ := List.exists_cons_of_ne_nil hSome
          exact hDigits c List.mem_cons_self
        obtain ⟨hTake, hDrop⟩ := scan_append hDigits hRest.digit
        simp [splitExponent, hOther, hStart, hTake, hDrop]

/-- Digits are not mistaken for the letter of an exponent. -/
theorem startsLetter_append {digits : List Char} (hSome : digits ≠ [])
    (hDigits : ∀ c ∈ digits, c.isDigit = true) (rest : List Char) :
    Expression.startsLetter (digits ++ rest) = false := by
  obtain ⟨c, more, rfl⟩ := List.exists_cons_of_ne_nil hSome
  have hDigit := hDigits c List.mem_cons_self
  cases hLetter : Expression.startsLetter (c :: more ++ rest) with
  | false => rfl
  | true =>
      have hStart : isNameStart c = true := by
        rw [isNameStart, Bool.or_eq_true]
        exact .inl hLetter
      rw [isDigit_of_isNameStart hStart] at hDigit
      cases hDigit

/-- The fraction of a numeral is read back. Without a tail the text has no point of its own,
and then none may follow. -/
theorem splitFraction_append {n : Decimal.Numeral} (h : n.WellFormed) {rest : List Char}
    (hRest : EndsNumber rest) (hPoint : n.tail = [] → ∀ c ∈ rest.head?, c ≠ '.') :
    splitFraction (n.tail ++ rest) = (n.fractionText, n.powerText ++ rest) := by
  unfold Decimal.Numeral.tail Decimal.Numeral.fractionText at hPoint ⊢
  by_cases hNone : n.fraction = []
  · rw [if_pos hNone, List.nil_append] at hPoint ⊢
    cases hText : n.powerText ++ rest with
    | nil => rfl
    | cons c more =>
        have hOther : c ≠ '.' := by
          by_cases hPlain : n.powerText = []
          · rw [hPlain, List.nil_append] at hText
            exact hPoint hPlain c (by rw [hText]; rfl)
          · rintro rfl
            unfold Decimal.Numeral.powerText at hText hPlain
            rw [if_neg (fun hNone => hPlain (if_pos hNone))] at hText
            simp at hText
        simp [splitFraction, hOther]
  · obtain ⟨hTake, hDrop⟩ := scan_append h.fraction (n.head?_powerText hRest.digit)
    rw [if_neg hNone, List.append_assoc, List.cons_append]
    simp only [splitFraction, startsLetter_append hNone h.fraction, hTake, hDrop, Bool.not_false,
      Bool.or_true, if_true]

/-- A numeral is split off what follows it, if a lone whole part is not followed by
a point. -/
theorem splitNumber_append {n : Decimal.Numeral} (h : n.WellFormed) {rest : List Char}
    (hRest : EndsNumber rest) (hPoint : n.tail = [] → ∀ c ∈ rest.head?, c ≠ '.') :
    splitNumber (n.text ++ rest) = (n.text, rest) := by
  obtain ⟨hTake, hDrop⟩ := scan_append h.whole (n.head?_tail hRest.digit)
  rw [splitNumber, Decimal.Numeral.text, List.append_assoc, hTake, hDrop,
    splitFraction_append h hRest hPoint]
  dsimp only
  rw [splitExponent_append h hRest, Decimal.Numeral.tail, List.append_assoc]

/-- A number behind its sign. -/
def readNumber (negative : Bool) (text : List Char) : Option (Expr × List Char) :=
  let (lexeme, rest) := splitNumber text
  match rest with
  | 'i' :: rest =>
    let whole := Decimal.digitsValue lexeme 0
    some (.int (if negative then -whole else whole), rest)
  | 'u' :: rest => some (.uint (Decimal.digitsValue lexeme 0), rest)
  | rest => (Decimal.literal? lexeme).map fun d =>
      (.float (Decimal.ofOrdinal negative (d.nearest Decimal.single)), rest)

/-- The numeral of a whole number. -/
def wholeNumeral (n : Nat) : Decimal.Numeral :=
  ⟨Decimal.digitsOf n, [], []⟩

/-- A whole number is spelled without a fraction or an exponent, and well. -/
theorem wellFormed_wholeNumeral (n : Nat) : (wholeNumeral n).WellFormed :=
  ⟨Decimal.digitsOf_ne_nil n, fun _ => Decimal.isDigit_of_mem_digitsOf, nofun, .inl rfl⟩

/-- The text of a whole number is its digits. -/
theorem text_wholeNumeral (n : Nat) : (wholeNumeral n).text = Decimal.digitsOf n :=
  List.append_nil _

/-- The digits of a whole number are split off before the letter of its type. -/
theorem splitNumber_digitsOf (n : Nat) {c : Char} (rest : List Char) (h : c = 'i' ∨ c = 'u') :
    splitNumber (Decimal.digitsOf n ++ c :: rest) = (Decimal.digitsOf n, c :: rest) := by
  have hEnds : EndsNumber (c :: rest) := by
    obtain rfl | rfl := h <;> exact ⟨by simp, by simp⟩
  have hSplit := splitNumber_append (wellFormed_wholeNumeral n) hEnds
    (by obtain rfl | rfl := h <;> simp)
  rwa [text_wholeNumeral] at hSplit

/-- Digits before the letter of signed integers are read as one, with the sign that came
before. -/
theorem readNumber_int (negative : Bool) (n : Nat) (rest : List Char) :
    readNumber negative (Decimal.digitsOf n ++ 'i' :: rest) =
      some (.int (if negative then -n else n), rest) := by
  rw [readNumber, splitNumber_digitsOf n rest (.inl rfl)]
  simp only [Decimal.digitsValue_digitsOf]

/-- Digits before the letter of unsigned integers are read as one. -/
theorem readNumber_uint (n : Nat) (rest : List Char) :
    readNumber false (Decimal.digitsOf n ++ 'u' :: rest) = some (.uint n, rest) := by
  rw [readNumber, splitNumber_digitsOf n rest (.inr rfl)]
  simp only [Decimal.digitsValue_digitsOf]

/-- A float is never spelled with a whole part alone. -/
theorem tail_numeral_debug (d : Decimal.Literal) :
    (Decimal.Style.debug.numeral d).tail ≠ [] := by
  have hPositional (exponent : ℤ) : (Decimal.Style.debug.positionalNumeral
      (Decimal.digitsOf d.digits) exponent).tail ≠ [] := by
    have hSome := Decimal.digitsOf_ne_nil d.digits
    unfold Decimal.Style.positionalNumeral
    split
    · simp [Decimal.Numeral.tail, Decimal.Numeral.fractionText, Decimal.Style.debug]
    · dsimp only
      split
      · have hDrop : (Decimal.digitsOf d.digits).drop
            ((Decimal.digitsOf d.digits).length - (-exponent).toNat) ≠ [] := by
          rw [Ne, List.drop_eq_nil_iff]
          omega
        simp [Decimal.Numeral.tail, Decimal.Numeral.fractionText, hDrop]
      · simp [Decimal.Numeral.tail, Decimal.Numeral.fractionText, hSome]
  have hScientific (order : ℤ) : (Decimal.Style.debug.scientificNumeral
      (Decimal.digitsOf d.digits) order).tail ≠ [] := by
    have hPower := (Decimal.Style.debug.isPower_powerText order).ne_nil
    simp [Decimal.Numeral.tail, Decimal.Numeral.powerText, Decimal.Style.scientificNumeral, hPower]
  unfold Decimal.Style.numeral
  simp only [Decimal.Style.debug] at hPositional hScientific ⊢
  split
  · exact hPositional _
  · exact hScientific _

/-- The shortest text that tells a finite float is read back as the float, its sign
included. It is here that printing enters reading. -/
theorem readNumber_float {x : Float32} (h : x.isFinite = true) {rest : List Char}
    (hRest : Bounded rest) :
    readNumber (Binary32.signBit x)
        ((Decimal.Style.debug.numeral (Decimal.literalOf .debug x)).text ++ rest) =
      some (.float x, rest) := by
  obtain ⟨d, hLiteral, hNearest⟩ := Decimal.literal?_spelled .debug h
  have hSplit := splitNumber_append (Decimal.Style.debug.wellFormed_numeral
    (Decimal.literalOf .debug x)) hRest.endsNumber
    (fun hNone => absurd hNone (tail_numeral_debug _))
  unfold readNumber
  rw [hSplit]
  dsimp only
  split
  · exact absurd (hRest 'i' rfl).1 (by decide)
  · exact absurd (hRest 'u' rfl).1 (by decide)
  · rw [hLiteral, Option.map_some, hNearest, Decimal.ofOrdinal_toOrdinal h]

/-! ### Expressions -/

def BinaryOp.all : List BinaryOp :=
  [.add, .sub, .mul, .div, .eq, .ne, .lt, .le, .gt, .ge, .and, .or]

/-- An operator with the spaces around it, the first of which has been read. -/
def readOperator (text : List Char) : Option (BinaryOp × List Char) :=
  (BinaryOp.all.find? fun op => op.text.toList == text.takeWhile (· != ' ')).bind fun op =>
    (skip [' '] (text.dropWhile (· != ' '))).map fun rest => (op, rest)

/-- The rest of a bracket. -/
def readClosing (inner : Reader Expr) (text : List Char) : Option (Expr × List Char) :=
  (inner text).bind fun (e, rest) => (skip [')'] rest).map fun rest => (e, rest)

/-- Arguments up to the bracket behind them. -/
def readArgs (inner : Reader Expr) : Nat → Reader (List Expr)
  | 0, _ => none
  | n + 1, text =>
    match inner text with
    | none => (skip [')'] text).map fun rest => ([], rest)
    | some (e, ',' :: ' ' :: rest) => (readArgs inner n rest).map fun (more, rest) => (e :: more, rest)
    | some (e, rest) => (skip [')'] rest).map fun rest => ([e], rest)

/-- A name, or a call or construction that starts with one. -/
def readNamed (inner : Reader Expr) (n : Nat) (text : List Char) : Option (Expr × List Char) :=
  match readType text with
  | some (.named name, '(' :: rest) => (readArgs inner n rest).map fun (args, rest) =>
      (.call name args, rest)
  | some (.named name, rest) => if name = "" then none else some (.ident name, rest)
  | some (type, '(' :: rest) => (readArgs inner n rest).map fun (args, rest) =>
      (.construct type args, rest)
  | _ => none

/-- An expression up to the selections and indices behind it. -/
def readPrimary (inner : Reader Expr) (n : Nat) : Reader Expr
  | '(' :: text => (inner text).bind fun (left, rest) =>
    match rest with
    | ' ' :: rest => (readOperator rest).bind fun (op, rest) =>
        (readClosing inner rest).map fun (right, rest) => (.binary op left right, rest)
    | rest => (skip [')'] rest).map fun rest => (left, rest)
  | '-' :: '(' :: text => (readClosing inner text).map fun (e, rest) => (.neg e, rest)
  | '!' :: '(' :: text => (readClosing inner text).map fun (e, rest) => (.not e, rest)
  | '-' :: text => readNumber true text
  | c :: text => if c.isDigit then readNumber false (c :: text) else readNamed inner n (c :: text)
  | [] => none

/-- The selections and indices behind an expression. -/
def readSuffixes (inner : Reader Expr) : Nat → Expr → Reader Expr
  | n + 1, e, '.' :: text =>
    let (name, rest) := splitName text
    readSuffixes inner n (.field e name) rest
  | n + 1, e, '[' :: text => (inner text).bind fun (position, rest) =>
    (skip [']'] rest).bind fun rest => readSuffixes inner n (.index e position) rest
  | _, e, text => some (e, text)

/-- An expression whose brackets are nested less deep than `n`. -/
def readExpr : Nat → Reader Expr
  | 0, _ => none
  | n + 1, text =>
    (readPrimary (readExpr n) n text).bind fun (e, rest) => readSuffixes (readExpr n) n e rest

namespace Expr

/-- Expressions whose names are names, and whose types are constructed by names of
their own. -/
inductive WellNamed : Expr → Prop where
  | float (x : Float32) : WellNamed (.float x)
  | int (i : Int) : WellNamed (.int i)
  | uint (n : Nat) : WellNamed (.uint n)
  | ident {name : String} (hName : isName name = true) : WellNamed (.ident name)
  | field {base : Expr} {name : String} (hBase : WellNamed base)
      (hName : ∀ c ∈ name.toList, isNamePart c = true) : WellNamed (.field base name)
  | index {base position : Expr} (hBase : WellNamed base) (hPosition : WellNamed position) :
      WellNamed (.index base position)
  | neg {e : Expr} (hOperand : WellNamed e) : WellNamed (.neg e)
  | not {e : Expr} (hOperand : WellNamed e) : WellNamed (.not e)
  | binary {a b : Expr} (op : BinaryOp) (hLeft : WellNamed a) (hRight : WellNamed b) :
      WellNamed (.binary op a b)
  | call {function : String} {args : List Expr} (hName : isName function = true)
      (hArgs : ∀ e ∈ args, WellNamed e) : WellNamed (.call function args)
  | construct {type : Ty} {args : List Expr} (hType : Ty.ofWord? type.word = some type)
      (hArgs : ∀ e ∈ args, WellNamed e) : WellNamed (.construct type args)

mutual

/-- The floats that are written in an expression. -/
def literals : Expr → List Float32
  | .float x => [x]
  | .int _ => []
  | .uint _ => []
  | .ident _ => []
  | .field base _ => base.literals
  | .index base position => base.literals ++ position.literals
  | .neg e => e.literals
  | .not e => e.literals
  | .binary _ a b => a.literals ++ b.literals
  | .call _ args => allLiterals args
  | .construct _ args => allLiterals args

def allLiterals : List Expr → List Float32
  | [] => []
  | e :: rest => e.literals ++ allLiterals rest

end

/-- The literals of arguments are those of each of them. -/
theorem mem_allLiterals {args : List Expr} {x : Float32} :
    x ∈ allLiterals args ↔ ∃ e ∈ args, x ∈ e.literals := by
  induction args with
  | nil => simp [allLiterals]
  | cons e rest ih => simp [allLiterals, ih]

/-- Reading the text of an expression leads to the suffixes behind it. -/
def Reads (e : Expr) : Prop :=
  ∀ ⦃n : Nat⦄ ⦃rest : List Char⦄, e.text.toList.length ≤ n → Bounded rest →
    ∃ k, n ≤ k + e.text.toList.length ∧
      readExpr (n + 1) (e.text.toList ++ rest) = readSuffixes (readExpr n) k e rest

end Expr

/-- Where an expression ends there is no selection and no index left to read. -/
theorem readSuffixes_of_ends {inner : Reader Expr} (k : Nat) (e : Expr) {rest : List Char}
    (h : Ends rest) : readSuffixes inner k e rest = some (e, rest) := by
  unfold readSuffixes
  split
  · exact absurd (h '.' rfl) (by decide)
  · exact absurd (h '[' rfl) (by decide)
  · rfl

/-- The text of an expression reads back as the expression. -/
theorem Expr.Reads.ends {e : Expr} (h : e.Reads) {n : Nat} {rest : List Char}
    (hLength : e.text.toList.length < n) (hRest : Ends rest) :
    readExpr n (e.text.toList ++ rest) = some (e, rest) := by
  obtain ⟨m, rfl⟩ := Nat.exists_eq_succ_of_ne_zero (Nat.ne_of_gt (Nat.zero_lt_of_lt hLength))
  obtain ⟨k, _, hReads⟩ := h (Nat.le_of_lt_succ hLength) hRest.bounded
  rw [Nat.succ_eq_add_one, hReads, readSuffixes_of_ends k e hRest]

/-- What is read at once reads. -/
theorem Expr.reads_of_primary {e : Expr} (h : ∀ ⦃n : Nat⦄ ⦃rest : List Char⦄,
    e.text.toList.length ≤ n → Bounded rest →
      readPrimary (readExpr n) n (e.text.toList ++ rest) = some (e, rest)) : e.Reads := by
  intro n rest hLength hRest
  refine ⟨n, Nat.le_add_right _ _, ?_⟩
  rw [readExpr, h hLength hRest, Option.bind_some]

/-- What is read inside of parentheses is read with them. -/
theorem readClosing_append {inner : Reader Expr} {e : Expr} {text rest : List Char}
    (h : inner (text ++ ')' :: rest) = some (e, ')' :: rest)) :
    readClosing inner (text ++ ')' :: rest) = some (e, rest) := by
  simp [readClosing, h, skip]

/-- An operator is read back with the blank behind it. -/
theorem readOperator_append (op : BinaryOp) (rest : List Char) :
    readOperator (op.text.toList ++ ' ' :: rest) = some (op, rest) := by
  have hParts : ∀ c ∈ op.text.toList, (c != ' ') = true := by
    cases op <;> exact List.all_eq_true.mp (by decide)
  have hEnd : ∀ c ∈ (' ' :: rest).head?, (c != ' ') = false := by simp
  obtain ⟨hTake, hDrop⟩ := scan_append hParts hEnd
  have hFind : (BinaryOp.all.find? fun other => other.text.toList == op.text.toList) = some op := by
    cases op <;> decide
  rw [readOperator, hTake, hDrop, hFind]
  simp [skip]

/-! ### Literals -/

/-- What starts with a digit is a number. -/
theorem readPrimary_of_isDigit {inner : Reader Expr} {n : Nat} {c : Char} {text : List Char}
    (h : c.isDigit = true) : readPrimary inner n (c :: text) = readNumber false (c :: text) := by
  have hOpen := Decimal.Numeral.ne_of_isDigit (d := '(') h rfl
  have hMinus := Decimal.Numeral.ne_of_isDigit (d := '-') h rfl
  have hNot := Decimal.Numeral.ne_of_isDigit (d := '!') h rfl
  unfold readPrimary
  split <;> simp_all

/-- A minus before a digit is the sign of a number. This is why the negation of a literal is
put in parentheses. -/
theorem readPrimary_of_minus_isDigit {inner : Reader Expr} {n : Nat} {c : Char} {text : List Char}
    (h : c.isDigit = true) :
    readPrimary inner n ('-' :: c :: text) = readNumber true (c :: text) := by
  have hOpen := Decimal.Numeral.ne_of_isDigit (d := '(') h rfl
  simp [readPrimary, hOpen]

/-- A literal with its sign. -/
theorem readPrimary_signed {inner : Reader Expr} {n : Nat} {negative : Bool} {digits : List Char}
    {e : Expr} {rest more : List Char} (hSome : digits ≠ [])
    (hFirst : ∀ c ∈ digits.head?, c.isDigit = true)
    (h : readNumber negative (digits ++ more) = some (e, rest)) :
    readPrimary inner n ((if negative then ['-'] else []) ++ digits ++ more) = some (e, rest) := by
  obtain ⟨c, other, rfl⟩ := List.exists_cons_of_ne_nil hSome
  have hDigit := hFirst c rfl
  cases negative with
  | true => exact (readPrimary_of_minus_isDigit hDigit).trans h
  | false => exact (readPrimary_of_isDigit hDigit).trans h

/-- A bracket around an expression alone, which stands around negative literals. -/
theorem readPrimary_bracket {n m : Nat} {e : Expr} {text rest : List Char}
    (h : readPrimary (readExpr n) n (text ++ ')' :: rest) = some (e, ')' :: rest)) :
    readPrimary (readExpr (n + 1)) m ('(' :: (text ++ ')' :: rest)) = some (e, rest) := by
  have hEnds : Ends (')' :: rest) := by simp [Ends]
  have hInner : readExpr (n + 1) (text ++ ')' :: rest) = some (e, ')' :: rest) := by
    rw [readExpr, h, Option.bind_some]
    exact readSuffixes_of_ends n e hEnds
  simp [readPrimary, hInner, skip]

namespace Expr

attribute [local simp] text

/-- Every finite float is read back, negative zero included. -/
theorem reads_float {x : Float32} (h : x.isFinite = true) : Reads (.float x) := by
  have hFormed := Decimal.Style.debug.wellFormed_numeral (Decimal.literalOf .debug x)
  have hSpell := Decimal.spell_toList .debug h
  generalize hText : (Decimal.Style.debug.numeral (Decimal.literalOf .debug x)).text = digits at hSpell
  have hSome : digits ≠ [] := by
    simp [← hText, Decimal.Numeral.text, hFormed.whole_ne]
  have hFirst : ∀ c ∈ digits.head?, c.isDigit = true := by
    rw [← hText, Decimal.Numeral.text, List.head?_append_of_ne_nil _ hFormed.whole_ne]
    exact fun c hc => hFormed.whole c (List.mem_of_mem_head? hc)
  have hPlain {n : Nat} {rest : List Char} (hRest : Bounded rest) :
      readPrimary (readExpr n) n ((Decimal.spell .debug x).toList ++ rest) =
        some (.float x, rest) := by
    rw [hSpell]
    exact readPrimary_signed hSome hFirst (hText ▸ readNumber_float h hRest)
  refine reads_of_primary fun n rest hLength hRest => ?_
  rw [text, floatText, h] at hLength ⊢
  simp only [Bool.not_true, Bool.false_eq_true, if_false] at hLength ⊢
  split at hLength
  · rename_i hNegative
    obtain ⟨m, rfl⟩ : ∃ m, n = m + 1 := Nat.exists_eq_succ_of_ne_zero (by
      rintro rfl
      simp at hLength)
    have hBounded : Bounded (')' :: rest) := Ends.bounded (by simp [Ends])
    simpa [if_pos hNegative] using readPrimary_bracket (m := m + 1) (hPlain hBounded)
  · rename_i hPositive
    rw [if_neg hPositive]
    exact hPlain hRest

/-- The text of a natural number is its digits. -/
theorem toList_toString (k : Nat) : (toString k).toList = Decimal.digitsOf k := by
  simp [Decimal.digitsOf, toString, Nat.repr]

/-- An integer that is not negative is its digits with the letter of its type. -/
theorem toList_intText_ofNat (k : Nat) :
    (intText (Int.ofNat k)).toList = Decimal.digitsOf k ++ ['i'] := by
  have hText : (toString (Int.ofNat k)).toList = Decimal.digitsOf k := toList_toString k
  rw [intText, if_neg (by simp), String.toList_append, hText]
  rfl

/-- A negative integer stands in parentheses. -/
theorem toList_intText_negSucc (k : Nat) :
    (intText (Int.negSucc k)).toList = '(' :: '-' :: (Decimal.digitsOf (k + 1) ++ ['i', ')']) := by
  have hText : (toString (Int.negSucc k)).toList = '-' :: Decimal.digitsOf (k + 1) := by
    change ("-" ++ toString (k + 1)).toList = _
    rw [String.toList_append, toList_toString]
    simp
  rw [intText, if_pos (Int.negSucc_lt_zero k), String.toList_append, String.toList_append, hText]
  rfl

/-- Every integer is read back. The parentheses of the negative ones are read as a group,
which leaves no trace. -/
theorem reads_int (i : Int) : Reads (.int i) := by
  refine reads_of_primary fun n rest hLength hRest => ?_
  have hFirst (k : Nat) : ∀ c ∈ (Decimal.digitsOf k).head?, c.isDigit = true := fun c hc =>
    Decimal.isDigit_of_mem_digitsOf (List.mem_of_mem_head? hc)
  have hNumber (negative : Bool) (k n : Nat) (more : List Char) :
      readPrimary (readExpr n) n
          ((if negative then ['-'] else []) ++ Decimal.digitsOf k ++ 'i' :: more) =
        some (.int (if negative then -k else k), more) :=
    readPrimary_signed (Decimal.digitsOf_ne_nil k) (hFirst k) (readNumber_int negative k more)
  rw [text] at hLength ⊢
  cases i with
  | ofNat k =>
      rw [toList_intText_ofNat]
      simpa using hNumber false k n rest
  | negSucc k =>
      rw [toList_intText_negSucc] at hLength ⊢
      obtain ⟨m, rfl⟩ : ∃ m, n = m + 1 := Nat.exists_eq_succ_of_ne_zero (by
        rintro rfl
        simp at hLength)
      have hInner : readPrimary (readExpr m) m
          ('-' :: (Decimal.digitsOf (k + 1) ++ ['i']) ++ ')' :: rest) =
          some (int (Int.negSucc k), ')' :: rest) := by
        simpa [Int.negSucc_eq] using hNumber true (k + 1) m (')' :: rest)
      simpa using readPrimary_bracket (m := m + 1) hInner

/-- Every unsigned integer is read back. -/
theorem reads_uint (k : Nat) : Reads (.uint k) := by
  refine reads_of_primary fun n rest hLength hRest => ?_
  have hFirst : ∀ c ∈ (Decimal.digitsOf k).head?, c.isDigit = true := fun c hc =>
    Decimal.isDigit_of_mem_digitsOf (List.mem_of_mem_head? hc)
  rw [text, String.toList_append, toList_toString]
  simpa using readPrimary_signed (Decimal.digitsOf_ne_nil k) hFirst (readNumber_uint k rest)

/-! ### Operators, selections and calls -/

/-- A component of what is read back is read back. Nothing is said of a base whose text
starts with a sign, which does not read back in front of a point. -/
theorem Reads.field {base : Expr} {name : String} (hBase : base.Reads)
    (hName : ∀ c ∈ name.toList, isNamePart c = true) : Reads (.field base name) := by
  intro n rest hLength hRest
  have hText : (text (.field base name)).toList = base.text.toList ++ '.' :: name.toList := by
    simp
  rw [hText, List.length_append, List.length_cons] at hLength ⊢
  have hPoint : Bounded ('.' :: (name.toList ++ rest)) := by
    rintro c hc
    obtain rfl : '.' = c := by simpa using hc
    decide
  obtain ⟨k, hFuel, hReads⟩ := hBase (n := n) (by omega) hPoint
  obtain ⟨k, rfl⟩ : ∃ j, k = j + 1 := Nat.exists_eq_succ_of_ne_zero (by omega)
  refine ⟨k, by omega, ?_⟩
  rw [List.append_assoc, List.cons_append, hReads, readSuffixes,
    splitName_append hName fun c hc => (hRest c hc).1]

/-- An element of what is read back is read back. -/
theorem Reads.index {base position : Expr} (hBase : base.Reads) (hPosition : position.Reads) :
    Reads (.index base position) := by
  intro n rest hLength hRest
  have hText : (text (.index base position)).toList =
      base.text.toList ++ '[' :: (position.text.toList ++ [']']) := by
    simp
  simp only [hText, List.length_append, List.length_cons, List.length_nil] at hLength ⊢
  have hOpen : Bounded ('[' :: (position.text.toList ++ ']' :: rest)) := by
    rintro c hc
    obtain rfl : '[' = c := by simpa using hc
    decide
  obtain ⟨k, hFuel, hReads⟩ := hBase (n := n) (by omega) hOpen
  obtain ⟨k, rfl⟩ : ∃ j, k = j + 1 := Nat.exists_eq_succ_of_ne_zero (by omega)
  have hInner : readExpr n (position.text.toList ++ ']' :: rest) =
      some (position, ']' :: rest) := hPosition.ends (by omega) (by simp [Ends])
  refine ⟨k, by omega, ?_⟩
  simp only [List.append_assoc, List.cons_append, List.nil_append, hReads, readSuffixes, hInner,
    Option.bind_some, skip, if_true]

/-- A negation is read back, since its operand stands in parentheses. -/
theorem Reads.neg {e : Expr} (h : e.Reads) : Reads (.neg e) := by
  refine reads_of_primary fun n rest hLength hRest => ?_
  have hText : (text (.neg e)).toList = '-' :: '(' :: (e.text.toList ++ [')']) := by
    simp
  simp only [hText, List.length_append, List.length_cons, List.length_nil] at hLength ⊢
  have hInner : readExpr n (e.text.toList ++ ')' :: rest) = some (e, ')' :: rest) :=
    h.ends (by omega) (by simp [Ends])
  simp only [List.append_assoc, List.cons_append, List.nil_append, readPrimary,
    readClosing_append hInner, Option.map_some]

/-- A denial is read back, since its operand stands in parentheses. -/
theorem Reads.not {e : Expr} (h : e.Reads) : Reads (.not e) := by
  refine reads_of_primary fun n rest hLength hRest => ?_
  have hText : (text (.not e)).toList = '!' :: '(' :: (e.text.toList ++ [')']) := by
    simp
  simp only [hText, List.length_append, List.length_cons, List.length_nil] at hLength ⊢
  have hInner : readExpr n (e.text.toList ++ ')' :: rest) = some (e, ')' :: rest) :=
    h.ends (by omega) (by simp [Ends])
  simp only [List.append_assoc, List.cons_append, List.nil_append, readPrimary,
    readClosing_append hInner, Option.map_some]

/-- An operation is read back with its operator, whatever its operands: each operation has
parentheses of its own, so that no precedence is needed. -/
theorem Reads.binary (op : BinaryOp) {a b : Expr} (ha : a.Reads) (hb : b.Reads) :
    Reads (.binary op a b) := by
  refine reads_of_primary fun n rest hLength hRest => ?_
  have hText : (text (.binary op a b)).toList =
      '(' :: (a.text.toList ++ ' ' :: (op.text.toList ++ ' ' :: (b.text.toList ++ [')']))) := by
    simp
  simp only [hText, List.length_append, List.length_cons, List.length_nil] at hLength ⊢
  have hLeft {more : List Char} : readExpr n (a.text.toList ++ ' ' :: more) =
      some (a, ' ' :: more) := ha.ends (by omega) (by simp [Ends])
  have hRight : readExpr n (b.text.toList ++ ')' :: rest) = some (b, ')' :: rest) :=
    hb.ends (by omega) (by simp [Ends])
  simp only [List.append_assoc, List.cons_append, List.nil_append, readPrimary, hLeft,
    Option.bind_some, readOperator_append, readClosing_append hRight, Option.map_some]

end Expr

/-- A bracket that closes is no expression. -/
theorem readExpr_closing (n : Nat) (rest : List Char) : readExpr n (')' :: rest) = none := by
  have hNone : isNamePart ')' = false := by decide
  have hWord : Ty.ofWord? "" = none := by decide
  cases n with
  | zero => rfl
  | succ n =>
      have hNamed : readNamed (readExpr n) n (')' :: rest) = none := by
        simp [readNamed, readType, splitName, hNone, hWord]
      simp [readExpr, readPrimary, hNamed]

/-- Arguments as they are written, with a comma between them. -/
def argsText (args : List Expr) : List Char :=
  (commaList (Expr.texts args)).toList

/-- No arguments have no text. -/
theorem argsText_nil : argsText [] = [] := by
  simp [argsText, commaList, Expr.texts]

/-- One argument has no comma. -/
theorem argsText_singleton (e : Expr) : argsText [e] = e.text.toList := by
  simp [argsText, commaList, Expr.texts]

/-- Arguments are separated by a comma and a blank. -/
theorem argsText_cons_cons (e second : Expr) (others : List Expr) :
    argsText (e :: second :: others) =
      e.text.toList ++ ',' :: ' ' :: argsText (second :: others) := by
  simp [argsText, commaList, Expr.texts]

/-- Arguments read back, with the bracket behind them. The induction is on the arguments,
and the reader takes one step for each and one for the bracket. -/
theorem readArgs_argsText {args : List Expr} (hArgs : ∀ e ∈ args, e.Reads) {n k : Nat}
    (hInner : ∀ e ∈ args, e.text.toList.length < n) (hFuel : args.length < k)
    (rest : List Char) :
    readArgs (readExpr n) k (argsText args ++ ')' :: rest) = some (args, rest) := by
  induction args generalizing k with
  | nil =>
      obtain ⟨k, rfl⟩ : ∃ j, k = j + 1 := Nat.exists_eq_succ_of_ne_zero (by omega)
      rw [argsText_nil, List.nil_append, readArgs, readExpr_closing]
      simp [skip]
  | cons e more ih =>
      obtain ⟨k, rfl⟩ : ∃ j, k = j + 1 := Nat.exists_eq_succ_of_ne_zero (by omega)
      have hFirst {tail : List Char} (hEnds : Ends tail) := (hArgs e List.mem_cons_self).ends
        (hInner e List.mem_cons_self) hEnds
      have hMore := ih (fun e he => hArgs e (List.mem_cons_of_mem _ he))
        (fun e he => hInner e (List.mem_cons_of_mem _ he)) (k := k) (by simpa using hFuel)
      cases more with
      | nil =>
          rw [argsText_singleton, readArgs, hFirst (by simp [Ends])]
          simp [skip]
      | cons second others =>
          rw [argsText_cons_cons, List.append_assoc, readArgs, List.cons_append, List.cons_append,
            hFirst (by simp [Ends])]
          simp only [hMore, Option.map_some]

/-- Arguments are not longer than their list, and not more than its characters. -/
theorem length_argsText (args : List Expr) :
    args.length ≤ (argsText args).length + 1 ∧
      ∀ e ∈ args, e.text.toList.length ≤ (argsText args).length := by
  induction args with
  | nil => simp
  | cons e more ih =>
      cases more with
      | nil => simp [argsText_singleton]
      | cons second others =>
          obtain ⟨hCount, hEach⟩ := ih
          simp only [argsText_cons_cons, List.length_append, List.length_cons, List.mem_cons]
            at hCount hEach ⊢
          refine ⟨by omega, ?_⟩
          rintro other (rfl | hOther)
          · omega
          · have hLength := hEach other hOther
            omega

/-- What starts like a name is read as one. -/
theorem readPrimary_of_isNameStart {inner : Reader Expr} {n : Nat} {c : Char} {text : List Char}
    (h : isNameStart c = true) : readPrimary inner n (c :: text) = readNamed inner n (c :: text) := by
  have hOther {d : Char} (hOther : isNameStart d = false) : c ≠ d := by
    rintro rfl
    rw [h] at hOther
    cases hOther
  have hOpen : c ≠ '(' := hOther (by decide)
  have hMinus : c ≠ '-' := hOther (by decide)
  have hNot : c ≠ '!' := hOther (by decide)
  have hDigit := isDigit_of_isNameStart h
  unfold readPrimary
  split <;> simp_all

/-- Every type starts like a name. -/
theorem exists_head_text {type : Ty} (h : type.isProper = true) :
    ∃ c more, type.text.toList = c :: more ∧ isNameStart c = true := by
  cases type with
  | named name =>
      obtain ⟨c, more, hList, hFirst, -⟩ := isIdentifier_iff.mp (isName_iff.mp h).1
      exact ⟨c, more, hList, hFirst⟩
  | _ => exact ⟨_, _, by simp only [Ty.text]; rfl, by decide⟩

/-- What starts with the word of a type is read as a name or a type. -/
theorem readPrimary_type {inner : Reader Expr} {n : Nat} {type : Ty} (h : type.isProper = true)
    (rest : List Char) :
    readPrimary inner n (type.text.toList ++ rest) = readNamed inner n (type.text.toList ++ rest) := by
  obtain ⟨c, more, hList, hFirst⟩ := exists_head_text h
  rw [hList]
  exact readPrimary_of_isNameStart hFirst

/-- A type is read back in front of its arguments. -/
theorem readType_open {type : Ty} (h : type.isProper = true) (rest : List Char) :
    readType (type.text.toList ++ '(' :: rest) = some (type, '(' :: rest) :=
  readType_text h (by simp +decide)

namespace Expr

/-- A name that is no word of the language is read back as itself. -/
theorem reads_ident {name : String} (h : isName name = true) : Reads (.ident name) := by
  refine reads_of_primary fun n rest hLength hRest => ?_
  have hProper : (Ty.named name).isProper = true := h
  have hType : readType (name.toList ++ rest) = some (.named name, rest) :=
    readType_text hProper fun c hc => (hRest c hc).1
  have hSome : name ≠ "" := by
    rintro rfl
    exact absurd h (by decide)
  refine (readPrimary_type hProper rest).trans ?_
  change readNamed _ n (name.toList ++ rest) = _
  unfold readNamed
  rw [hType]
  cases rest with
  | nil => simp [hSome]
  | cons c more =>
      have hOpen : c ≠ '(' := (hRest c rfl).2
      simp [hSome, hOpen]

/-- A call of what is read back is read back, with any number of arguments. -/
theorem Reads.call {function : String} (hName : isName function = true) {args : List Expr}
    (hArgs : ∀ e ∈ args, e.Reads) : Reads (.call function args) := by
  refine reads_of_primary fun n rest hLength hRest => ?_
  have hText : (text (.call function args)).toList =
      function.toList ++ '(' :: (argsText args ++ [')']) := by
    simp [text, argsText]
  obtain ⟨hCount, hEach⟩ := length_argsText args
  simp only [hText, List.length_append, List.length_cons, List.length_nil] at hLength ⊢
  have hInner := readArgs_argsText hArgs (n := n) (k := n)
    (fun e he => by have hLength := hEach e he; omega) (by omega) rest
  have hProper : (Ty.named function).isProper = true := hName
  have hType : readType (function.toList ++ '(' :: (argsText args ++ ')' :: rest)) =
      some (.named function, '(' :: (argsText args ++ ')' :: rest)) :=
    readType_open hProper _
  simp only [List.append_assoc, List.cons_append, List.nil_append]
  refine (readPrimary_type hProper _).trans ?_
  change readNamed _ n (function.toList ++ _) = _
  unfold readNamed
  rw [hType]
  simp only [hInner, Option.map_some]

/-- A vector or array that is made of what is read back is read back. -/
theorem Reads.construct {type : Ty} (hType : Ty.ofWord? type.word = some type) {args : List Expr}
    (hArgs : ∀ e ∈ args, e.Reads) : Reads (.construct type args) := by
  refine reads_of_primary fun n rest hLength hRest => ?_
  have hText : (text (.construct type args)).toList =
      type.text.toList ++ '(' :: (argsText args ++ [')']) := by
    simp [text, argsText]
  obtain ⟨hCount, hEach⟩ := length_argsText args
  simp only [hText, List.length_append, List.length_cons, List.length_nil] at hLength ⊢
  have hInner := readArgs_argsText hArgs (n := n) (k := n)
    (fun e he => by have hLength := hEach e he; omega) (by omega) rest
  have hOther (name : String) : type ≠ .named name := by
    rintro rfl
    have hMem := List.mem_of_find?_eq_some hType
    simp at hMem
  have hProper : type.isProper = true := by
    cases type with
    | named name => exact absurd rfl (hOther name)
    | _ => rfl
  simp only [List.append_assoc, List.cons_append, List.nil_append]
  rw [readPrimary_type hProper]
  unfold readNamed
  rw [readType_open hProper]
  cases type with
  | named name => exact absurd rfl (hOther name)
  | _ => simp only [hInner, Option.map_some]

/-- Expressions of finite floats read back from their text. -/
theorem WellNamed.reads {e : Expr} (h : e.WellNamed)
    (hFinite : ∀ x ∈ e.literals, x.isFinite = true) : e.Reads := by
  induction h with
  | float x => exact reads_float (hFinite x (List.mem_singleton_self x))
  | int i => exact reads_int i
  | uint n => exact reads_uint n
  | ident hName => exact reads_ident hName
  | field hBase hName ih => exact (ih hFinite).field hName
  | index hBase hPosition ihBase ihPosition =>
      simp only [literals, List.mem_append] at hFinite
      exact (ihBase fun x hx => hFinite x (.inl hx)).index
        (ihPosition fun x hx => hFinite x (.inr hx))
  | neg hOperand ih => exact (ih hFinite).neg
  | not hOperand ih => exact (ih hFinite).not
  | binary op hLeft hRight ihLeft ihRight =>
      simp only [literals, List.mem_append] at hFinite
      exact .binary op (ihLeft fun x hx => hFinite x (.inl hx))
        (ihRight fun x hx => hFinite x (.inr hx))
  | call hName hArgs ih =>
      exact .call hName fun e he => ih e he fun x hx =>
        hFinite x (mem_allLiterals.mpr ⟨e, he, hx⟩)
  | construct hType hArgs ih =>
      exact .construct hType fun e he => ih e he fun x hx =>
        hFinite x (mem_allLiterals.mpr ⟨e, he, hx⟩)

end Expr

end PathTracer.Shader
