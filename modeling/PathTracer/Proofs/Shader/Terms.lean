import PathTracer.Proofs.Expression.Identifiers
import PathTracer.Proofs.Shader.Reading

/-! Where the text of an expression ends in its line. Blanks within an expression stand
in brackets, so that its text ends at the first blank or semicolon outside of them. -/
namespace PathTracer.Shader

open Expression (isNamePart)
open Material (isIdentifier)

/-! ### Cutting a term off a line -/

/-- The number of open brackets behind a character. -/
def depthAfter (depth : Nat) (c : Char) : Nat :=
  if c = '(' ∨ c = '[' then depth + 1 else if c = ')' ∨ c = ']' then depth - 1 else depth

/-- The text up to the first blank or semicolon outside of brackets, of which `depth` are
open, and the text from there on. -/
def splitTerm (depth : Nat) : List Char → List Char × List Char
  | [] => ([], [])
  | c :: rest =>
    if depth = 0 ∧ (c = ' ' ∨ c = ';') then ([], c :: rest)
    else
      let (term, rest) := splitTerm (depthAfter depth c) rest
      (c :: term, rest)

/-- Characters that are brackets, end a term or belong to the blocks around it. -/
def marks : List Char := ['(', ')', '[', ']', ' ', ';', '\n', '\x7b', '\x7d']

/-- A text without line breaks and braces. -/
def IsClean (text : List Char) : Prop :=
  ∀ c ∈ text, c ≠ '\n' ∧ c ≠ '\x7b' ∧ c ≠ '\x7d'

@[simp] theorem isClean_nil : IsClean [] :=
  nofun

@[simp] theorem isClean_cons {c : Char} {text : List Char} :
    IsClean (c :: text) ↔ (c ≠ '\n' ∧ c ≠ '\x7b' ∧ c ≠ '\x7d') ∧ IsClean text :=
  List.forall_mem_cons

/-- Texts are clean together if each of them is. -/
@[simp] theorem isClean_append {text more : List Char} :
    IsClean (text ++ more) ↔ IsClean text ∧ IsClean more :=
  List.forall_mem_append

/-- A clean text is on one line. -/
theorem IsClean.not_mem {text : List Char} (h : IsClean text) : '\n' ∉ text :=
  fun hBreak => (h _ hBreak).1 rfl

/-- A clean text that is passed as a whole where at least `least` brackets are open. -/
structure Fits (least : Nat) (text : List Char) : Prop where
  passed : ∀ ⦃depth : Nat⦄, least ≤ depth → ∀ rest,
    splitTerm depth (text ++ rest) = (text ++ (splitTerm depth rest).1, (splitTerm depth rest).2)
  clean : IsClean text

namespace Fits

variable {least : Nat} {text more : List Char}

theorem nil : Fits least [] :=
  ⟨fun _ _ _ => rfl, nofun⟩

/-- Texts that fit can be joined. -/
theorem append (h : Fits least text) (hMore : Fits least more) : Fits least (text ++ more) := by
  refine ⟨fun depth hDepth rest => ?_, isClean_append.mpr ⟨h.clean, hMore.clean⟩⟩
  rw [List.append_assoc, h.passed hDepth, hMore.passed hDepth, List.append_assoc]

/-- A character that is no mark fits anywhere. -/
theorem char {c : Char} (h : c ∉ marks) : Fits least [c] := by
  simp only [marks, List.mem_cons, List.not_mem_nil, or_false, not_or] at h
  obtain ⟨hOpen, hClose, hOpenIndex, hCloseIndex, hBlank, hEnd, hBreak, hBrace, hBrace'⟩ := h
  refine ⟨fun depth _ rest => ?_, by simp [IsClean, hBreak, hBrace, hBrace']⟩
  simp [splitTerm, depthAfter, hOpen, hClose, hOpenIndex, hCloseIndex, hBlank, hEnd]

/-- A text without marks fits anywhere. -/
theorem of_forall (h : ∀ c ∈ text, c ∉ marks) : Fits least text := by
  induction text with
  | nil => exact nil
  | cons c rest ih =>
      obtain ⟨hFirst, hRest⟩ := List.forall_mem_cons.mp h
      exact (char hFirst).append (ih hRest)

/-- A blank within brackets. -/
theorem blank : Fits 1 [' '] := by
  refine ⟨fun depth hDepth rest => ?_, by simp [IsClean]⟩
  have hOpen : depth ≠ 0 := by omega
  simp [splitTerm, depthAfter, hOpen]

/-- Whatever fits within brackets fits outside of them together with its own. -/
theorem enclosed {opening closing : Char} (h : Fits 1 text)
    (hPair : opening = '(' ∧ closing = ')' ∨ opening = '[' ∧ closing = ']') :
    Fits least (opening :: (text ++ [closing])) := by
  refine ⟨fun depth _ rest => ?_, ?_⟩
  · have hInner := h.passed (Nat.le_add_left 1 depth) (closing :: rest)
    obtain ⟨rfl, rfl⟩ | ⟨rfl, rfl⟩ := hPair
    · simp [splitTerm, depthAfter, hInner]
    · simp [splitTerm, depthAfter, hInner]
  · have hInner := h.clean
    obtain ⟨rfl, rfl⟩ | ⟨rfl, rfl⟩ := hPair <;> simpa [IsClean, or_imp, forall_and] using hInner

end Fits

/-- The text of an expression or of a type: it fits anywhere, and does not start like a
comment, an assignment or the end of a block. -/
structure IsTerm (text : List Char) : Prop where
  fits : Fits 0 text
  head : ∃ c rest, text = c :: rest ∧ Text.isBlank c = false ∧ c ≠ '/' ∧ c ≠ '='

/-- A term starts neither with a blank nor with what opens a comment or an assignment. -/
theorem IsTerm.head?_append {text : List Char} (h : IsTerm text) (rest : List Char) :
    ∀ c ∈ (text ++ rest).head?, Text.isBlank c = false ∧ c ≠ '/' ∧ c ≠ '=' := by
  obtain ⟨-, c, more, rfl, hHead⟩ := h
  simpa using hHead

/-- A term fits within brackets too. -/
theorem IsTerm.inside {text : List Char} (h : IsTerm text) : Fits 1 text :=
  ⟨fun depth _ => h.fits.passed (Nat.zero_le depth), h.fits.clean⟩

/-- A term is split off up to the blank or the semicolon behind it. -/
theorem splitTerm_append {text rest : List Char} (h : Fits 0 text)
    (hRest : ∀ c ∈ rest.head?, c = ' ' ∨ c = ';') : splitTerm 0 (text ++ rest) = (text, rest) := by
  have hStop : splitTerm 0 rest = ([], rest) := by
    cases rest with
    | nil => rfl
    | cons c more => simp [splitTerm, hRest c rfl]
  rw [h.passed le_rfl, hStop, List.append_nil]

/-! ### Names and numbers -/

/-- No character of a name is a mark. -/
theorem not_mem_marks_of_isNamePart {c : Char} (h : isNamePart c = true) : c ∉ marks := by
  intro hMark
  simp only [marks, List.mem_cons, List.not_mem_nil, or_false] at hMark
  obtain rfl | rfl | rfl | rfl | rfl | rfl | rfl | rfl | rfl := hMark <;> cases h

/-- A term can be continued by what fits at its level. -/
theorem IsTerm.append {text more : List Char} (h : IsTerm text) (hMore : Fits 0 more) :
    IsTerm (text ++ more) := by
  obtain ⟨hFits, c, rest, rfl, hHead⟩ := h
  exact ⟨hFits.append hMore, c, rest ++ more, rfl, hHead⟩

/-- Identifiers fit anywhere. -/
theorem fits_of_isIdentifier {name : String} (h : isIdentifier name = true) : Fits 0 name.toList :=
  .of_forall fun c hc => not_mem_marks_of_isNamePart (isNamePart_of_isIdentifier h c hc)

/-- An identifier is a term. -/
theorem isTerm_of_isIdentifier {name : String} (h : isIdentifier name = true) :
    IsTerm name.toList := by
  obtain ⟨c, rest, hList, hFirst, -⟩ := isIdentifier_iff.mp h
  refine ⟨fits_of_isIdentifier h, c, rest, hList, Expression.isBlank_of_isNameStart hFirst, ?_, ?_⟩
  · rintro rfl
    cases hFirst
  · rintro rfl
    cases hFirst

/-- Digits, with any characters behind them that are no marks. -/
theorem isTerm_of_isDigit {digits more : List Char} (hSome : digits ≠ [])
    (hDigits : ∀ c ∈ digits, c.isDigit = true) (hMore : ∀ c ∈ more, c ∉ marks) :
    IsTerm (digits ++ more) := by
  have hFits : Fits 0 digits := .of_forall fun c hc =>
    not_mem_marks_of_isNamePart (isNamePart_of_isDigit (hDigits c hc))
  obtain ⟨c, rest, rfl⟩ := List.exists_cons_of_ne_nil hSome
  have hFirst := hDigits c List.mem_cons_self
  refine IsTerm.append ⟨hFits, c, rest, rfl, ?_, ?_, ?_⟩ (.of_forall hMore)
  · exact Expression.isBlank_of_isDigit hFirst
  · exact Decimal.Numeral.ne_of_isDigit hFirst rfl
  · exact Decimal.Numeral.ne_of_isDigit hFirst rfl

/-- The numeral of a float. -/
theorem isTerm_numeral {n : Decimal.Numeral} (h : n.WellFormed) : IsTerm n.text := by
  have hDigit {c : Char} (hc : c.isDigit = true) : c ∉ marks :=
    not_mem_marks_of_isNamePart (isNamePart_of_isDigit hc)
  have hFraction : ∀ c ∈ n.fractionText, c ∉ marks := by
    unfold Decimal.Numeral.fractionText
    split
    · nofun
    · exact List.forall_mem_cons.mpr ⟨by simp [marks], fun c hc => hDigit (h.fraction c hc)⟩
  have hPower : ∀ c ∈ n.powerText, c ∉ marks := by
    unfold Decimal.Numeral.powerText
    obtain hNone | hPower := h.power
    · rw [if_pos hNone]
      nofun
    · rw [if_neg hPower.ne_nil]
      refine List.forall_mem_cons.mpr ⟨by simp [marks], ?_⟩
      generalize n.power = power at hPower
      cases hPower with
      | plain _ hDigits => exact fun c hc => hDigit (hDigits c hc)
      | signed hSign _ hDigits =>
          refine List.forall_mem_cons.mpr ⟨?_, fun c hc => hDigit (hDigits c hc)⟩
          obtain rfl | rfl := hSign <;> simp [marks]
  exact isTerm_of_isDigit h.whole_ne h.whole (List.forall_mem_append.mpr ⟨hFraction, hPower⟩)

/-- A minus before a number. -/
theorem IsTerm.minus {text : List Char} (h : IsTerm text) : IsTerm ('-' :: text) :=
  ⟨(Fits.char (by simp [marks])).append h.fits, '-', text, rfl, by decide, by decide, by decide⟩

/-- Brackets make a term of all that fits in them. -/
theorem Fits.isTerm {text : List Char} (h : Fits 1 text) : IsTerm ('(' :: (text ++ [')'])) :=
  ⟨h.enclosed (.inl ⟨rfl, rfl⟩), '(', _, rfl, by decide, by decide, by decide⟩

/-- The text of a float is a term, be it finite or not. -/
theorem isTerm_floatText (x : Float32) : IsTerm (floatText x).toList := by
  rw [floatText]
  cases hFinite : x.isFinite with
  | false =>
      have hZero : Decimal.Numeral.WellFormed ⟨['0'], ['0'], []⟩ :=
        ⟨by simp, by simp, by simp, .inl rfl⟩
      simpa [Decimal.Numeral.text, Decimal.Numeral.tail, Decimal.Numeral.fractionText,
        Decimal.Numeral.powerText] using isTerm_numeral hZero
  | true =>
      have hNumeral := isTerm_numeral (Decimal.Style.debug.wellFormed_numeral
        (Decimal.literalOf .debug x))
      have hSigned : IsTerm (Decimal.spell .debug x).toList := by
        rw [Decimal.spell_toList .debug hFinite]
        cases Binary32.signBit x with
        | true => exact hNumeral.minus
        | false => exact hNumeral
      simp only [Bool.not_true, Bool.false_eq_true, if_false]
      split
      · simpa using hSigned.inside.isTerm
      · exact hSigned

/-- Digits with the letter of their type. -/
theorem isTerm_digitsOf (n : Nat) {c : Char} (hLetter : c ∉ marks) :
    IsTerm (Decimal.digitsOf n ++ [c]) :=
  isTerm_of_isDigit (Decimal.digitsOf_ne_nil n) (fun _ => Decimal.isDigit_of_mem_digitsOf)
    (List.forall_mem_singleton.mpr hLetter)

/-- The text of an integer is a term. -/
theorem isTerm_intText (i : Int) : IsTerm (intText i).toList := by
  cases i with
  | ofNat n =>
      rw [Expr.toList_intText_ofNat]
      exact isTerm_digitsOf n (by simp [marks])
  | negSucc n =>
      have hSigned := (isTerm_digitsOf (n + 1) (c := 'i') (by simp [marks])).minus
      rw [Expr.toList_intText_negSucc]
      simpa using hSigned.inside.isTerm

/-! ### Types and expressions -/

/-- The structures that a type names. -/
def Ty.structures : Ty → List String
  | .named name => [name]
  | _ => []

/-- The text of a type is a term where its structures have identifiers. -/
theorem isTerm_type {type : Ty} (h : ∀ name ∈ type.structures, isIdentifier name = true) :
    IsTerm type.text.toList := by
  have hWord : IsTerm type.word.toList := by
    cases type with
    | named name => exact isTerm_of_isIdentifier (h name (List.mem_singleton_self name))
    | _ => exact isTerm_of_isIdentifier (by decide)
  have hArgument : Fits 0 type.argument.toList :=
    .of_forall (by cases type <;> simp [Ty.argument, marks])
  rw [Ty.text_eq, String.toList_append]
  exact hWord.append hArgument

namespace Expr

mutual

/-- The names in an expression, those of types and functions among them. -/
def names : Expr → List String
  | .float _ => []
  | .int _ => []
  | .uint _ => []
  | .ident name => [name]
  | .field base name => base.names ++ [name]
  | .index base position => base.names ++ position.names
  | .neg e => e.names
  | .not e => e.names
  | .binary _ a b => a.names ++ b.names
  | .call function args => function :: allNames args
  | .construct type args => type.structures ++ allNames args

def allNames : List Expr → List String
  | [] => []
  | e :: rest => e.names ++ allNames rest

end

/-- An operator fits inside of parentheses, where blanks are allowed. -/
theorem fits_operator (op : BinaryOp) : Fits 1 op.text.toList :=
  .of_forall (by cases op <;> simp [BinaryOp.text, marks])

/-- The text of arguments fits inside of parentheses. -/
theorem fits_argsText {args : List Expr} (h : ∀ e ∈ args, IsTerm e.text.toList) :
    Fits 1 (argsText args) := by
  induction args with
  | nil =>
      rw [argsText_nil]
      exact .nil
  | cons e more ih =>
      obtain ⟨hFirst, hMore⟩ := List.forall_mem_cons.mp h
      cases more with
      | nil =>
          rw [argsText_singleton]
          exact hFirst.inside
      | cons second others =>
          have hComma : Fits 1 [',', ' '] := (Fits.char (by simp [marks])).append .blank
          rw [argsText_cons_cons]
          exact hFirst.inside.append (hComma.append (ih hMore))

/-- Arguments behind the function or the type that takes them. -/
theorem isTerm_call {function : List Char} (h : IsTerm function) {args : List Expr}
    (hArgs : ∀ e ∈ args, IsTerm e.text.toList) :
    IsTerm (function ++ '(' :: (argsText args ++ [')'])) :=
  h.append (fits_argsText hArgs).isTerm.fits

mutual

/-- The text of an expression is a term, whatever its floats are. So a line can be taken
apart at its blanks without reading the expressions in it. -/
theorem isTerm : (e : Expr) → (∀ name ∈ e.names, isIdentifier name = true) → IsTerm e.text.toList
  | .float x, _ => isTerm_floatText x
  | .int i, _ => isTerm_intText i
  | .uint n, _ => by
      rw [text, String.toList_append, toList_toString]
      exact isTerm_digitsOf n (c := 'u') (by simp [marks])
  | .ident name, h => isTerm_of_isIdentifier (h name (List.mem_singleton_self name))
  | .field base name, h => by
      obtain ⟨hBase, hName⟩ := List.forall_mem_append.mp h
      have hFits := fits_of_isIdentifier (hName name (List.mem_singleton_self name))
      have hPoint : Fits 0 ['.'] := .char (by simp [marks])
      simpa [text] using (isTerm base hBase).append (hPoint.append hFits)
  | .index base position, h => by
      obtain ⟨hBase, hPosition⟩ := List.forall_mem_append.mp h
      have hInner := (isTerm position hPosition).inside
      simpa [text] using (isTerm base hBase).append (hInner.enclosed (.inr ⟨rfl, rfl⟩))
  | .neg e, h => by
      have hInner := (isTerm e h).inside
      simpa [text] using hInner.isTerm.minus
  | .not e, h => by
      have hInner := (isTerm e h).inside
      have hNot : IsTerm ['!'] := ⟨.char (by simp [marks]), '!', [], rfl, by decide⟩
      simpa [text] using hNot.append hInner.isTerm.fits
  | .binary op a b, h => by
      obtain ⟨hLeft, hRight⟩ := List.forall_mem_append.mp h
      have hFirst := (isTerm a hLeft).inside
      have hSecond := (isTerm b hRight).inside
      have hOperator := Fits.blank.append ((fits_operator op).append .blank)
      simpa [text] using (hFirst.append (hOperator.append hSecond)).isTerm
  | .call function args, h => by
      obtain ⟨hName, hArgs⟩ := List.forall_mem_cons.mp h
      simpa [text, argsText] using isTerm_call (isTerm_of_isIdentifier hName) (areTerms args hArgs)
  | .construct type args, h => by
      obtain ⟨hType, hArgs⟩ := List.forall_mem_append.mp h
      simpa [text, argsText] using isTerm_call (isTerm_type hType) (areTerms args hArgs)

/-- The texts of arguments are terms where their names are identifiers. -/
theorem areTerms : (args : List Expr) → (∀ name ∈ allNames args, isIdentifier name = true) →
    ∀ e ∈ args, IsTerm e.text.toList
  | [], _ => by simp
  | e :: rest, h => by
      obtain ⟨hFirst, hRest⟩ := List.forall_mem_append.mp h
      exact List.forall_mem_cons.mpr ⟨isTerm e hFirst, areTerms rest hRest⟩

end

end Expr

end PathTracer.Shader
