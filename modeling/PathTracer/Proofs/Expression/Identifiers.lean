import PathTracer.Proofs.Expression.Lexing
import PathTracer.Proofs.Expression.Parsing

/-! Names as expressions. The texts that are read as the variable of their own name are
the names that a local can have. -/
namespace PathTracer

namespace Text

/-- Lists of ranges without a common code point. -/
def areApart (first second : List (Nat × Nat)) : Bool :=
  first.all fun r => second.all fun s => decide (r.2 < s.1) || decide (s.2 < r.1)

theorem inRanges_of_areApart {first second : List (Nat × Nat)} {code : Nat}
    (h : areApart first second = true) (hCode : inRanges first code = true) :
    inRanges second code = false := by
  simp only [inRanges, areApart, List.any_eq_true, List.any_eq_false, List.all_eq_true,
    Bool.and_eq_true, Bool.or_eq_true, decide_eq_true_eq] at h hCode ⊢
  obtain ⟨r, hr, hLow, hHigh⟩ := hCode
  intro s hs hInside
  have hApart := h r hr s hs
  omega

theorem isBlank_of_isLetter {c : Char} (h : isLetter c = true) : isBlank c = false := by
  rw [isLetter, Bool.or_eq_true, Bool.and_eq_true] at h
  obtain hAlpha | ⟨-, hBeyond⟩ := h
  · have hCode : inRanges [(65, 90), (97, 122)] c.toNat = true := by
      simp only [Char.isAlpha, Char.isUpper, Char.isLower, Bool.or_eq_true, Bool.and_eq_true,
        decide_eq_true_eq, ge_iff_le, UInt32.le_iff_toNat_le] at hAlpha
      simpa [inRanges] using hAlpha
    exact inRanges_of_areApart (by decide) hCode
  · exact inRanges_of_areApart (by decide +kernel) hBeyond

end Text

namespace Expression

open Material (isIdentifier)

theorem isBlank_of_isNameStart {c : Char} (h : isNameStart c = true) : Text.isBlank c = false := by
  rw [isNameStart, Bool.or_eq_true, decide_eq_true_eq] at h
  obtain hLetter | rfl := h
  · exact Text.isBlank_of_isLetter hLetter
  · decide

/-! ### Identifiers and marks as tokens -/

/-- A name is read as one token up to the first character that cannot go on with it. -/
theorem lex_identifier {c : Char} {word more : List Char} (hFirst : isNameStart c = true)
    (hWord : ∀ d ∈ word, isNamePart d = true) (hMore : ∀ d ∈ more.head?, isNamePart d = false) :
    lex c (word ++ more) = .ok (.name (String.ofList (c :: word)), more) := by
  have hPoint : c ≠ '.' := by
    rintro rfl
    cases hFirst
  have hSharp : c ≠ '#' := by
    rintro rfl
    cases hFirst
  obtain ⟨hTake, hDrop⟩ := scan_append hWord hMore
  simp [lex, Shader.isDigit_of_isNameStart hFirst, hPoint, hSharp, hFirst, hTake, hDrop]

/-- An identifier is one token before anything that does not continue it. -/
theorem tokens_identifier {name : String} (h : isIdentifier name = true) {more : List Char}
    (hMore : ∀ d ∈ more.head?, isNamePart d = false) :
    tokens (name.toList ++ more) = (tokens more).map (.name name :: ·) := by
  obtain ⟨c, word, hList, hFirst, hWord⟩ := Shader.isIdentifier_iff.mp h
  rw [hList, List.cons_append,
    tokens_of_lex (isBlank_of_isNameStart hFirst) (lex_identifier hFirst hWord hMore), ← hList,
    String.ofList_toList]

/-- A mark is one token, unless it is a point before a digit. -/
theorem tokens_mark (m : Mark) {more : List Char} (h : startsDigit more = false) :
    tokens (m.char :: more) = (tokens more).map (.mark m :: ·) := by
  have hLex : lex m.char more = .ok (.mark m, more) := by
    unfold lex
    rw [h]
    cases m <;> rfl
  exact tokens_of_lex (by cases m <;> decide) hLex

/-- No mark continues an identifier. -/
theorem head?_mark (m : Mark) (more : List Char) :
    ∀ d ∈ (m.char :: more).head?, isNamePart d = false := by
  have hMark : isNamePart m.char = false := by
    cases m <;> decide
  simpa using hMark

/-- An identifier does not start with a digit, whatever follows it. -/
theorem startsDigit_identifier {name : String} (h : isIdentifier name = true)
    (more : List Char) : startsDigit (name.toList ++ more) = false := by
  obtain ⟨c, word, hList, hFirst, -⟩ := Shader.isIdentifier_iff.mp h
  rw [hList]
  exact Shader.isDigit_of_isNameStart hFirst

theorem tokenize_of_tokens {source : String} {token : Token} {rest : List Token}
    (h : tokens source.toList = .ok (token :: rest)) : tokenize source = .ok (token :: rest) := by
  rw [tokenize, h]

/-! ### Identifiers are read as variables -/

/-- An identifier is one token. -/
theorem tokenize_identifier {name : String} (h : isIdentifier name = true) :
    tokenize name = .ok [.name name] := by
  refine tokenize_of_tokens ?_
  rw [← List.append_nil name.toList, tokens_identifier h (by simp), tokens]
  rfl

/-- An identifier is read as the variable of its name. -/
theorem parse_identifier {name : String} (h : isIdentifier name = true) :
    parse name = .ok (var name) :=
  have hList : IsList [.name name] (var name) :=
    .single (.product (.unary (.postfixed (.primary (.name name)))))
  hList.parse_eq_ok (tokenize_identifier h)

/-- A selection of components of a variable. -/
theorem parse_selection (name letters : String) {components : List Component}
    (hName : isIdentifier name = true) (hLetters : isIdentifier letters = true)
    (hSelection : selection? letters = some components) :
    parse (name ++ "." ++ letters) = .ok (swizzle (var name) components) := by
  have hTokens : tokenize (name ++ "." ++ letters) =
      .ok [.name name, .mark .point, .name letters] := by
    refine tokenize_of_tokens ?_
    have hText : (name ++ "." ++ letters).toList =
        name.toList ++ Mark.point.char :: (letters.toList ++ []) := by simp [Mark.char]
    rw [hText, tokens_identifier hName (head?_mark .point _),
      tokens_mark .point (startsDigit_identifier hLetters []),
      tokens_identifier hLetters (by simp), tokens]
    rfl
  have hBase : IsPostfix [.name name] (var name) := .primary (.name name)
  have hList : IsList [.name name, .mark .point, .name letters] (swizzle (var name) components) :=
    .single (.product (.unary (.postfixed
      (hBase.select (selection?_eq_some_iff.mp hSelection)))))
  exact hList.parse_eq_ok hTokens

/-- A call with a variable as its argument. -/
theorem parse_call_identifier (function name : String)
    (hFunction : isIdentifier function = true) (hName : isIdentifier name = true) :
    parse (function ++ "(" ++ name ++ ")") = .ok (call function [var name]) := by
  have hTokens : tokenize (function ++ "(" ++ name ++ ")") =
      .ok [.name function, .mark .opening, .name name, .mark .closing] := by
    refine tokenize_of_tokens ?_
    have hText : (function ++ "(" ++ name ++ ")").toList =
        function.toList ++ Mark.opening.char :: (name.toList ++ [Mark.closing.char]) := by
      simp [Mark.char]
    rw [hText, tokens_identifier hFunction (head?_mark .opening _),
      tokens_mark .opening (startsDigit_identifier hName _),
      tokens_identifier hName (head?_mark .closing []), tokens_mark .closing rfl, tokens]
    rfl
  have hArgument : IsSums [.name name] [var name] :=
    .last (.product (.unary (.postfixed (.primary (.name name)))))
  have hList : IsList [.name function, .mark .opening, .name name, .mark .closing]
      (call function [var name]) :=
    .single (.product (.unary (.postfixed (.primary (.call function hArgument)))))
  exact hList.parse_eq_ok hTokens

/-! ### Variables are identifiers -/

/-- The names among the tokens of a text are identifiers. -/
theorem isIdentifier_of_follow {pieces : List Piece} (h : Piece.Follow pieces) {name : String}
    (hName : .name name ∈ pieces.filterMap Piece.token?) : isIdentifier name = true := by
  induction h with
  | nil => cases hName
  | blank _ _ ih => exact ih hName
  | lexeme hLexeme _ ih =>
      obtain hFirst | hMore := List.mem_cons.mp hName
      · subst hFirst
        cases hLexeme with
        | name hStart hParts _ =>
            exact Shader.isIdentifier_iff.mpr ⟨_, _, String.toList_ofList, hStart, hParts⟩
      · exact ih hMore

variable {name : String}

mutual

/-- What an expression references is among the names of its tokens. -/
theorem IsPrimary.name_mem {text : List Token} {e : Expression} :
    IsPrimary text e → e.references name = true → .name name ∈ text
  | .number _, h => nomatch h
  | .color _, h => nomatch h
  | .name x, h => by
      obtain rfl : x = name := by simpa [references] using h
      exact List.mem_singleton_self _
  | .callNone _, h => nomatch h
  | .call _ hArgs, h =>
      List.mem_cons_of_mem _ (List.mem_cons_of_mem _ (List.mem_append_left _ (hArgs.name_mem h)))
  | .group hInner, h => List.mem_cons_of_mem _ (List.mem_append_left _ (hInner.name_mem h))

/-- What a selection references stands among its tokens. -/
theorem IsPostfix.name_mem {text : List Token} {e : Expression} :
    IsPostfix text e → e.references name = true → .name name ∈ text
  | .primary hBase, h => hBase.name_mem h
  | .select hBase _, h => List.mem_append_left _ (hBase.name_mem h)

/-- What a negation references stands among its tokens. -/
theorem IsUnary.name_mem {text : List Token} {e : Expression} :
    IsUnary text e → e.references name = true → .name name ∈ text
  | .postfixed hOperand, h => hOperand.name_mem h
  | .minusConst _, h => nomatch h
  | .minus hOperand _, h => List.mem_cons_of_mem _ (hOperand.name_mem h)

/-- What a product references stands among its tokens. -/
theorem IsProduct.name_mem {text : List Token} {e : Expression} :
    IsProduct text e → e.references name = true → .name name ∈ text
  | .unary hFactor, h => hFactor.name_mem h
  | .join hLeft _ hRight, h => List.mem_append.mpr <| (Bool.or_eq_true _ _ ▸ h).imp
      hLeft.name_mem fun h => List.mem_cons_of_mem _ (hRight.name_mem h)

/-- What a sum references stands among its tokens. -/
theorem IsSum.name_mem {text : List Token} {e : Expression} :
    IsSum text e → e.references name = true → .name name ∈ text
  | .product hTerm, h => hTerm.name_mem h
  | .join hLeft _ hRight, h => List.mem_append.mpr <| (Bool.or_eq_true _ _ ▸ h).imp
      hLeft.name_mem fun h => List.mem_cons_of_mem _ (hRight.name_mem h)

/-- What a list of items references stands among its tokens. -/
theorem IsSums.name_mem {text : List Token} {items : List Expression} :
    IsSums text items → anyReferences name items = true → .name name ∈ text
  | .last hItem, h => hItem.name_mem (by simpa [anyReferences] using h)
  | .more hFirst hRest, h => List.mem_append.mpr <| (Bool.or_eq_true _ _ ▸ h).imp
      hFirst.name_mem fun h => List.mem_cons_of_mem _ (hRest.name_mem h)

end

/-- Whatever a parsed expression references stands among its tokens as a name. -/
theorem IsList.name_mem {text : List Token} {e : Expression} (hList : IsList text e)
    (h : e.references name = true) : .name name ∈ text := by
  cases hList with
  | single hSum => exact hSum.name_mem h
  | constant => cases h
  | vector hItems => exact hItems.name_mem h

/-- Whatever is read references identifiers only. -/
theorem isIdentifier_of_references {source : String} {e : Expression} (hRead : parse source = .ok e)
    (h : e.references name = true) : isIdentifier name = true := by
  cases hTokens : tokenize source with
  | error d => simp [parse, hTokens] at hRead
  | ok ts =>
      obtain ⟨pieces, hFollow, -, rfl⟩ := exists_pieces_of_tokenize hTokens
      exact isIdentifier_of_follow hFollow ((isList_of_parse hRead hTokens).name_mem h)

/-- A text is read as the variable of its own name exactly if it is an identifier. Blanks
around a name make it no identifier, although it is read as a variable of the name without
them. -/
theorem parse_eq_var_iff : parse name = .ok (var name) ↔ isIdentifier name = true :=
  ⟨fun h => isIdentifier_of_references h (beq_self_eq_true name), parse_identifier⟩

end Expression

end PathTracer
