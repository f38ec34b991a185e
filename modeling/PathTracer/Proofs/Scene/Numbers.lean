import PathTracer.Proofs.Expression.Lexing
import PathTracer.Proofs.Scene.Keyframes
import PathTracer.Proofs.Shader.Reading

/-! Numbers as the text of an option. A finite number is spelled as a numeral behind an optional
minus sign, and reading puts the sign back into the constant. Infinities and NaN are spelled as
names, which no option gives a value. -/
namespace PathTracer

namespace Expression

/-! ### Spelled numbers -/

/-- The number that the numeral of a spelled number stands for. -/
def magnitude (x : Float32) : Float32 :=
  Decimal.ofOrdinal false (Decimal.toOrdinal x)

/-- The tokens of a spelled number. -/
def spelled (x : Float32) : List Token :=
  if Binary32.signBit x then [.mark .minus, .number (magnitude x)] else [.number (magnitude x)]

variable {x : Float32}

/-- The numeral is one token, since what follows it neither continues it nor is a letter. -/
theorem tokens_numeral (h : x.isFinite = true) {rest : List Char} (hRest : Shader.Bounded rest) :
    tokens ((Decimal.Style.debug.numeral (Decimal.literalOf .debug x)).text ++ rest) =
      (tokens rest).map (.number (magnitude x) :: ·) := by
  obtain ⟨d, hLiteral, hNearest⟩ := Decimal.literal?_spelled .debug h
  have hFormed := Decimal.Style.debug.wellFormed_numeral (Decimal.literalOf .debug x)
  have hSplit := Shader.splitNumber_append hFormed hRest.endsNumber
    (fun hNone => absurd hNone (Shader.tail_numeral_debug _))
  have hNumber : lexNumber
      ((Decimal.Style.debug.numeral (Decimal.literalOf .debug x)).text ++ rest) =
        .ok (.number (magnitude x), rest) := by
    rw [lexNumber, hSplit, hLiteral]
    dsimp only
    rw [Decimal.Literal.toSingle, hNearest]
    rfl
  obtain ⟨c, digits, hWhole⟩ := List.exists_cons_of_ne_nil hFormed.whole_ne
  have hDigit : c.isDigit = true := hFormed.whole c (by rw [hWhole]; exact List.mem_cons_self)
  rw [Decimal.Numeral.text, hWhole, List.cons_append, List.cons_append] at hNumber ⊢
  refine tokens_of_lex (isBlank_of_isDigit hDigit) ?_
  rw [lex, hDigit, Bool.true_or, if_pos rfl, hNumber]

theorem tokens_spell (h : x.isFinite = true) {rest : List Char} (hRest : Shader.Bounded rest) :
    tokens ((Decimal.spell .debug x).toList ++ rest) = (tokens rest).map (spelled x ++ ·) := by
  have hNumeral := tokens_numeral h hRest
  rw [Decimal.spell_toList .debug h, spelled, List.append_assoc]
  cases Binary32.signBit x with
  | false => simpa using hNumeral
  | true =>
      rw [if_pos rfl, if_pos rfl, List.singleton_append, tokens_of_lex (by decide) rfl, hNumeral]
      cases tokens rest <;> rfl

/-- A minus sign before a numeral becomes the sign of the constant. -/
theorem isUnary_spelled (h : x.isFinite = true) : IsUnary (spelled x) (const (.float1 x)) := by
  have hNumeral : IsUnary [.number (magnitude x)] (const (.float1 (magnitude x))) :=
    .postfixed (.primary (.number _))
  have hSame := Decimal.ofOrdinal_toOrdinal h
  unfold spelled
  cases hSign : Binary32.signBit x with
  | false =>
      rw [hSign] at hSame
      rw [show magnitude x = x from hSame] at hNumeral ⊢
      exact hNumeral
  | true =>
      rw [hSign] at hSame
      have hNegated : (Value.float1 (magnitude x)).map (-·) = .float1 x :=
        congrArg Value.float1 hSame
      rw [← hNegated]
      exact .minusConst hNumeral

/-! ### Lists of spelled numbers -/

/-- The text of numbers with commas between them. -/
def listText (xs : List Float32) : String :=
  ", ".intercalate (xs.map (Decimal.spell .debug))

/-- The tokens of numbers with commas between them. -/
def listTokens : List Float32 → List Token
  | [] => []
  | [x] => spelled x
  | x :: y :: more => spelled x ++ .mark .comma :: listTokens (y :: more)

theorem toList_listText (x y : Float32) (more : List Float32) :
    (listText (x :: y :: more)).toList =
      (Decimal.spell .debug x).toList ++ ',' :: ' ' :: (listText (y :: more)).toList := by
  simp [listText, String.intercalate_cons_cons]

/-- The text of several numbers is their tokens with commas between them, in parentheses. -/
theorem tokens_listText {xs : List Float32} (hSome : xs ≠ []) (h : ∀ x ∈ xs, x.isFinite = true) :
    tokens (listText xs).toList = .ok (listTokens xs) := by
  induction xs with
  | nil => exact absurd rfl hSome
  | cons x xs ih =>
      have hFirst := h x List.mem_cons_self
      cases xs with
      | nil =>
          have hEnd : Shader.Bounded [] := nofun
          have hText := tokens_spell hFirst hEnd
          rw [List.append_nil, tokens] at hText
          simpa [listText, listTokens, Except.map] using hText
      | cons y more =>
          have hRest := ih (List.cons_ne_nil y more) fun z hz => h z (List.mem_cons_of_mem x hz)
          have hComma : Shader.Bounded (',' :: ' ' :: (listText (y :: more)).toList) := by
            rintro c ⟨rfl⟩
            decide
          rw [toList_listText, tokens_spell hFirst hComma, tokens_of_lex (by decide) rfl,
            tokens_of_blank (by decide), hRest]
          rfl

theorem isSums_listTokens {xs : List Float32} (hSome : xs ≠ []) (h : ∀ x ∈ xs, x.isFinite = true) :
    IsSums (listTokens xs) (xs.map fun x => const (.float1 x)) := by
  induction xs with
  | nil => exact absurd rfl hSome
  | cons x xs ih =>
      have hFirst : IsSum (spelled x) (const (.float1 x)) :=
        .product (.unary (isUnary_spelled (h x List.mem_cons_self)))
      cases xs with
      | nil => exact .last hFirst
      | cons y more =>
          have hRest := ih (List.cons_ne_nil y more) fun z hz => h z (List.mem_cons_of_mem x hz)
          exact .more hFirst hRest

theorem isList_listTokens {xs : List Float32} {v : Value} (hValue : Value.ofList? xs = some v)
    (h : ∀ x ∈ xs, x.isFinite = true) : IsList (listTokens xs) (const v) := by
  match xs with
  | [] => cases hValue
  | [x] =>
      cases hValue
      exact .single (.product (.unary (isUnary_spelled (h x List.mem_cons_self))))
  | x :: y :: more =>
      refine .constant (isSums_listTokens (List.cons_ne_nil x _) h) (by simp) ?_ hValue
      exact List.forall₂_map_left_iff.mpr (List.forall₂_same.mpr fun z _ => .const rfl)

/-- One to four numbers read back as their constant. -/
theorem parse_listText {xs : List Float32} {v : Value} (hValue : Value.ofList? xs = some v)
    (h : ∀ x ∈ xs, x.isFinite = true) : parse (listText xs) = .ok (const v) := by
  have hSome : xs ≠ [] := by
    rintro rfl
    cases hValue
  have hTokens : tokenize (listText xs) = .ok (listTokens xs) := by
    rw [tokenize, tokens_listText hSome h]
    split
    · rename_i hNone
      obtain ⟨first, rest, hCons, _⟩ := (isSums_listTokens hSome h).begins
      rw [hCons] at hNone
      cases hNone
    · rfl
  exact (isList_listTokens hValue h).parse_eq_ok hTokens

/-! ### Names of what is not finite -/

theorem tokens_name {c : Char} {rest : List Char} (hBlank : Text.isBlank c = false)
    (hLex : lex c rest = .ok (.name (String.ofList (c :: rest)), [])) :
    tokens (c :: rest) = .ok [.name (String.ofList (c :: rest))] := by
  rw [tokens_of_lex hBlank hLex, tokens]
  rfl

theorem isPostfix_name (name : String) : IsPostfix [.name name] (var name) :=
  .primary (.name name)

theorem parse_nan : parse "NaN" = .ok (var "NaN") := by
  have hTokens : tokenize "NaN" = .ok [.name "NaN"] := by
    rw [tokenize, show "NaN".toList = ['N', 'a', 'N'] from rfl, tokens_name (by decide) rfl]
  have hList : IsList [.name "NaN"] (var "NaN") :=
    .single (.product (.unary (.postfixed (isPostfix_name "NaN"))))
  exact hList.parse_eq_ok hTokens

theorem parse_inf : parse "inf" = .ok (var "inf") := by
  have hTokens : tokenize "inf" = .ok [.name "inf"] := by
    rw [tokenize, show "inf".toList = ['i', 'n', 'f'] from rfl, tokens_name (by decide) rfl]
  have hList : IsList [.name "inf"] (var "inf") :=
    .single (.product (.unary (.postfixed (isPostfix_name "inf"))))
  exact hList.parse_eq_ok hTokens

/-- A name has no sign of its own, so that the minus stays before it. -/
theorem parse_neg_inf : parse "-inf" = .ok (neg (var "inf")) := by
  have hTokens : tokenize "-inf" = .ok [.mark .minus, .name "inf"] := by
    rw [tokenize, show "-inf".toList = ['-', 'i', 'n', 'f'] from rfl,
      tokens_of_lex (by decide) rfl, tokens_name (by decide) rfl]
    rfl
  have hList : IsList [.mark .minus, .name "inf"] (neg (var "inf")) :=
    .single (.product (.unary (.minus (.postfixed (isPostfix_name "inf")) (by simp))))
  exact hList.parse_eq_ok hTokens

end Expression

/-! ### Options -/

namespace Options

open Expression (listText)

/-- The name that is spelled for a number that is not finite. -/
def nameOf (x : Float32) : String :=
  if x.isNaN then "NaN" else "inf"

theorem evalSource_listText (name : String) {xs : List Float32} {v : Value}
    (hValue : Value.ofList? xs = some v) (h : ∀ x ∈ xs, x.isFinite = true) :
    evalSource name (listText xs) = .ok v := by
  rw [evalSource, Expression.parse_listText hValue h]
  rfl

/-- A number that is not finite is spelled as a name, which no expression without variables
knows. The error quotes it. -/
theorem evalSource_spell_of_not_finite (name : String) {x : Float32} (h : x.isFinite = false) :
    evalSource name (Decimal.spell .debug x) =
      malformed name (Defect.unknownVariable (nameOf x)).message := by
  unfold nameOf Decimal.spell
  cases hNumber : x.isNaN with
  | true =>
      rw [if_pos rfl, if_pos rfl, evalSource, Expression.parse_nan]
      rfl
  | false =>
      have hInf : x.isInf = true := by
        obtain ⟨s, hUnpack⟩ := Binary32.exists_infinity hNumber h
        show x.toModel.unpack.isInf = true
        rw [hUnpack]
        rfl
      rw [if_neg Bool.false_ne_true, if_neg Bool.false_ne_true, hInf, if_pos rfl]
      cases Binary32.signBit x with
      | true =>
          show evalSource name "-inf" = _
          rw [evalSource, Expression.parse_neg_inf]
          rfl
      | false =>
          show evalSource name "inf" = _
          rw [evalSource, Expression.parse_inf]
          rfl

theorem value_set_source (o : Options) (name source : String) (time : Float32) :
    (o.set name (.source source)).value name time = (evalSource name source).map some := by
  rw [value, get?_set, if_pos rfl]

/-- A finite number that is set as an option is read back as it is, and so is a vector of
them. Other numbers are spelled as names that are not known. The number goes through its
shortest text, the lexer, the parser and the evaluator. Zeros keep their signs. -/
theorem float_set (o : Options) (name : String) (time : Float32) :
    (∀ x default : Float32, (o.set name (.ofFloat x)).float1 name default time =
      if x.isFinite then .ok x
      else .error (.malformedOption name (Defect.unknownVariable (nameOf x)).message)) ∧
    ∀ v default : Vec3 Float32, (∀ x ∈ v.toList, x.isFinite = true) →
      (o.set name (.ofVec3 v)).float3 name default time = .ok v := by
  constructor
  · intro x default
    rw [OptionValue.ofFloat, float1, typed, value_set_source]
    cases hFinite : x.isFinite with
    | true =>
        have hText : Decimal.spell .debug x = listText [x] := by simp [listText]
        rw [hText, evalSource_listText name (v := .float1 x) rfl (by simpa using hFinite)]
        rfl
    | false =>
        rw [evalSource_spell_of_not_finite name hFinite]
        rfl
  · intro v default hFinite
    have hText : OptionValue.ofVec3 v = .source (listText v.toList) := rfl
    rw [hText, float3, typed, value_set_source,
      evalSource_listText name (v := .float3 v) rfl hFinite]
    rfl

/-- The negative zero, the least number above zero, and one that is spelled with a power. -/
theorem float_set_small :
    (∀ x ∈ (⟨-0.0, 1.4e-45, 2.5e20⟩ : Vec3 Float32).toList, x.isFinite = true) ∧
      (Options.empty.set "Origin" (.ofVec3 ⟨-0.0, 1.4e-45, 2.5e20⟩)).float3 "Origin" .one 0.0 =
        .ok ⟨-0.0, 1.4e-45, 2.5e20⟩ := by
  have hFinite : ∀ x ∈ (⟨-0.0, 1.4e-45, 2.5e20⟩ : Vec3 Float32).toList, x.isFinite = true := by
    decide
  exact ⟨hFinite, (float_set .empty "Origin" 0.0).2 _ _ hFinite⟩

end Options

end PathTracer
