import PathTracer.Proofs.Shader.Reading

/-! The words of generated code. A text is cut into the longest words there are, so that
the words of an expression are known from the words of its parts, whatever stands next
to them. -/
namespace PathTracer.Shader

open Expression (isNamePart isNameStart splitExponent)

/-- Words of an expression. A float is known by the ordinal of the number that is nearest
to its decimal. -/
inductive Word where
  | float (ordinal : Nat)
  | int (magnitude : Nat)
  | uint (value : Nat)
  | name (text : String)
  | operator (op : BinaryOp)
  | not
  | opening
  | closing
  | openingIndex
  | closingIndex
  | comma
  | point
  deriving Repr, DecidableEq

/-- Words with the text behind them. -/
abbrev Cut : Type := List Word × List Char

/-! ### Cutting a text -/

/-- Marks that are never part of a longer one. -/
def Word.ofMark? : Char → Option Word
  | '(' => some .opening
  | ')' => some .closing
  | '[' => some .openingIndex
  | ']' => some .closingIndex
  | ',' => some .comma
  | '.' => some .point
  | _ => none

/-- Operators with their words, the longer ones first. Those without a word belong to
statements and comments. -/
def operators : List (List Char × Option Word) :=
  [(['=', '='], some (.operator .eq)), (['!', '='], some (.operator .ne)),
   (['<', '='], some (.operator .le)), (['>', '='], some (.operator .ge)),
   (['&', '&'], some (.operator .and)), (['|', '|'], some (.operator .or)),
   (['-', '-'], none), (['+', '+'], none), (['-', '>'], none), (['<', '<'], none),
   (['>', '>'], none), (['+', '='], none), (['-', '='], none), (['*', '='], none),
   (['/', '='], none), (['/', '/'], none), (['/', '*'], none),
   (['+'], some (.operator .add)), (['-'], some (.operator .sub)), (['*'], some (.operator .mul)),
   (['/'], some (.operator .div)), (['<'], some (.operator .lt)), (['>'], some (.operator .gt)),
   (['!'], some .not)]

/-- The operator at the start of a text. -/
def cutOperator (text : List Char) : Option Cut :=
  (operators.find? fun operator => operator.1.isPrefixOf text).bind fun operator =>
    operator.2.map fun word => ([word], text.drop operator.1.length)

/-- The point and the digits of a fraction at the start of a text. -/
def splitPoint : List Char → List Char × List Char
  | '.' :: rest => ('.' :: rest.takeWhile Char.isDigit, rest.dropWhile Char.isDigit)
  | text => ([], text)

/-- The number at the start of a text. Whole ones are marked as signed or unsigned. -/
def cutNumber (text : List Char) : Option Cut :=
  let whole := text.takeWhile Char.isDigit
  let (fraction, afterFraction) := splitPoint (text.dropWhile Char.isDigit)
  let (exponent, rest) := splitExponent afterFraction
  if fraction ++ exponent = [] then
    match rest with
    | 'i' :: rest => some ([.int (Decimal.digitsValue whole 0)], rest)
    | 'u' :: rest => some ([.uint (Decimal.digitsValue whole 0)], rest)
    | _ => none
  else
    (Decimal.literal? (whole ++ (fraction ++ exponent))).map fun d =>
      ([.float (d.nearest Decimal.single)], rest)

/-- The word that starts with `c`, or none for a blank. -/
def cut (c : Char) (rest : List Char) : Option Cut :=
  if c.isDigit then cutNumber (c :: rest)
  else if isNameStart c then
    some ([.name (String.ofList (c :: rest.takeWhile isNamePart))], rest.dropWhile isNamePart)
  else if Text.isBlank c then some ([], rest)
  else
    match Word.ofMark? c with
    | some word => some ([word], rest)
    | none => cutOperator (c :: rest)

theorem length_splitPoint_le (text : List Char) : (splitPoint text).2.length ≤ text.length := by
  unfold splitPoint
  split
  · have hDrop := length_dropWhile_le Char.isDigit
    exact (hDrop _).trans (Nat.le_succ _)
  · exact Nat.le_refl _

/-- A number that is cut off takes at least its first digit, so that cutting a text into
words ends. -/
theorem length_cutNumber_lt {c : Char} {rest : List Char} (hDigit : c.isDigit = true) {found : Cut}
    (h : cutNumber (c :: rest) = some found) : found.2.length < (c :: rest).length := by
  have hExponent := Expression.length_splitExponent_le (splitPoint (rest.dropWhile Char.isDigit)).2
  have hPoint := length_splitPoint_le (rest.dropWhile Char.isDigit)
  have hDrop := length_dropWhile_le Char.isDigit rest
  simp only [cutNumber, List.dropWhile_cons_of_pos hDigit] at h
  split at h
  · split at h
    · rename_i hRest
      cases h
      rw [hRest] at hExponent
      simp only [List.length_cons] at hExponent ⊢
      omega
    · rename_i hRest
      cases h
      rw [hRest] at hExponent
      simp only [List.length_cons] at hExponent ⊢
      omega
    · cases h
  · obtain ⟨d, -, rfl⟩ := Option.map_eq_some_iff.mp h
    simp only [List.length_cons]
    omega

/-- Every word that is cut off is at least one character. -/
theorem length_cut_lt {c : Char} {rest : List Char} {found : Cut} (h : cut c rest = some found) :
    found.2.length < (c :: rest).length := by
  unfold cut at h
  split at h
  · rename_i hDigit
    exact length_cutNumber_lt hDigit h
  · split at h
    · cases h
      exact Nat.lt_succ_of_le (length_dropWhile_le _ rest)
    · split at h
      · cases h
        exact Nat.lt_succ_self _
      · split at h
        · cases h
          exact Nat.lt_succ_self _
        · obtain ⟨operator, hOperator, h⟩ := Option.bind_eq_some_iff.mp h
          obtain ⟨word, -, rfl⟩ := Option.map_eq_some_iff.mp h
          have hSome : 0 < operator.1.length := by
            have hAll : ∀ operator ∈ operators, 0 < operator.1.length := by decide
            exact hAll operator (List.mem_of_find?_eq_some hOperator)
          simp only [List.length_drop, List.length_cons]
          omega

/-- The words of a text. -/
def wordsOf : List Char → Option (List Word)
  | [] => some []
  | c :: rest =>
    match _h : cut c rest with
    | none => none
    | some found => (wordsOf found.2).map (found.1 ++ ·)
termination_by text => text.length
decreasing_by exact length_cut_lt ‹_›

/-- The words of a text are the first one that is cut off and those of what is left. -/
theorem wordsOf_cons {c : Char} {rest more : List Char} {found : List Word}
    (h : cut c rest = some (found, more)) :
    wordsOf (c :: rest) = (wordsOf more).map (found ++ ·) := by
  rw [wordsOf]
  split
  · rename_i hNone
    rw [h] at hNone
    cases hNone
  · rename_i other hSome
    obtain rfl := Option.some.inj (h.symm.trans hSome)
    rfl

/-- Cutting a text leads to these words and to those of what follows, if that does not go
on with a name or a number. -/
def Cuts (text : List Char) (found : List Word) : Prop :=
  ∀ rest, (∀ c ∈ rest.head?, isNamePart c = false) →
    wordsOf (text ++ rest) = (wordsOf rest).map (found ++ ·)

namespace Cuts

variable {text more : List Char} {found words : List Word}

theorem nil : Cuts [] [] := fun _ _ => Option.map_id_apply.symm

/-- Texts that are cut into words are cut one after the other, if no name or number could go
on across the seam. -/
theorem append (h : Cuts text found) (hMore : Cuts more words)
    (hHead : ∀ c ∈ more.head?, isNamePart c = false) : Cuts (text ++ more) (found ++ words) := by
  intro rest hRest
  have hBoth : ∀ c ∈ (more ++ rest).head?, isNamePart c = false := by
    cases more with
    | nil => exact hRest
    | cons c others => exact hHead
  rw [List.append_assoc, h _ hBoth, hMore rest hRest, Option.map_map]
  simp only [Function.comp_def, List.append_assoc]

/-- A word that is cut whatever follows the text. -/
theorem of_cut {c : Char} (lexeme : List Char) {word : Word}
    (hCut : ∀ rest, cut c (lexeme ++ (more ++ rest)) = some ([word], more ++ rest))
    (hMore : Cuts more words) : Cuts (c :: (lexeme ++ more)) (word :: words) := by
  intro rest hRest
  rw [List.cons_append, List.append_assoc, wordsOf_cons (hCut rest), hMore rest hRest,
    Option.map_map]
  rfl

/-! ### Marks -/

theorem blank (h : Cuts text found) : Cuts (' ' :: text) found := by
  intro rest hRest
  have hCut : cut ' ' (text ++ rest) = some ([], text ++ rest) := rfl
  rw [List.cons_append, wordsOf_cons hCut, h rest hRest, Option.map_map]
  rfl

theorem mark {c : Char} {word : Word} (hMark : Word.ofMark? c = some word) (h : Cuts text found) :
    Cuts (c :: text) (word :: found) := by
  have hCut (rest : List Char) : cut c rest = some ([word], rest) := by
    unfold Word.ofMark? at hMark
    split at hMark <;> cases hMark <;> rfl
  exact of_cut [] (fun rest => hCut (text ++ rest)) h

/-- An operator between its blanks. -/
theorem operator (op : BinaryOp) (h : Cuts text found) :
    Cuts (op.text.toList ++ ' ' :: text) (.operator op :: found) := by
  obtain ⟨c, lexeme, hText, hCut⟩ : ∃ c lexeme, op.text.toList = c :: lexeme ∧
      ∀ rest, cut c (lexeme ++ ' ' :: rest) = some ([.operator op], ' ' :: rest) := by
    cases op <;> exact ⟨_, _, rfl, fun _ => rfl⟩
  rw [hText]
  exact of_cut lexeme (fun rest => hCut (text ++ rest)) h.blank

/-- A minus before what makes no longer operator of it. -/
theorem minus {c : Char} (hOther : c ≠ '-' ∧ c ≠ '>' ∧ c ≠ '=') (h : Cuts (c :: text) found) :
    Cuts ('-' :: c :: text) (.operator .sub :: found) := by
  obtain ⟨hMinus, hArrow, hEqual⟩ := hOther
  have hCut (rest : List Char) : cutOperator ('-' :: c :: rest) =
      some ([.operator .sub], c :: rest) := by
    simp [cutOperator, operators, hMinus.symm, hArrow.symm, hEqual.symm]
  exact of_cut [] (fun rest => hCut (text ++ rest)) h

theorem not (h : Cuts text found) : Cuts ('!' :: '(' :: text) (.not :: .opening :: found) := by
  have hOpening : Cuts ('(' :: text) (.opening :: found) := mark rfl h
  exact of_cut [] (fun _ => rfl) hOpening

/-- A text up to the mark that closes it. -/
theorem closed {c : Char} {word : Word} (h : Cuts text found) (hMark : Word.ofMark? c = some word) :
    Cuts (text ++ [c]) (found ++ [word]) := by
  have hEnd : isNamePart c = false := by
    unfold Word.ofMark? at hMark
    split at hMark <;> cases hMark <;> rfl
  exact h.append (mark hMark nil) (by simpa using hEnd)

/-! ### Names -/

/-- An identifier is one word. -/
theorem name {name : String} (h : Material.isIdentifier name = true) :
    Cuts name.toList [.name name] := by
  obtain ⟨c, more, hText, hFirst, hMore⟩ := isIdentifier_iff.mp h
  intro rest hRest
  obtain ⟨hTake, hDrop⟩ := scan_append hMore hRest
  have hName : String.ofList (c :: more) = name := by rw [← hText, String.ofList_toList]
  have hCut : cut c (more ++ rest) = some ([.name name], rest) := by
    rw [cut, if_neg (by simp [isDigit_of_isNameStart hFirst]), if_pos hFirst, hTake, hDrop, hName]
  rw [hText, List.cons_append, wordsOf_cons hCut]

/-! ### Numbers -/

/-- A number that is cut as one. -/
theorem number {lexeme : List Char} {word : Word} (hSome : lexeme ≠ [])
    (hFirst : ∀ c ∈ lexeme.head?, c.isDigit = true)
    (hCut : ∀ rest, (∀ c ∈ rest.head?, isNamePart c = false) →
      cutNumber (lexeme ++ rest) = some ([word], rest)) : Cuts lexeme [word] := by
  obtain ⟨c, more, rfl⟩ := List.exists_cons_of_ne_nil hSome
  intro rest hRest
  have hWord : cut c (more ++ rest) = some ([word], rest) := by
    rw [cut, if_pos (hFirst c rfl)]
    exact hCut rest hRest
  rw [List.cons_append, wordsOf_cons hWord]

/-- A number behind a minus. -/
theorem minus_number {lexeme : List Char} (hSome : lexeme ≠ [])
    (hFirst : ∀ c ∈ lexeme.head?, c.isDigit = true) (h : Cuts lexeme found) :
    Cuts ('-' :: lexeme) (.operator .sub :: found) := by
  obtain ⟨c, more, rfl⟩ := List.exists_cons_of_ne_nil hSome
  have hOther {d : Char} (hOther : d.isDigit = false) : c ≠ d :=
    Decimal.Numeral.ne_of_isDigit (hFirst c rfl) hOther
  exact h.minus ⟨hOther rfl, hOther rfl, hOther rfl⟩

end Cuts

/-- Digits behind which a letter marks the type of the number. -/
theorem cutNumber_digitsOf (n : Nat) {mark : Char} (hMark : mark = 'i' ∨ mark = 'u')
    (rest : List Char) : cutNumber (Decimal.digitsOf n ++ mark :: rest) =
      some ([if mark = 'i' then .int n else .uint n], rest) := by
  have hEnd : ∀ c ∈ (mark :: rest).head?, c.isDigit = false := by
    obtain rfl | rfl := hMark <;> simp
  obtain ⟨hTake, hDrop⟩ := scan_append (fun _ => Decimal.isDigit_of_mem_digitsOf) hEnd
  have hPoint : splitPoint (mark :: rest) = ([], mark :: rest) := by
    obtain rfl | rfl := hMark <;> rfl
  have hExponent : splitExponent (mark :: rest) = ([], mark :: rest) := by
    obtain rfl | rfl := hMark <;> cases rest <;> simp [splitExponent]
  rw [cutNumber, hTake, hDrop, hPoint]
  dsimp only
  rw [hExponent]
  obtain rfl | rfl := hMark <;> simp [Decimal.digitsValue_digitsOf]

/-- What follows the whole part of a number is split off with its fraction and exponent,
where the number ends. -/
theorem splitPoint_append {n : Decimal.Numeral} (h : n.WellFormed) (hTail : n.tail ≠ [])
    {rest : List Char} (hRest : EndsNumber rest) :
    splitPoint (n.tail ++ rest) = (n.fractionText, n.powerText ++ rest) := by
  unfold Decimal.Numeral.tail Decimal.Numeral.fractionText at hTail ⊢
  by_cases hNone : n.fraction = []
  · rw [if_pos hNone, List.nil_append] at hTail ⊢
    have hPower : n.powerText = 'e' :: n.power := if_neg fun hPower => hTail (if_pos hPower)
    rw [hPower]
    rfl
  · obtain ⟨hTake, hDrop⟩ := scan_append h.fraction (n.head?_powerText hRest.digit)
    rw [if_neg hNone, List.append_assoc, List.cons_append, splitPoint, hTake, hDrop]

/-- The shortest text of a finite float is cut off as the number, its exponent included. -/
theorem cutNumber_float {x : Float32} (h : x.isFinite = true) {rest : List Char}
    (hRest : EndsNumber rest) :
    cutNumber ((Decimal.Style.debug.numeral (Decimal.literalOf .debug x)).text ++ rest) =
      some ([.float (Decimal.toOrdinal x)], rest) := by
  have hFormed := Decimal.Style.debug.wellFormed_numeral (Decimal.literalOf .debug x)
  have hTail := tail_numeral_debug (Decimal.literalOf .debug x)
  obtain ⟨d, hLiteral, hNearest⟩ := Decimal.literal?_spelled .debug h
  generalize Decimal.Style.debug.numeral (Decimal.literalOf .debug x) = n at hFormed hTail hLiteral
  obtain ⟨hTake, hDrop⟩ := scan_append hFormed.whole (n.head?_tail hRest.digit)
  rw [Decimal.Numeral.text, List.append_assoc, cutNumber, hTake, hDrop,
    splitPoint_append hFormed hTail hRest]
  dsimp only
  rw [splitExponent_append hFormed hRest]
  refine (if_neg hTail).trans ?_
  change (Decimal.literal? n.text).map _ = _
  rw [hLiteral, Option.map_some, hNearest]

/-! ### Expressions -/

/-- The words between the brackets that name the components of a vector. -/
def Ty.argumentWords : Ty → List Word
  | .vec2 => [.operator .lt, .name "f32", .operator .gt]
  | .vec3 => [.operator .lt, .name "f32", .operator .gt]
  | .vec4 => [.operator .lt, .name "f32", .operator .gt]
  | _ => []

def Ty.words (type : Ty) : List Word :=
  .name type.word :: type.argumentWords

/-- A float behind its sign. -/
def floatWords (x : Float32) : List Word :=
  (if Binary32.signBit x then [.operator .sub] else []) ++ [.float (Decimal.toOrdinal x)]

namespace Expr

mutual

/-- The words of the text of an expression. -/
def words : Expr → List Word
  | .float x => if x < 0.0 then .opening :: (floatWords x ++ [.closing]) else floatWords x
  | .int i =>
    if i < 0 then [.opening, .operator .sub, .int i.natAbs, .closing] else [.int i.natAbs]
  | .uint n => [.uint n]
  | .ident name => [.name name]
  | .field base name => base.words ++ [.point, .name name]
  | .index base position => base.words ++ .openingIndex :: (position.words ++ [.closingIndex])
  | .neg e => .operator .sub :: .opening :: (e.words ++ [.closing])
  | .not e => .not :: .opening :: (e.words ++ [.closing])
  | .binary op a b => .opening :: (a.words ++ .operator op :: (b.words ++ [.closing]))
  | .call function args => .name function :: .opening :: (allWords args ++ [.closing])
  | .construct type args => type.words ++ .opening :: (allWords args ++ [.closing])

/-- Arguments with a comma between them. -/
def allWords : List Expr → List Word
  | [] => []
  | [e] => e.words
  | e :: second :: others => e.words ++ .comma :: allWords (second :: others)

end

/-- Expressions whose names are identifiers other than types, whose named types construct
nothing and whose floats are finite. -/
inductive Printable : Expr → Prop where
  | float {x : Float32} (hFinite : x.isFinite = true) : Printable (.float x)
  | int (i : Int) : Printable (.int i)
  | uint (n : Nat) : Printable (.uint n)
  | ident {name : String} (hName : Material.isIdentifier name = true)
      (hType : Ty.ofWord? name = none) : Printable (.ident name)
  | field {base : Expr} {name : String} (hBase : Printable base)
      (hName : Material.isIdentifier name = true) : Printable (.field base name)
  | index {base position : Expr} (hBase : Printable base) (hPosition : Printable position) :
      Printable (.index base position)
  | neg {e : Expr} (hOperand : Printable e) : Printable (.neg e)
  | not {e : Expr} (hOperand : Printable e) : Printable (.not e)
  | binary {a b : Expr} (op : BinaryOp) (hLeft : Printable a) (hRight : Printable b) :
      Printable (.binary op a b)
  | call {function : String} {args : List Expr} (hName : Material.isIdentifier function = true)
      (hType : Ty.ofWord? function = none) (hArgs : ∀ e ∈ args, Printable e) :
      Printable (.call function args)
  | construct {type : Ty} {args : List Expr} (hType : ∀ name, type ≠ .named name)
      (hArgs : ∀ e ∈ args, Printable e) : Printable (.construct type args)

end Expr

namespace Cuts

/-- The text of a finite float is its words: a minus, if it is negative, and a number. -/
theorem float {x : Float32} (h : x.isFinite = true) :
    Cuts (floatText x).toList (Expr.words (.float x)) := by
  have hFormed := Decimal.Style.debug.wellFormed_numeral (Decimal.literalOf .debug x)
  have hCut {rest : List Char} (hRest : ∀ c ∈ rest.head?, isNamePart c = false) :=
    cutNumber_float h (.of_isNamePart hRest)
  have hSpell := Decimal.spell_toList .debug h
  generalize (Decimal.Style.debug.numeral (Decimal.literalOf .debug x)) = n at hFormed hCut hSpell
  have hSome : n.text ≠ [] := by simp [Decimal.Numeral.text, hFormed.whole_ne]
  have hFirst : ∀ c ∈ n.text.head?, c.isDigit = true := by
    rw [Decimal.Numeral.text, List.head?_append_of_ne_nil _ hFormed.whole_ne]
    exact fun c hc => hFormed.whole c (List.mem_of_mem_head? hc)
  have hNumber : Cuts n.text [.float (Decimal.toOrdinal x)] := number hSome hFirst fun _ => hCut
  have hSigned : Cuts (Decimal.spell .debug x).toList (floatWords x) := by
    rw [hSpell, floatWords]
    cases Binary32.signBit x with
    | true => exact hNumber.minus_number hSome hFirst
    | false => exact hNumber
  rw [floatText, Expr.words, h]
  simp only [Bool.not_true, Bool.false_eq_true, if_false]
  split
  · rw [String.toList_append, String.toList_append]
    exact mark rfl (hSigned.closed rfl)
  · exact hSigned

theorem isDigit_head?_digitsOf (n : Nat) (rest : List Char) :
    ∀ c ∈ (Decimal.digitsOf n ++ rest).head?, c.isDigit = true := by
  rw [List.head?_append_of_ne_nil _ (Decimal.digitsOf_ne_nil n)]
  exact fun c hc => Decimal.isDigit_of_mem_digitsOf (List.mem_of_mem_head? hc)

/-- Digits with the letter of a type are one word. -/
theorem digits (n : Nat) {mark : Char} (hMark : mark = 'i' ∨ mark = 'u') :
    Cuts (Decimal.digitsOf n ++ [mark]) [if mark = 'i' then .int n else .uint n] := by
  refine number (by simp) (isDigit_head?_digitsOf n [mark]) fun rest _ => ?_
  rw [List.append_assoc]
  exact cutNumber_digitsOf n hMark rest

/-- The text of an integer is its words. A negative one brings its own parentheses. -/
theorem int (i : Int) : Cuts (intText i).toList (Expr.words (.int i)) := by
  rw [Expr.words]
  cases i with
  | ofNat n =>
      rw [if_neg (by simp), Expr.toList_intText_ofNat]
      exact digits n (.inl rfl)
  | negSucc n =>
      rw [if_pos (Int.negSucc_lt_zero n), Expr.toList_intText_negSucc]
      have hSigned := (digits (n + 1) (.inl rfl)).minus_number (by simp)
        (isDigit_head?_digitsOf (n + 1) ['i'])
      simpa using mark (c := '(') rfl (hSigned.closed (c := ')') rfl)

/-- The text of an unsigned integer is one word. -/
theorem uint (n : Nat) : Cuts (Expr.text (.uint n)).toList (Expr.words (.uint n)) := by
  rw [Expr.text, Expr.words, String.toList_append, Expr.toList_toString]
  exact digits n (.inr rfl)

/-- The head of a constructor up to its arguments. -/
theorem type {type : Ty} (hType : ∀ name, type ≠ .named name) (h : Cuts text found) :
    Cuts (type.text.toList ++ '(' :: text) (type.words ++ .opening :: found) := by
  have hPlain (word : String) (hWord : Material.isIdentifier word = true) :
      Cuts (word.toList ++ '(' :: text) (.name word :: .opening :: found) :=
    (name hWord).append (mark rfl h) (by simp +decide)
  have hVector (word : String) (hWord : Material.isIdentifier word = true) :
      Cuts (word.toList ++ "<f32>(".toList ++ text) (.name word :: .operator .lt :: .name "f32" ::
        .operator .gt :: .opening :: found) := by
    have hEnd : Cuts ('>' :: '(' :: text) (.operator .gt :: .opening :: found) :=
      of_cut [] (fun _ => rfl) (mark rfl h)
    have hComponent : Cuts ("f32".toList ++ '>' :: '(' :: text) (.name "f32" :: .operator .gt ::
        .opening :: found) :=
      (name (by decide)).append hEnd (by simp +decide)
    have hArgument : Cuts ("<f32>(".toList ++ text) (.operator .lt :: .name "f32" ::
        .operator .gt :: .opening :: found) :=
      of_cut [] (fun _ => rfl) hComponent
    rw [List.append_assoc]
    exact (name hWord).append hArgument (by simp +decide)
  cases type with
  | named name => exact absurd rfl (hType name)
  | f32 => exact hPlain "f32" (by decide)
  | i32 => exact hPlain "i32" (by decide)
  | u32 => exact hPlain "u32" (by decide)
  | bool => exact hPlain "bool" (by decide)
  | vec2 => exact hVector "vec2" (by decide)
  | vec3 => exact hVector "vec3" (by decide)
  | vec4 => exact hVector "vec4" (by decide)

/-- Arguments are cut into their words, with commas between them. -/
theorem arguments {args : List Expr} (h : ∀ e ∈ args, Cuts e.text.toList e.words) :
    Cuts (argsText args) (Expr.allWords args) := by
  induction args with
  | nil =>
      rw [argsText_nil]
      exact nil
  | cons e more ih =>
      obtain ⟨hFirst, hMore⟩ := List.forall_mem_cons.mp h
      cases more with
      | nil =>
          rw [argsText_singleton]
          exact hFirst
      | cons second others =>
          rw [argsText_cons_cons]
          exact hFirst.append (mark rfl (ih hMore).blank) (by simp +decide)

end Cuts

/-- The text of an expression is cut into its words. -/
theorem Expr.Printable.cuts {e : Expr} (h : e.Printable) : Cuts e.text.toList e.words := by
  induction h with
  | float hFinite => exact .float hFinite
  | int i => exact .int i
  | uint n => exact .uint n
  | ident hName hType => exact .name hName
  | field hBase hName ih =>
      have hSelection := Cuts.mark (c := '.') rfl (.name hName)
      simpa [text, words] using ih.append hSelection (by simp +decide)
  | index hBase hPosition ihBase ihPosition =>
      have hIndex := Cuts.mark (c := '[') rfl (ihPosition.closed (c := ']') rfl)
      simpa [text, words] using ihBase.append hIndex (by simp +decide)
  | neg hOperand ih =>
      have hEnclosed := Cuts.mark (c := '(') rfl (ih.closed (c := ')') rfl)
      simpa [text, words] using hEnclosed.minus (by decide)
  | not hOperand ih =>
      simpa [text, words] using (ih.closed (c := ')') rfl).not
  | binary op hLeft hRight ihLeft ihRight =>
      have hOperator := (Cuts.operator op (ihRight.closed (c := ')') rfl)).blank
      simpa [text, words] using Cuts.mark (c := '(') rfl (ihLeft.append hOperator (by simp +decide))
  | call hName hType hArgs ih =>
      have hList := Cuts.mark (c := '(') rfl ((Cuts.arguments ih).closed (c := ')') rfl)
      simpa [text, words, argsText] using (Cuts.name hName).append hList (by simp +decide)
  | construct hType hArgs ih =>
      simpa [text, words, argsText] using Cuts.type hType ((Cuts.arguments ih).closed (c := ')') rfl)

end PathTracer.Shader
