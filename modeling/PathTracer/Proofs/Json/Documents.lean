import PathTracer.Proofs.Json.Numbers

/-! Documents that are laid out with one item or one field on a line are read as
they were written, whatever stands in the lines, as long as each of them is a value
that is read up to the comma or the line's end behind it. -/
namespace PathTracer.Json

open Decimal

/-- What leaves a shorter text is taken to have consumed something. The reader recurses on
this. -/
theorem consumed?_eq {α : Type} {text : List Char} {r : α × List Char}
    (h : r.2.length < text.length) : consumed? text r = some ⟨r.1, r.2, h⟩ :=
  dif_pos h

/-! ### Blanks -/

/-- Blanks in front are skipped. -/
theorem skipBlanks_append {blanks text : List Char} (h : ∀ c ∈ blanks, isBlank c = true) :
    skipBlanks (blanks ++ text) = skipBlanks text :=
  List.dropWhile_append_of_pos h

/-- Nothing is skipped where no blank stands first. -/
theorem skipBlanks_cons {c : Char} (h : isBlank c = false) (text : List Char) :
    skipBlanks (c :: text) = c :: text :=
  List.dropWhile_cons_of_neg (by simp [h])

/-! ### What a text starts with -/

/-- A text starts with a value, and this is what follows it. -/
def Reads (strict : Bool) (text : List Char) (j : Json) (rest : List Char) : Prop :=
  ∃ h, value? strict text = some ⟨j, rest, h⟩

/-- A text starts with values up to a closing bracket. -/
def ReadsItems (text : List Char) (items : List Json) (rest : List Char) : Prop :=
  ∃ h, items? text = some ⟨items, rest, h⟩

/-- A text starts with fields up to a closing brace. -/
def ReadsFields (strict : Bool) (text : List Char) (fields : List (String × Json))
    (rest : List Char) : Prop :=
  ∃ h, fields? strict text = some ⟨fields, rest, h⟩

variable {strict : Bool} {text rest more after : List Char} {j : Json}

/-- A document is a value with nothing but blanks around it. -/
theorem parse?_of_reads {document : String} (h : Reads true (skipBlanks document.toList) j rest)
    (hEnd : skipBlanks rest = []) : parse? document = some j := by
  obtain ⟨hShorter, hValue⟩ := h
  unfold parse?
  rw [hValue]
  simp [hEnd]

/-- The word null is read as null. -/
theorem reads_null : Reads strict ('n' :: 'u' :: 'l' :: 'l' :: rest) null rest := by
  have hShorter : rest.length < ('n' :: 'u' :: 'l' :: 'l' :: rest).length := by
    simp only [List.length_cons]
    omega
  refine ⟨hShorter, ?_⟩
  rw [value?, consumed?_eq hShorter]

/-- An array that is not empty is read by its items. -/
theorem reads_items {items : List Json} (hSome : ∀ more, skipBlanks text ≠ ']' :: more)
    (h : ReadsItems (skipBlanks text) items rest) : Reads strict ('[' :: text) (array items) rest := by
  obtain ⟨hShorter, hItems⟩ := h
  have hLength := length_skipBlanks_le text
  have hAll : rest.length < ('[' :: text).length := by
    rw [List.length_cons]
    omega
  refine ⟨hAll, ?_⟩
  rw [value?]
  split
  · rename_i hEmpty
    exact absurd hEmpty (hSome _)
  · rw [hItems]
    exact consumed?_eq hAll

/-- An object that is not empty is read by its fields. Only at the top it is asked that no
key comes twice. -/
theorem reads_fields {fields : List (String × Json)} (hSome : ∀ more, skipBlanks text ≠ '\x7d' :: more)
    (h : ReadsFields strict (skipBlanks text) fields rest) :
    Reads strict ('\x7b' :: text) (object fields) rest := by
  obtain ⟨hShorter, hFields⟩ := h
  have hLength := length_skipBlanks_le text
  have hAll : rest.length < ('\x7b' :: text).length := by
    rw [List.length_cons]
    omega
  refine ⟨hAll, ?_⟩
  rw [value?]
  split
  · rename_i hEmpty
    exact absurd hEmpty (hSome _)
  · rw [hFields]
    exact consumed?_eq hAll

/-- A number is read where a value may stand. -/
theorem reads_number {n : Number} (hFirst : ∀ c ∈ text.head?, c = '-' ∨ c.isDigit = true)
    (hShorter : rest.length < text.length) (h : number? text = some (n, rest)) :
    Reads strict text (number n) rest := by
  have hOther (c : Char) (hMinus : c ≠ '-') (hDigit : c.isDigit = false) (more : List Char) :
      text ≠ c :: more := by
    rintro rfl
    obtain hSame | hSome := hFirst c rfl
    · exact hMinus hSame
    · rw [hDigit] at hSome
      cases hSome
  refine ⟨hShorter, ?_⟩
  rw [value?, h]
  · exact consumed?_eq hShorter
  all_goals exact fun _ => hOther _ (by decide) rfl _

/-- The last item stands before the closing bracket. -/
theorem readsItems_last (h : Reads false text j rest) (hClose : skipBlanks rest = ']' :: after) :
    ReadsItems text [j] after := by
  obtain ⟨hShorter, hValue⟩ := h
  have hLength := length_skipBlanks_le rest
  rw [hClose, List.length_cons] at hLength
  have hAll : after.length < text.length := by omega
  refine ⟨hAll, ?_⟩
  rw [items?, hValue]
  dsimp only
  rw [hClose]
  exact consumed?_eq hAll

/-- An item before a comma is followed by further ones. -/
theorem readsItems_more {items : List Json} (h : Reads false text j rest)
    (hComma : skipBlanks rest = ',' :: more) (hItems : ReadsItems (skipBlanks more) items after) :
    ReadsItems text (j :: items) after := by
  obtain ⟨hShorter, hValue⟩ := h
  obtain ⟨hLess, hItems⟩ := hItems
  have hLength := length_skipBlanks_le rest
  have hNext := length_skipBlanks_le more
  rw [hComma, List.length_cons] at hLength
  have hAll : after.length < text.length := by omega
  have hStart : (skipBlanks more).length < text.length := by omega
  refine ⟨hAll, ?_⟩
  rw [items?, hValue]
  simp only [hComma, consumed?_eq (r := ((), skipBlanks more)) hStart, hItems]
  exact consumed?_eq hAll

/-! ### Keys -/

/-- A character that stands for itself in a string. -/
def isPlain (c : Char) : Bool :=
  c != '"' && c != '\\' && decide (0x20 ≤ c.toNat) && decide (c.toNat < 0x80)

/-- A name of plain characters has the codes of its characters, with nothing to be
unescaped. -/
theorem stringCodes_plain {name : List Char} (h : ∀ c ∈ name, isPlain c = true) (rest : List Char) :
    stringCodes (name ++ '"' :: rest) = some (name.map Char.toNat, rest) := by
  induction name with
  | nil => rfl
  | cons c name ih =>
      have hPlain := h c List.mem_cons_self
      simp only [isPlain, Bool.and_eq_true, bne_iff_ne, decide_eq_true_eq] at hPlain
      obtain ⟨⟨⟨hQuote, hEscape⟩, hLow⟩, -⟩ := hPlain
      have hAllowed : (c.toNat < 0x20 || c = '\\') = false := by
        simp [hEscape]
        omega
      rw [List.cons_append, stringCodes.eq_def]
      split
      · rename_i hText
        cases hText
      · rename_i hText
        exact absurd (List.cons.inj hText).1 hQuote
      · rename_i hText
        exact absurd (List.cons.inj hText).1 hEscape
      · rename_i hText
        exact absurd (List.cons.inj hText).1 hEscape
      · rename_i hText
        obtain ⟨rfl, rfl⟩ := List.cons.inj hText
        simp [ih fun d hd => h d (List.mem_cons_of_mem _ hd), hAllowed]

/-- Plain characters are no halves of pairs. -/
theorem joinPairs_plain {name : List Char} (h : ∀ c ∈ name, isPlain c = true) :
    joinPairs (name.map Char.toNat) = name.map some := by
  have hWhole {c : Char} (hc : isPlain c = true) :
      isHighHalf c.toNat = false ∧ isLowHalf c.toNat = false := by
    simp only [isPlain, Bool.and_eq_true, decide_eq_true_eq] at hc
    simp only [isHighHalf, isLowHalf, Bool.and_eq_false_iff, decide_eq_false_iff_not]
    omega
  induction name with
  | nil => rfl
  | cons c name ih =>
      obtain ⟨hHigh, hLow⟩ := hWhole (h c List.mem_cons_self)
      have hRest := ih fun d hd => h d (List.mem_cons_of_mem _ hd)
      cases name with
      | nil => simp [joinPairs, hHigh, hLow]
      | cons d name =>
          rw [List.map_cons, List.map_cons] at hRest ⊢
          rw [joinPairs, hHigh, hLow]
          simpa using hRest

/-- A key of plain characters is read back with its colon. -/
theorem key?_plain (strict : Bool) {name : List Char} (h : ∀ c ∈ name, isPlain c = true)
    (rest : List Char) : ∃ h, key? strict ('"' :: (name ++ '"' :: ':' :: rest)) =
      some ⟨String.ofList name, rest, h⟩ := by
  have hCodes := stringCodes_plain h (':' :: rest)
  have hPairs := joinPairs_plain h
  have hStrict : strictText? (name.map Char.toNat) = some (String.ofList name) := by
    have hAll (text : List Char) : (text.map some).mapM id = some text := by
      induction text with
      | nil => rfl
      | cons c text ih => simp [List.mapM_cons, ih]
    rw [strictText?, hPairs, hAll]
    rfl
  have hLenient : lenientText (name.map Char.toNat) = String.ofList name := by
    rw [lenientText, hPairs]
    simp [Function.comp_def]
  have hShorter : rest.length < ('"' :: (name ++ '"' :: ':' :: rest)).length := by
    simp only [List.length_cons, List.length_append]
    omega
  refine ⟨hShorter, ?_⟩
  cases strict with
  | true =>
      simp only [key?, hCodes, Option.bind_eq_bind, Option.bind_some, if_true, hStrict]
      exact consumed?_eq hShorter
  | false =>
      simp only [key?, hCodes, Option.bind_eq_bind, Option.bind_some, Bool.false_eq_true, if_false,
        hLenient]
      exact consumed?_eq hShorter

/-! ### Fields -/

variable {name : List Char}

/-- What follows a key is shorter than the text with the key. -/
theorem length_skipBlanks_lt_key (name text : List Char) :
    (skipBlanks text).length < ('"' :: (name ++ '"' :: ':' :: text)).length := by
  have hLength := length_skipBlanks_le text
  simp only [List.length_cons, List.length_append]
  omega

/-- The last field stands before the closing brace. -/
theorem readsFields_last (hName : ∀ c ∈ name, isPlain c = true)
    (h : Reads false (skipBlanks text) j rest) (hClose : skipBlanks rest = '\x7d' :: after) :
    ReadsFields strict ('"' :: (name ++ '"' :: ':' :: text)) [(String.ofList name, j)] after := by
  obtain ⟨hKeyShorter, hKey⟩ := key?_plain strict hName text
  obtain ⟨hShorter, hValue⟩ := h
  have hStart := length_skipBlanks_lt_key name text
  have hLength := length_skipBlanks_le rest
  rw [hClose, List.length_cons] at hLength
  have hAll : after.length < ('"' :: (name ++ '"' :: ':' :: text)).length := by omega
  refine ⟨hAll, ?_⟩
  rw [fields?, hKey]
  simp only [consumed?_eq (r := ((), skipBlanks text)) hStart, hValue, hClose]
  exact consumed?_eq hAll

/-- A field before a comma is followed by further ones. -/
theorem readsFields_more {fields : List (String × Json)} (hName : ∀ c ∈ name, isPlain c = true)
    (h : Reads false (skipBlanks text) j rest) (hComma : skipBlanks rest = ',' :: more)
    (hFields : ReadsFields strict (skipBlanks more) fields after) :
    ReadsFields strict ('"' :: (name ++ '"' :: ':' :: text)) ((String.ofList name, j) :: fields)
      after := by
  obtain ⟨hKeyShorter, hKey⟩ := key?_plain strict hName text
  obtain ⟨hShorter, hValue⟩ := h
  obtain ⟨hLess, hFields⟩ := hFields
  have hStart := length_skipBlanks_lt_key name text
  have hLength := length_skipBlanks_le rest
  have hNext := length_skipBlanks_le more
  rw [hComma, List.length_cons] at hLength
  have hAll : after.length < ('"' :: (name ++ '"' :: ':' :: text)).length := by omega
  have hMore : (skipBlanks more).length < ('"' :: (name ++ '"' :: ':' :: text)).length := by omega
  refine ⟨hAll, ?_⟩
  rw [fields?, hKey]
  simp only [consumed?_eq (r := ((), skipBlanks text)) hStart, hValue, hComma,
    consumed?_eq (r := ((), skipBlanks more)) hMore, hFields]
  exact consumed?_eq hAll

/-! ### Lines -/

/-- A text that is read as a value whatever follows it, and that starts with no blank and no
closing bracket. -/
structure Spells (text : List Char) (j : Json) : Prop where
  first : ∃ c more, text = c :: more ∧ isBlank c = false ∧ c ≠ ']'
  reads : ∀ {strict : Bool} {rest : List Char}, Follows rest → Reads strict (text ++ rest) j rest

/-- A text that is read as a field. -/
structure SpellsField (text : List Char) (field : String × Json) : Prop where
  exists_value : ∃ name value, text = '"' :: (name ++ '"' :: ':' :: ' ' :: value) ∧
    (∀ c ∈ name, isPlain c = true) ∧ String.ofList name = field.1 ∧ Spells value field.2

/-- The text of a value does not start with a blank, so that only the blanks before it are
skipped. -/
theorem Spells.skipBlanks_append (h : Spells text j) {blanks : List Char}
    (hBlanks : ∀ c ∈ blanks, isBlank c = true) :
    skipBlanks (blanks ++ (text ++ rest)) = text ++ rest := by
  obtain ⟨c, more, rfl, hFirst, -⟩ := h.first
  rw [Json.skipBlanks_append hBlanks, List.cons_append, skipBlanks_cons hFirst]

/-- A value after the blank behind a colon. -/
theorem Spells.reads_spaced (h : Spells text j) (hRest : Follows rest) :
    Reads false (skipBlanks (' ' :: (text ++ rest))) j rest := by
  rw [← List.singleton_append, h.skipBlanks_append (by simp [isBlank])]
  exact h.reads hRest

/-- The text of a field does not start with a blank. -/
theorem SpellsField.skipBlanks_append {field : String × Json} (h : SpellsField text field)
    {blanks : List Char} (hBlanks : ∀ c ∈ blanks, isBlank c = true) :
    skipBlanks (blanks ++ (text ++ rest)) = text ++ rest := by
  obtain ⟨name, value, rfl, -⟩ := h.exists_value
  rw [Json.skipBlanks_append hBlanks, List.cons_append, skipBlanks_cons rfl]

/-- Lines with commas between them, each behind a margin. -/
def joined (margin : List Char) (texts : List (List Char)) : List Char :=
  [',', '\n'].intercalate (texts.map fun text => margin ++ text)

/-- One text stands behind its margin. -/
theorem joined_singleton (margin text : List Char) : joined margin [text] = margin ++ text :=
  List.intercalate_singleton

/-- Texts are separated by a comma and a new line. -/
theorem joined_cons_cons (margin first second : List Char) (texts : List (List Char)) :
    joined margin (first :: second :: texts) =
      margin ++ first ++ ',' :: '\n' :: joined margin (second :: texts) := by
  unfold joined
  rw [List.map_cons, List.map_cons, List.intercalate_cons_cons]
  simp

/-- A character that breaks off a number may follow one. -/
theorem follows_cons {c : Char} (h : isBreak c = true) : Follows (c :: rest) := by
  rintro d ⟨⟩
  exact h

/-- Blanks before such a character may follow a number too. -/
theorem follows_of_blanks {blanks : List Char} (h : ∀ c ∈ blanks, isBlank c = true) {c : Char}
    (hBreak : isBreak c = true) : Follows (blanks ++ c :: rest) := by
  cases blanks with
  | nil => exact follows_cons hBreak
  | cons b blanks => exact follows_cons (by simp [isBreak, h b List.mem_cons_self])

/-- Joined texts start with a margin and the first of them. -/
theorem joined_cons (margin first : List Char) (texts : List (List Char)) :
    ∃ more, joined margin (first :: texts) = margin ++ (first ++ more) := by
  cases texts with
  | nil => exact ⟨[], by rw [joined_singleton, List.append_nil]⟩
  | cons second texts => exact ⟨_, by rw [joined_cons_cons, List.append_assoc]⟩

section Lines

variable {margin blanks : List Char} (hMargin : ∀ c ∈ margin, isBlank c = true)
  (hBlanks : ∀ c ∈ blanks, isBlank c = true)

include hMargin hBlanks

/-- Items that are written on lines of their own are read back, whatever the margin. -/
theorem readsItems_joined {texts : List (List Char)} {items : List Json}
    (h : List.Forall₂ Spells texts items) (hSome : texts ≠ []) (rest : List Char) :
    ReadsItems (skipBlanks (joined margin texts ++ (blanks ++ ']' :: rest))) items rest := by
  induction h with
  | nil => exact absurd rfl hSome
  | @cons text j texts items hText hTexts ih =>
      cases texts with
      | nil =>
          cases hTexts
          rw [joined_singleton, List.append_assoc, hText.skipBlanks_append hMargin]
          refine readsItems_last (hText.reads (follows_of_blanks hBlanks rfl)) ?_
          rw [skipBlanks_append hBlanks, skipBlanks_cons rfl]
      | cons second texts =>
          rw [joined_cons_cons, List.append_assoc, List.append_assoc,
            hText.skipBlanks_append hMargin]
          refine readsItems_more (hText.reads (follows_cons rfl))
            (skipBlanks_cons rfl _) ?_
          exact ih (List.cons_ne_nil _ _)

/-- Fields that are written on lines of their own are read back, whatever the margin. -/
theorem readsFields_joined {texts : List (List Char)} {fields : List (String × Json)}
    (h : List.Forall₂ SpellsField texts fields) (hSome : texts ≠ []) (strict : Bool)
    (rest : List Char) :
    ReadsFields strict (skipBlanks (joined margin texts ++ (blanks ++ '\x7d' :: rest))) fields
      rest := by
  induction h with
  | nil => exact absurd rfl hSome
  | @cons text field texts fields hText hTexts ih =>
      obtain ⟨name, value, hLine, hName, hKey, hValue⟩ := hText.exists_value
      obtain ⟨key, j⟩ := field
      obtain rfl : String.ofList name = key := hKey
      cases texts with
      | nil =>
          cases hTexts
          rw [joined_singleton, List.append_assoc, hText.skipBlanks_append hMargin, hLine]
          simp only [List.cons_append, List.append_assoc]
          refine readsFields_last hName (hValue.reads_spaced (follows_of_blanks hBlanks rfl)) ?_
          rw [skipBlanks_append hBlanks, skipBlanks_cons rfl]
      | cons second texts =>
          rw [joined_cons_cons, List.append_assoc, List.append_assoc,
            hText.skipBlanks_append hMargin, hLine]
          simp only [List.cons_append, List.append_assoc]
          exact readsFields_more hName (hValue.reads_spaced (follows_cons rfl))
            (skipBlanks_cons rfl _) (ih (List.cons_ne_nil _ _))

/-- An array of values on lines of their own. -/
theorem Spells.array {texts : List (List Char)} {items : List Json}
    (h : List.Forall₂ Spells texts items) (hSome : texts ≠ []) :
    Spells ('[' :: '\n' :: (joined margin texts ++ (blanks ++ [']']))) (array items) := by
  refine ⟨⟨_, _, rfl, rfl, by decide⟩, fun {_ rest} _ => ?_⟩
  have hItems := readsItems_joined hMargin hBlanks h hSome rest
  have hLine : skipBlanks ('\n' :: (joined margin texts ++ (blanks ++ ']' :: rest))) =
      skipBlanks (joined margin texts ++ (blanks ++ ']' :: rest)) := rfl
  simp only [List.cons_append, List.append_assoc, List.nil_append]
  refine reads_items (fun more => ?_) (hLine ▸ hItems)
  rw [hLine]
  obtain ⟨text, texts, rfl⟩ := List.exists_cons_of_ne_nil hSome
  cases h with
  | cons hText _ =>
      obtain ⟨tail, hJoined⟩ := joined_cons margin text texts
      rw [hJoined, List.append_assoc, List.append_assoc, hText.skipBlanks_append hMargin]
      obtain ⟨c, more, rfl, -, hOther⟩ := hText.first
      exact fun hClose => hOther (List.cons.inj hClose).1

/-- A document of fields on lines of their own. This is how saved settings are read: one
object, with its fields in the order they were written. -/
theorem parse?_fields {text : String} {texts : List (List Char)} {fields : List (String × Json)}
    (h : List.Forall₂ SpellsField texts fields) (hSome : texts ≠ [])
    (hText : text.toList = '\x7b' :: '\n' :: (joined margin texts ++ (blanks ++ ['\x7d']))) :
    parse? text = some (object fields) := by
  have hFields := readsFields_joined hMargin hBlanks h hSome true []
  have hLine : skipBlanks ('\n' :: (joined margin texts ++ (blanks ++ ['\x7d']))) =
      skipBlanks (joined margin texts ++ (blanks ++ ['\x7d'])) := rfl
  have hRead : Reads true (skipBlanks text.toList) (object fields) [] := by
    rw [hText, skipBlanks_cons rfl]
    refine reads_fields (fun more => ?_) (hLine ▸ hFields)
    rw [hLine]
    obtain ⟨text, texts, rfl⟩ := List.exists_cons_of_ne_nil hSome
    cases h with
    | cons hText _ =>
        obtain ⟨tail, hJoined⟩ := joined_cons margin text texts
        rw [hJoined, List.append_assoc, List.append_assoc, hText.skipBlanks_append hMargin]
        obtain ⟨name, value, rfl, -⟩ := hText.exists_value
        exact fun hClose => absurd (List.cons.inj hClose).1 (by decide)
  exact parse?_of_reads hRead rfl

end Lines

/-! ### Words -/

/-- The word null spells null. -/
theorem spells_null : Spells ['n', 'u', 'l', 'l'] null :=
  ⟨⟨_, _, rfl, rfl, by decide⟩, fun _ => reads_null⟩

/-- The text of a number starts with a digit or a minus. No other value starts so. -/
theorem first_text {n : Numeral} (h : n.WellFormed) (negative : Bool) :
    ∃ c more, (if negative then ['-'] else []) ++ n.text = c :: more ∧
      (c = '-' ∨ c.isDigit = true) := by
  cases negative with
  | true => exact ⟨'-', n.text, rfl, .inl rfl⟩
  | false =>
      obtain ⟨c, more, hCons⟩ := List.exists_cons_of_ne_nil h.whole_ne
      refine ⟨c, more ++ n.tail, ?_, .inr (h.whole c (hCons ▸ List.mem_cons_self))⟩
      rw [Numeral.text, hCons]
      rfl

/-- A well formed numeral spells its number, if its whole part has no zero in front. -/
theorem spells_numeral {n : Numeral} (h : n.WellFormed) (hWhole : isWholeNumber n.whole = true)
    (negative : Bool) :
    Spells ((if negative then ['-'] else []) ++ n.text) (number (n.number negative)) := by
  obtain ⟨c, more, hText, hHead⟩ := first_text h negative
  have hOther : isBlank c = false ∧ c ≠ ']' := by
    obtain rfl | hDigit := hHead
    · exact ⟨rfl, by decide⟩
    · refine ⟨?_, Numeral.ne_of_isDigit hDigit rfl⟩
      by_contra hBlank
      have hBreak : isBreak c = true := by simp [isBreak, Bool.eq_true_of_not_eq_false hBlank]
      rw [not_isDigit_of_isBreak hBreak] at hDigit
      cases hDigit
  refine ⟨⟨c, more, hText, hOther⟩, fun {_ rest} hRest => ?_⟩
  refine reads_number ?_ ?_ (number?_text h hWhole hRest negative)
  · rw [hText]
    rintro d ⟨⟩
    exact hHead
  · rw [hText]
    simp only [List.cons_append, List.length_cons, List.length_append]
    omega

/-- The digits of a natural number spell the number. -/
theorem spells_digitsOf (k : ℕ) : Spells (digitsOf k) (number ⟨false, digitsOf k, [], none⟩) := by
  have hSpells := spells_numeral (wellFormed_digitsOf k) (isWholeNumber_digitsOf k) false
  rwa [text_digitsOf] at hSpells

end PathTracer.Json
