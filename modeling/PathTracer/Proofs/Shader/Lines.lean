import PathTracer.Proofs.Shader.Outline

/-! Lines of generated code read back from their text, whatever their indentation is. -/
namespace PathTracer.Shader

open Material (isIdentifier)

/-! ### The text of a line -/

/-- What stands between two words is found exactly if the words are there. -/
theorem between_eq_some_iff {opening closing inner : String} {text : List Char} :
    between opening closing text = some inner ↔
      text = opening.toList ++ (inner.toList ++ closing.toList) := by
  simp only [between, Option.bind_eq_some_iff, Option.map_eq_some_iff,
    List.dropPrefix?_eq_some_iff, List.dropSuffix?_eq_some_iff, beq_iff_eq]
  constructor
  · rintro ⟨_, ⟨_, rfl, rfl⟩, _, ⟨_, rfl, rfl⟩, rfl⟩
    rw [String.toList_ofList]
  · rintro rfl
    exact ⟨_, ⟨_, rfl, rfl⟩, _, ⟨_, rfl, rfl⟩, String.ofList_toList⟩

/-- What is put between two words is found between them. -/
theorem between_append (opening inner closing : String) :
    between opening closing (opening.toList ++ (inner.toList ++ closing.toList)) = some inner :=
  between_eq_some_iff.mpr rfl

/-- A text that starts otherwise is not between the words. -/
theorem between_eq_none_of_head? {opening closing : String} {text : List Char} {c : Char}
    (hOpening : opening.toList.head? = some c) (h : text.head? ≠ some c) :
    between opening closing text = none := by
  rw [Option.eq_none_iff_forall_ne_some]
  intro inner hSome
  rw [between_eq_some_iff.mp hSome, List.head?_append, hOpening] at h
  exact h rfl

/-- A text that ends otherwise is not between the words. -/
theorem between_eq_none_of_getLast? {opening closing : String} {text : List Char} {c : Char}
    (hClosing : closing.toList.getLast? = some c) (h : text.getLast? ≠ some c) :
    between opening closing text = none := by
  rw [Option.eq_none_iff_forall_ne_some]
  intro inner hSome
  rw [between_eq_some_iff.mp hSome, List.getLast?_append, List.getLast?_append, hClosing] at h
  exact h rfl

/-- Two terms around a mark are read back, where the first one fits. -/
theorem readPair_append {first : String} (h : Fits 0 first.toList) (second closing : String) :
    readPair " = " closing (first.toList ++ (" = ".toList ++ (second.toList ++ closing.toList))) =
      some (first, second) := by
  have hSplit : splitTerm 0 (first.toList ++ (" = ".toList ++ (second.toList ++ closing.toList))) =
      (first.toList, " = ".toList ++ (second.toList ++ closing.toList)) :=
    splitTerm_append h (by simp)
  rw [readPair, hSplit]
  dsimp only
  rw [between_append, Option.map_some, String.ofList_toList]

/-- A word that has anything else than an equality sign behind it is not assigned to. -/
theorem readPair_eq_none {word rest : List Char} {closing : String} (h : Fits 0 word)
    (hRest : ∀ c ∈ rest.head?, c ≠ '=') : readPair " = " closing (word ++ ' ' :: rest) = none := by
  have hSplit : splitTerm 0 (word ++ ' ' :: rest) = (word, ' ' :: rest) :=
    splitTerm_append h (by simp)
  rw [readPair, hSplit, Option.map_eq_none_iff, Option.eq_none_iff_forall_ne_some]
  intro inner hSome
  have hSign : rest = '=' :: ' ' :: (inner.toList ++ closing.toList) := by
    simpa using between_eq_some_iff.mp hSome
  exact hRest '=' (by rw [hSign]; rfl) rfl

namespace Plain

def text : Plain → String
  | .bind name value => "let " ++ name ++ " = " ++ value ++ ";"
  | .declare name type (some value) => "var " ++ name ++ ": " ++ type ++ " = " ++ value ++ ";"
  | .declare name type none => "var " ++ name ++ ": " ++ type ++ ";"
  | .assign target value => target ++ " = " ++ value ++ ";"
  | .return (some value) => "return " ++ value ++ ";"
  | .return none => "return;"
  | .comment text => "// " ++ text

/-- Statements on one line with identifiers for names and terms for expressions. -/
inductive Proper : Plain → Prop where
  | bind {name value : String} (hName : isIdentifier name = true) (hValue : IsTerm value.toList) :
      Proper (.bind name value)
  | declare {name type : String} {value : Option String} (hName : isIdentifier name = true)
      (hType : IsTerm type.toList) (hValue : ∀ v ∈ value, IsTerm v.toList) :
      Proper (.declare name type value)
  | assign {target value : String} (hTarget : IsTerm target.toList) (hValue : IsTerm value.toList) :
      Proper (.assign target value)
  | return {value : Option String} (hValue : ∀ v ∈ value, IsTerm v.toList) : Proper (.return value)
  | comment {text : String} (hText : '\n' ∉ text.toList) : Proper (.comment text)

/-- A word with a blank and no equality sign behind it opens neither a comment nor an
assignment. -/
theorem read_word {word : String} (hWord : isIdentifier word = true) {line rest : List Char}
    (hLine : line = word.toList ++ ' ' :: rest) (hRest : ∀ c ∈ rest.head?, c ≠ '=') :
    between "// " "" line = none ∧ readPair " = " ";" line = none := by
  subst hLine
  refine ⟨between_eq_none_of_head? (c := '/') rfl fun hHead => ?_,
    readPair_eq_none (fits_of_isIdentifier hWord) hRest⟩
  exact ((isTerm_of_isIdentifier hWord).head?_append _ _ hHead).2.1 rfl

/-- A binding is read back from its line. -/
theorem read_bind {name value : String} (hName : isIdentifier name = true) :
    read (text (.bind name value)).toList = some (.bind name value) := by
  have hText : (text (.bind name value)).toList = "let ".toList ++ (name.toList ++
      (" = ".toList ++ (value.toList ++ ";".toList))) := by simp [text]
  have hLet : isIdentifier "let" = true := by decide
  obtain ⟨hComment, hAssign⟩ := read_word hLet (hText.trans (by simp; rfl)) fun c hc =>
    ((isTerm_of_isIdentifier hName).head?_append _ c hc).2.2
  rw [read, hComment, hAssign, hText, skip_append]
  simp only [readPair_append (fits_of_isIdentifier hName), Option.map_some]

/-- A name with a type is read back, with a value or without one. -/
theorem readDeclare_append {name type : String} {value : Option String}
    (hName : isIdentifier name = true) (hType : IsTerm type.toList) :
    readDeclare (name.toList ++ (": ".toList ++
      ((type ++ value.elim "" (" = " ++ ·)).toList ++ ";".toList))) =
        some (.declare name type value) := by
  have hSplit (more : List Char) : splitName (name.toList ++ (": ".toList ++ more)) =
      (name, ": ".toList ++ more) :=
    splitName_append (isNamePart_of_isIdentifier hName) (by simp +decide)
  rw [readDeclare, hSplit]
  dsimp only
  rw [between_append, Option.map_some]
  cases value with
  | none =>
      have hNone : readPair " = " "" type.toList = none := by
        have hEnd : splitTerm 0 (type.toList ++ []) = (type.toList, []) :=
          splitTerm_append hType.fits nofun
        rw [List.append_nil] at hEnd
        rw [readPair, hEnd]
        rfl
      simp [hNone]
  | some v =>
      have hSome := readPair_append hType.fits v ""
      rw [String.toList_empty, List.append_nil, ← String.toList_append,
        ← String.toList_append] at hSome
      simp only [Option.elim_some, hSome]

/-- A declaration is read back from its line. -/
theorem read_declare {name type : String} {value : Option String}
    (hName : isIdentifier name = true) (hType : IsTerm type.toList) :
    read (text (.declare name type value)).toList = some (.declare name type value) := by
  have hText : (text (.declare name type value)).toList = "var ".toList ++ (name.toList ++
      (": ".toList ++ ((type ++ value.elim "" (" = " ++ ·)).toList ++ ";".toList))) := by
    cases value <;> simp [text]
  have hVar : isIdentifier "var" = true := by decide
  obtain ⟨hComment, hAssign⟩ := read_word hVar (hText.trans (by simp; rfl)) fun c hc =>
    ((isTerm_of_isIdentifier hName).head?_append _ c hc).2.2
  have hBind (more : List Char) : skip "let ".toList ("var ".toList ++ more) = none := by
    simp [skip]
  rw [read, hComment, hAssign, hText, hBind, skip_append]
  exact readDeclare_append hName hType

/-- A return is read back from its line. -/
theorem read_return {value : Option String} (hValue : ∀ v ∈ value, IsTerm v.toList) :
    read (text (.return value)).toList = some (.return value) := by
  cases value with
  | none => rfl
  | some v =>
      have hText : (text (.return (some v))).toList = "return ".toList ++ (v.toList ++
          ";".toList) := by simp [text]
      have hReturn : isIdentifier "return" = true := by decide
      obtain ⟨hComment, hAssign⟩ := read_word hReturn (hText.trans (by simp; rfl)) fun c hc =>
        ((hValue v rfl).head?_append _ c hc).2.2
      have hBind (more : List Char) : skip "let ".toList ("return ".toList ++ more) = none := by
        simp [skip]
      have hDeclare (more : List Char) : skip "var ".toList ("return ".toList ++ more) = none := by
        simp [skip]
      have hSome : "return ".toList ++ (v.toList ++ ";".toList) ≠ "return;".toList := by simp
      rw [read, hComment, hAssign, hText, hBind, hDeclare, readReturn, if_neg hSome,
        between_append, Option.map_some]

/-- An assignment is read back from its line. -/
theorem read_assign {target value : String} (hTarget : IsTerm target.toList) :
    read (text (.assign target value)).toList = some (.assign target value) := by
  have hText : (text (.assign target value)).toList = target.toList ++ (" = ".toList ++
      (value.toList ++ ";".toList)) := by simp [text]
  have hComment : between "// " "" (text (.assign target value)).toList = none := by
    rw [hText]
    exact between_eq_none_of_head? (c := '/') rfl fun hHead =>
      (hTarget.head?_append _ _ hHead).2.1 rfl
  rw [read, hComment, hText, readPair_append hTarget.fits]

/-- Any words are read back from a comment, also such that look like code. -/
theorem read_comment (words : String) :
    read (text (.comment words)).toList = some (.comment words) := by
  have hText : (text (.comment words)).toList = "// ".toList ++ (words.toList ++ "".toList) := by
    simp [text]
  rw [read, hText, between_append]

/-- A statement is read back from its text. -/
theorem Proper.read_text {s : Plain} (h : s.Proper) : read s.text.toList = some s := by
  cases h with
  | bind hName hValue => exact read_bind hName
  | declare hName hType hValue => exact read_declare hName hType
  | assign hTarget hValue => exact read_assign hTarget
  | «return» hValue => exact read_return hValue
  | comment hText => exact read_comment _

def isComment : Plain → Bool
  | .comment _ => true
  | _ => false

/-- Every statement that is no comment ends with a semicolon. -/
theorem getLast?_text {s : Plain} (h : s.isComment = false) :
    s.text.toList.getLast? = some ';' := by
  have hLast (body : String) : (body ++ ";").toList.getLast? = some ';' := by
    rw [String.toList_append]
    exact List.getLast?_concat
  cases s with
  | bind name value => exact hLast _
  | declare name type value => cases value <;> exact hLast _
  | assign target value => exact hLast _
  | «return» value =>
      cases value with
      | none => rfl
      | some v => exact hLast _
  | comment words => cases h

/-- A statement that is no comment has no brace and no line break in it. -/
theorem Proper.isClean_text {s : Plain} (h : s.Proper) (hCode : s.isComment = false) :
    IsClean s.text.toList := by
  cases h with
  | bind hName hValue => simp [text, (fits_of_isIdentifier hName).clean, hValue.fits.clean]
  | @declare name type value hName hType hValue =>
      cases value with
      | none => simp [text, (fits_of_isIdentifier hName).clean, hType.fits.clean]
      | some v =>
          simp [text, (fits_of_isIdentifier hName).clean, hType.fits.clean,
            (hValue v rfl).fits.clean]
  | assign hTarget hValue => simp [text, hTarget.fits.clean, hValue.fits.clean]
  | @«return» value hValue =>
      cases value with
      | none => simp [text]
      | some v => simp [text, (hValue v rfl).fits.clean]
  | comment hText => cases hCode

/-- A statement starts at its first character, which opens no comment unless it is one. -/
theorem Proper.exists_head {s : Plain} (h : s.Proper) : ∃ c rest, s.text.toList = c :: rest ∧
    Text.isBlank c = false ∧ (s.isComment = false → c ≠ '/') := by
  cases h with
  | bind _ _ => exact ⟨'l', _, by simp [text]; rfl, by decide, fun _ => by decide⟩
  | @declare _ _ value _ _ _ =>
      cases value <;> exact ⟨'v', _, by simp [text]; rfl, by decide, fun _ => by decide⟩
  | assign hTarget _ =>
      obtain ⟨-, c, rest, hList, hBlank, hSlash, -⟩ := hTarget
      exact ⟨c, _, by simp [text, hList]; rfl, hBlank, fun _ => hSlash⟩
  | @«return» value _ =>
      cases value <;> exact ⟨'r', _, by simp [text]; rfl, by decide, fun _ => by decide⟩
  | comment _ => exact ⟨'/', _, by simp [text]; rfl, by decide, nofun⟩

end Plain

namespace Line

/-- A line without its indentation. -/
def text : Line → String
  | .plain s => s.text
  | .opens condition => "if (" ++ condition ++ ") \x7b"
  | .continues condition => "\x7d else if (" ++ condition ++ ") \x7b"
  | .turns => "\x7d else \x7b"
  | .closes => "\x7d"

/-- Lines of proper statements with terms for conditions. -/
inductive Proper : Line → Prop where
  | plain {s : Plain} (hPlain : s.Proper) : Proper (.plain s)
  | opens {condition : String} (hCondition : IsTerm condition.toList) : Proper (.opens condition)
  | continues {condition : String} (hCondition : IsTerm condition.toList) :
      Proper (.continues condition)
  | turns : Proper .turns
  | closes : Proper .closes

/-- What starts like a comment or ends like a statement leaves the blocks as they are. -/
theorem read_eq_plain {text : List Char}
    (h : text.head? = some '/' ∨ text.getLast? = some ';') :
    read text = (Plain.read text).map .plain := by
  have hCloses : text ≠ ['\x7d'] := by
    rintro rfl
    simp at h
  have hTurns : text ≠ "\x7d else \x7b".toList := by
    rintro rfl
    simp at h
  have hNone {opening : String} {c : Char} (hOpening : opening.toList.head? = some c)
      (hOther : c ≠ '/') : between opening ") \x7b" text = none := by
    obtain hHead | hLast := h
    · exact between_eq_none_of_head? hOpening (by simp [hHead, hOther.symm])
    · exact between_eq_none_of_getLast? (c := '\x7b') rfl (by simp [hLast])
  rw [read, if_neg hCloses, if_neg hTurns, hNone (c := '\x7d') rfl (by decide),
    hNone (c := 'i') rfl (by decide)]

/-- A line is read back from its text. -/
theorem Proper.read_text {row : Line} (h : row.Proper) : read row.text.toList = some row := by
  cases h with
  | @plain s hPlain =>
      have hEnd : s.text.toList.head? = some '/' ∨ s.text.toList.getLast? = some ';' := by
        cases s with
        | comment words => exact .inl (by simp [Plain.text])
        | _ => exact .inr (Plain.getLast?_text rfl)
      change read s.text.toList = _
      rw [read_eq_plain hEnd, hPlain.read_text, Option.map_some]
  | @opens condition hCondition =>
      have hText : (text (.opens condition)).toList = "if (".toList ++ (condition.toList ++
          ") \x7b".toList) := by simp [text]
      have hContinues : between "\x7d else if (" ") \x7b" (text (.opens condition)).toList = none :=
        between_eq_none_of_head? (c := '\x7d') rfl (by simp [hText])
      rw [read, if_neg (by simp [hText]), if_neg (by simp [hText]), hContinues, hText,
        between_append]
  | @continues condition hCondition =>
      have hText : (text (.continues condition)).toList = "\x7d else if (".toList ++
          (condition.toList ++ ") \x7b".toList) := by simp [text]
      rw [read, if_neg (by simp [hText]), if_neg (by simp [hText]), hText, between_append]
  | turns => rfl
  | closes => rfl

def isComment : Line → Bool
  | .plain s => s.isComment
  | _ => false

/-- Only a plain line can be a comment. -/
theorem isComment_iff {row : Line} :
    row.isComment = true ↔ ∃ words, row = .plain (.comment words) := by
  cases row with
  | plain s => cases s <;> simp [isComment, Plain.isComment]
  | _ => simp [isComment]

/-- A line starts at its first character, which opens no comment unless it is one. -/
theorem Proper.exists_head {row : Line} (h : row.Proper) : ∃ c rest, row.text.toList = c :: rest ∧
    Text.isBlank c = false ∧ (row.isComment = false → c ≠ '/') := by
  cases h with
  | plain hPlain => exact hPlain.exists_head
  | opens _ => exact ⟨'i', _, by simp [text]; rfl, by decide, fun _ => by decide⟩
  | continues _ => exact ⟨'\x7d', _, by simp [text]; rfl, by decide, fun _ => by decide⟩
  | turns => exact ⟨'\x7d', _, rfl, by decide, fun _ => by decide⟩
  | closes => exact ⟨'\x7d', _, rfl, by decide, fun _ => by decide⟩

/-- Proper lines do not break. -/
theorem Proper.not_mem_text {row : Line} (h : row.Proper) : '\n' ∉ row.text.toList := by
  cases h with
  | @plain s hPlain =>
      cases hComment : s.isComment with
      | false => exact (hPlain.isClean_text hComment).not_mem
      | true =>
          cases hPlain with
          | comment hText => simpa [text, Plain.text] using hText
          | _ => cases hComment
  | opens hCondition => simp [text, hCondition.fits.clean.not_mem]
  | continues hCondition => simp [text, hCondition.fits.clean.not_mem]
  | turns => simp [text]
  | closes => simp [text]

end Line

/-! ### Indented lines -/

open DyckStep (U D)

def brace? (c : Char) : Option DyckStep :=
  if c = '\x7b' then some U else if c = '\x7d' then some D else none

/-- The braces of a line, of which a comment has none. -/
def bracesOf (line : List Char) : List DyckStep :=
  if isCommentLine line then [] else line.filterMap brace?

/-- A clean text has no braces. -/
theorem IsClean.filterMap_brace? {text : List Char} (h : IsClean text) :
    text.filterMap brace? = [] := by
  refine List.filterMap_eq_nil_iff.mpr fun c hc => ?_
  obtain ⟨-, hOpening, hClosing⟩ := h c hc
  rw [brace?, if_neg hOpening, if_neg hClosing]

/-- The indentation is clean. -/
theorem isClean_indent (depth : Nat) : IsClean (indent depth).toList := by
  intro c hc
  rw [indent, String.toList_ofList] at hc
  rw [List.eq_of_mem_replicate hc]
  decide

/-- The braces in the text of a line are those that it stands for. -/
theorem Line.Proper.filterMap_brace? {row : Line} (h : row.Proper) (hCode : row.isComment = false) :
    row.text.toList.filterMap brace? = row.braces := by
  cases h with
  | plain hPlain => exact (hPlain.isClean_text hCode).filterMap_brace?
  | opens hCondition =>
      simp [text, braces, brace?, hCondition.fits.clean.filterMap_brace?]
  | continues hCondition =>
      simp [text, braces, brace?, hCondition.fits.clean.filterMap_brace?]
  | turns => rfl
  | closes => rfl

/-- A line of a text on which this line stands, with any indentation. -/
structure Line.Shows (row : Line) (line : List Char) : Prop where
  proper : row.Proper
  text : ∃ depth, line = (indent depth).toList ++ row.text.toList

namespace Line.Shows

variable {row : Line} {line : List Char}

/-- A line does not break. -/
theorem not_mem (h : row.Shows line) : '\n' ∉ line := by
  obtain ⟨depth, rfl⟩ := h.text
  exact List.not_mem_append (isClean_indent depth).not_mem h.proper.not_mem_text

/-- A line is read back without its indentation. -/
theorem read_skipSpaces (h : row.Shows line) : read (skipSpaces line) = some row := by
  obtain ⟨depth, rfl⟩ := h.text
  obtain ⟨c, rest, hList, hBlank, -⟩ := h.proper.exists_head
  have hStart : ∀ d ∈ row.text.toList.head?, d ≠ ' ' := by
    rw [hList]
    rintro d hd rfl
    cases hd
    cases hBlank
  rw [skipSpaces_indent depth hStart, h.proper.read_text]

/-- The braces of a line are counted from its text. Those in comments do not count. -/
theorem bracesOf (h : row.Shows line) : bracesOf line = row.braces := by
  obtain ⟨depth, rfl⟩ := h.text
  obtain ⟨c, rest, hList, hBlank, hSlash⟩ := h.proper.exists_head
  rw [Shader.bracesOf, isCommentLine_indent]
  cases hComment : row.isComment with
  | false =>
      have hCode : isCommentLine row.text.toList = false := by
        rw [hList, isCommentLine, List.dropWhile_cons_of_neg (by simp [hBlank])]
        simp [hSlash hComment]
      rw [hCode, List.filterMap_append, (isClean_indent depth).filterMap_brace?,
        h.proper.filterMap_brace? hComment]
      rfl
  | true =>
      obtain ⟨words, rfl⟩ := Line.isComment_iff.mp hComment
      have hLine : isCommentLine (Line.text (.plain (.comment words))).toList = true := by
        rw [Line.text, Plain.text, String.toList_append]
        rfl
      rw [hLine]
      rfl

end Line.Shows

end PathTracer.Shader
