import PathTracer.Proofs.Shader.Reading

/-! Statements, functions and whole modules of generated code read back from
their text. Lines may be indented in any way, and a chain of branches reads as
the branch in the alternative of a branch that it is. -/
namespace PathTracer.Shader

open Expression (isNamePart)

/-! ### Readers -/

/-- An expression between two words. -/
def readBetween (n : Nat) (opening closing : String) (text : List Char) :
    Option (Expr × List Char) :=
  (skip opening.toList text).bind fun text => (readExpr n text).bind fun (e, rest) =>
    (skip closing.toList rest).map fun rest => (e, rest)

/-- A binding behind its keyword. -/
def readBind (n : Nat) (text : List Char) : Option (Stmt × List Char) :=
  (skip " ".toList text).bind fun text =>
    let (name, rest) := splitName text
    (readBetween n " = " ";\n" rest).map fun (value, rest) => (.bind name value, rest)

/-- A declaration behind its keyword, with or without a value. -/
def readDeclare (n : Nat) (text : List Char) : Option (Stmt × List Char) :=
  (skip " ".toList text).bind fun text =>
    let (name, rest) := splitName text
    (skip ": ".toList rest).bind fun rest => (readType rest).bind fun (type, rest) =>
      match skip ";\n".toList rest with
      | some rest => some (.declare name type none, rest)
      | none => (readBetween n " = " ";\n" rest).map fun (value, rest) =>
        (.declare name type (some value), rest)

/-- A return behind its keyword, with or without a value. -/
def readReturn (n : Nat) (text : List Char) : Option (Stmt × List Char) :=
  match skip ";\n".toList text with
  | some rest => some (.return none, rest)
  | none => (readBetween n " " ";\n" text).map fun (value, rest) => (.return (some value), rest)

def readAssign (n : Nat) (text : List Char) : Option (Stmt × List Char) :=
  (readExpr n text).bind fun (target, rest) =>
    (readBetween n " = " ";\n" rest).map fun (value, rest) => (.assign target value, rest)

/-- A comment behind the marks that open it. -/
def readComment (text : List Char) : Option (Stmt × List Char) :=
  (skip "\n".toList (text.dropWhile (· != '\n'))).map fun rest =>
    (.comment (String.ofList (text.takeWhile (· != '\n'))), rest)

/-- A statement without blocks. -/
def readPlain (n : Nat) (text : List Char) : Option (Stmt × List Char) :=
  match skip "// ".toList text with
  | some text => readComment text
  | none =>
    let (word, rest) := splitName text
    if word = "let" then readBind n rest
    else if word = "var" then readDeclare n rest
    else if word = "return" then readReturn n rest
    else readAssign n text

/-- A text without the spaces at its start. -/
def skipSpaces (text : List Char) : List Char :=
  text.dropWhile (· == ' ')

mutual

/-- Statements up to the brace that closes their block. -/
def readStmts : Nat → Reader (List Stmt)
  | 0, _ => none
  | n + 1, text =>
    if (skip "\x7d".toList (skipSpaces text)).isSome then some ([], skipSpaces text)
    else (readStmt n text).bind fun (s, rest) => (readStmts n rest).map fun (more, rest) =>
      (s :: more, rest)

def readStmt : Nat → Reader Stmt
  | 0, _ => none
  | n + 1, text =>
    let (word, rest) := splitName (skipSpaces text)
    if word = "if" then
      (readBetween n " (" ") \x7b\n" rest).bind fun (condition, rest) =>
        (readStmts n rest).bind fun (yes, rest) => (readOtherwise n rest).map fun (no, rest) =>
          (.branch condition yes no, rest)
    else readPlain n (skipSpaces text)

/-- The alternative of a branch, from the brace that closes its first block. -/
def readOtherwise : Nat → Reader (List Stmt)
  | 0, _ => none
  | n + 1, text =>
    match skip "\x7d\n".toList text with
    | some rest => some ([], rest)
    | none => (skip "\x7d else ".toList text).bind fun text =>
      match skip "\x7b\n".toList text with
      | some rest => (readStmts n rest).bind fun (no, rest) =>
        (skip "\x7d\n".toList rest).map fun rest => (no, rest)
      | none => (readStmt n text).map fun (s, rest) => ([s], rest)

end

/-- Parameters up to the bracket behind them. -/
def readParams : Nat → Reader (List Param)
  | 0, _ => none
  | n + 1, text =>
    match skip ")".toList text with
    | some rest => some ([], rest)
    | none =>
      let (name, rest) := splitName text
      (skip ": ".toList rest).bind fun rest => (readType rest).bind fun (type, rest) =>
        (readParams n ((skip ", ".toList rest).getD rest)).map fun (more, rest) =>
          (⟨name, type⟩ :: more, rest)

/-- The result type of a function, with the brace that opens the body. -/
def readResult (text : List Char) : Option (Option Ty × List Char) :=
  match skip " -> ".toList text with
  | none => (skip " \x7b\n".toList text).map fun rest => (none, rest)
  | some rest => (readType rest).bind fun (type, rest) =>
    (skip " \x7b\n".toList rest).map fun rest => (some type, rest)

def readFunction (n : Nat) (text : List Char) : Option (Function × List Char) :=
  (skip "fn ".toList text).bind fun text =>
    let (name, rest) := splitName text
    (skip "(".toList rest).bind fun rest => (readParams n rest).bind fun (params, rest) =>
      (readResult rest).bind fun (result, rest) => (readStmts n rest).bind fun (body, rest) =>
        (skip "\x7d\n".toList rest).map fun rest => (⟨name, params, result, body⟩, rest)

/-- All functions of a text, with a blank line between them. -/
def readModule : Nat → List Char → Option (List Function)
  | 0, _ => none
  | _, [] => some []
  | n + 1, text => (readFunction (n + 1) text).bind fun (f, rest) =>
    (readModule n ((skip "\n".toList rest).getD rest)).map (f :: ·)

/-! ### What reads back -/

namespace Expr

/-- What an assignment can write to: a variable or a field of one. -/
def isTarget : Expr → Bool
  | .ident _ => true
  | .field (.ident _) _ => true
  | _ => false

/-- Whether all floats of an expression are finite. -/
def isLegible (e : Expr) : Bool :=
  e.literals.all Float32.isFinite

end Expr

namespace Stmt

/-- Statements whose names are names and whose types are proper. -/
inductive WellNamed : Stmt → Prop where
  | bind {name : String} {value : Expr} (hName : isName name = true)
      (hValue : value.WellNamed) : WellNamed (.bind name value)
  | declare {name : String} {type : Ty} {value : Option Expr} (hName : isName name = true)
      (hType : type.isProper = true) (hValue : ∀ v ∈ value, v.WellNamed) :
      WellNamed (.declare name type value)
  | assign {target value : Expr} (hForm : target.isTarget = true) (hTarget : target.WellNamed)
      (hValue : value.WellNamed) : WellNamed (.assign target value)
  | branch {condition : Expr} {yes no : List Stmt} (hCondition : condition.WellNamed)
      (hYes : ∀ s ∈ yes, WellNamed s) (hNo : ∀ s ∈ no, WellNamed s) :
      WellNamed (.branch condition yes no)
  | return {value : Option Expr} (hValue : ∀ v ∈ value, v.WellNamed) : WellNamed (.return value)
  | comment (text : String) : WellNamed (.comment text)

mutual

/-- Whether a statement can be read: its floats are finite, and no comment breaks
its line. -/
def isLegible : Stmt → Bool
  | .bind _ value => value.isLegible
  | .declare _ _ value => value.all Expr.isLegible
  | .assign target value => target.isLegible && value.isLegible
  | .branch condition yes no => condition.isLegible && areLegible yes && areLegible no
  | .return value => value.all Expr.isLegible
  | .comment text => !text.toList.contains '\n'

def areLegible : List Stmt → Bool
  | [] => true
  | s :: rest => s.isLegible && areLegible rest

end

/-- Statements can be read if each of them can. -/
theorem areLegible_iff {statements : List Stmt} :
    areLegible statements = true ↔ ∀ s ∈ statements, s.isLegible = true := by
  induction statements with
  | nil => simp [areLegible]
  | cons s rest ih => simp [areLegible, ih]

end Stmt

namespace Function

/-- Functions whose names are names and whose types are proper. -/
structure WellNamed (f : Function) : Prop where
  name : isName f.name = true
  params : ∀ p ∈ f.params, isName p.name = true ∧ p.type.isProper = true
  result : ∀ type ∈ f.result, type.isProper = true
  body : ∀ s ∈ f.body, s.WellNamed

def isLegible (f : Function) : Bool :=
  Stmt.areLegible f.body

end Function

/-! ### Statements -/

/-- The indentation is all that is skipped before a statement. -/
theorem skipSpaces_indent (depth : Nat) {text : List Char} (h : ∀ c ∈ text.head?, c ≠ ' ') :
    skipSpaces ((indent depth).toList ++ text) = text := by
  have hSpaces : ∀ c ∈ (indent depth).toList, (c == ' ') = true := by
    simp [indent]
  exact (scan_append hSpaces fun c hc => by simpa using h c hc).2

/-- An expression between two words is read back, where the second word ends it. -/
theorem readBetween_append {e : Expr} (h : e.Reads) {n : Nat} (hLength : e.text.toList.length < n)
    (opening closing : String) {rest : List Char} (hEnds : Ends (closing.toList ++ rest)) :
    readBetween n opening closing
      (opening.toList ++ (e.text.toList ++ (closing.toList ++ rest))) = some (e, rest) := by
  simp only [readBetween, skip_append, Option.bind_some, h.ends hLength hEnds, Option.map_some]

namespace Stmt

/-- The text of a statement reads back as the statement, and does not look like the
end of a block. -/
structure Reads (s : Stmt) : Prop where
  starts : ∀ (depth : Nat) (rest : List Char),
    skip "\x7d".toList (skipSpaces ((s.text depth).toList ++ rest)) = none
  reads : ∀ ⦃n depth : Nat⦄ ⦃rest : List Char⦄, (s.text depth).toList.length ≤ n →
    readStmt n ((s.text depth).toList ++ rest) = some (s, rest)

/-- No statement has an empty text, so that a reader which finds statements makes progress.
-/
theorem Reads.length_pos {s : Stmt} (h : s.Reads) (depth : Nat) :
    0 < (s.text depth).toList.length := by
  rw [List.length_pos_iff]
  intro hNone
  have hStarts := h.starts depth "\x7d".toList
  rw [hNone, List.nil_append] at hStarts
  exact absurd hStarts (by decide)

/-- A word at the start of a statement. -/
structure IsWord (word : String) : Prop where
  parts : ∀ c ∈ word.toList, isNamePart c = true
  some : word.toList ≠ []

/-- A word does not start with a character that no name has, such as a brace. -/
theorem IsWord.head {word : String} (h : IsWord word) {d : Char} (hOther : isNamePart d = false)
    (rest : List Char) : ∃ c more, word.toList ++ rest = c :: more ∧ c ≠ d := by
  obtain ⟨c, more, hList⟩ := List.exists_cons_of_ne_nil h.some
  refine ⟨c, more ++ rest, by rw [hList, List.cons_append], ?_⟩
  rintro rfl
  rw [h.parts c (hList ▸ List.mem_cons_self)] at hOther
  cases hOther

/-- Names are words. -/
theorem isWord_of_isName {name : String} (h : isName name = true) : IsWord name := by
  have hIdentifier := (isName_iff.mp h).1
  obtain ⟨c, more, hList, -⟩ := isIdentifier_iff.mp hIdentifier
  exact ⟨isNamePart_of_isIdentifier hIdentifier, by rw [hList]; exact List.cons_ne_nil _ _⟩

/-- Keywords are words. -/
theorem isWord_of_mem_keywords {word : String} (h : word ∈ keywords) : IsWord word := by
  simp only [keywords, List.mem_cons, List.not_mem_nil, or_false] at h
  obtain rfl | rfl | rfl | rfl := h <;> exact ⟨List.all_eq_true.mp (by decide), by decide⟩

variable {word : String} {rest : List Char}

/-- The indentation before a word is skipped, and nothing of the word. -/
theorem skipSpaces_word (h : IsWord word) (depth : Nat) (rest : List Char) :
    skipSpaces ((indent depth).toList ++ (word.toList ++ rest)) = word.toList ++ rest := by
  obtain ⟨c, more, hList, hOther⟩ := h.head (d := ' ') (by decide) rest
  exact skipSpaces_indent depth (by simpa [hList] using hOther)

/-- A statement that starts with a word is not taken for the end of its block. -/
theorem skip_brace_word (h : IsWord word) (rest : List Char) :
    skip "\x7d".toList (word.toList ++ rest) = none := by
  obtain ⟨c, more, hList, hOther⟩ := h.head (d := '\x7d') (by decide) rest
  simp [hList, skip, Ne.symm hOther]

/-- What a statement that starts with a word reads as is decided by the word. -/
theorem readPlain_word (h : IsWord word) (hRest : ∀ c ∈ rest.head?, isNamePart c = false)
    (n : Nat) : readPlain n (word.toList ++ rest) =
      if word = "let" then readBind n rest
      else if word = "var" then readDeclare n rest
      else if word = "return" then readReturn n rest
      else readAssign n (word.toList ++ rest) := by
  obtain ⟨c, more, hList, hOther⟩ := h.head (d := '/') (by decide) rest
  have hComment : skip "// ".toList (word.toList ++ rest) = none := by
    simp [hList, skip, Ne.symm hOther]
  rw [readPlain, hComment, splitName_append h.parts hRest]

/-- A statement that starts with a word other than that of branches is read as a plain one.
-/
theorem readStmt_word (h : IsWord word) (hRest : ∀ c ∈ rest.head?, isNamePart c = false)
    (hOther : word ≠ "if") (n depth : Nat) :
    readStmt (n + 1) ((indent depth).toList ++ (word.toList ++ rest)) =
      readPlain n (word.toList ++ rest) := by
  rw [readStmt, skipSpaces_word h, splitName_append h.parts hRest]
  exact if_neg hOther

/-- A statement without blocks that starts with a word. What is left to show is that the
rest of its line is read back. -/
theorem reads_of_word {s : Stmt} (h : IsWord word) (hOther : word ≠ "if") (tail : List Char)
    (hText : ∀ depth, (s.text depth).toList = (indent depth).toList ++ (word.toList ++ tail))
    (hTail : ∀ rest, ∀ c ∈ (tail ++ rest).head?, isNamePart c = false)
    (hPlain : ∀ n rest, word.toList.length + tail.length ≤ n + 1 →
      readPlain n (word.toList ++ (tail ++ rest)) = some (s, rest)) : s.Reads where
  starts depth rest := by
    rw [hText, List.append_assoc, List.append_assoc, skipSpaces_word h, skip_brace_word h]
  reads n depth rest hLength := by
    have hSome := List.length_pos_iff.mpr h.some
    rw [hText] at hLength ⊢
    simp only [List.length_append] at hLength
    obtain ⟨m, rfl⟩ : ∃ m, n = m + 1 := Nat.exists_eq_succ_of_ne_zero (by omega)
    rw [List.append_assoc, List.append_assoc, readStmt_word h (hTail rest) hOther]
    exact hPlain m rest (by omega)

/-- A binding is read back. -/
theorem reads_bind {name : String} {value : Expr} (hName : isName name = true)
    (hValue : value.Reads) : Reads (.bind name value) := by
  have hWord : IsWord "let" := isWord_of_mem_keywords (by decide)
  refine reads_of_word hWord (by decide) (" ".toList ++ (name.toList ++ (" = ".toList ++
    (value.text.toList ++ ";\n".toList)))) (fun depth => by simp [text]) (by simp +decide)
    fun n rest hLength => ?_
  simp only [List.length_append] at hLength
  have hSplit : splitName (name.toList ++ (" = ".toList ++ (value.text.toList ++
      (";\n".toList ++ rest)))) = (name, " = ".toList ++ (value.text.toList ++
      (";\n".toList ++ rest))) :=
    splitName_append (isWord_of_isName hName).parts (by simp +decide)
  have hBetween : readBetween n " = " ";\n" (" = ".toList ++ (value.text.toList ++
      (";\n".toList ++ rest))) = some (value, rest) :=
    readBetween_append hValue (by simp at hLength ⊢; omega) _ _ (by simp [Ends])
  rw [readPlain_word hWord (by simp +decide), if_pos rfl]
  simp only [readBind, List.append_assoc, skip_append, Option.bind_some, hSplit, hBetween,
    Option.map_some]

/-- A declaration is read back, with its value or without one. -/
theorem reads_declare {name : String} {type : Ty} {value : Option Expr}
    (hName : isName name = true) (hType : type.isProper = true) (hValue : ∀ v ∈ value, v.Reads) :
    Reads (.declare name type value) := by
  have hWord : IsWord "var" := isWord_of_mem_keywords (by decide)
  have hSplit (more : List Char) : splitName (name.toList ++ (": ".toList ++ more)) =
      (name, ": ".toList ++ more) :=
    splitName_append (isWord_of_isName hName).parts (by simp +decide)
  cases value with
  | none =>
      refine reads_of_word hWord (by decide) (" ".toList ++ (name.toList ++ (": ".toList ++
        (type.text.toList ++ ";\n".toList)))) (fun depth => by simp [text]) (by simp +decide)
        fun n rest hLength => ?_
      have hRead : readType (type.text.toList ++ (";\n".toList ++ rest)) =
          some (type, ";\n".toList ++ rest) := readType_text hType (by simp +decide)
      rw [readPlain_word hWord (by simp +decide), if_neg (by decide), if_pos rfl]
      simp only [readDeclare, List.append_assoc, skip_append, Option.bind_some, hSplit, hRead]
  | some v =>
      refine reads_of_word hWord (by decide) (" ".toList ++ (name.toList ++ (": ".toList ++
        (type.text.toList ++ (" = ".toList ++ (v.text.toList ++ ";\n".toList))))))
        (fun depth => by simp [text]) (by simp +decide) fun n rest hLength => ?_
      simp only [List.length_append] at hLength
      have hRead : readType (type.text.toList ++ (" = ".toList ++ (v.text.toList ++
          (";\n".toList ++ rest)))) = some (type, " = ".toList ++ (v.text.toList ++
          (";\n".toList ++ rest))) := readType_text hType (by simp +decide)
      have hBetween : readBetween n " = " ";\n" (" = ".toList ++ (v.text.toList ++
          (";\n".toList ++ rest))) = some (v, rest) :=
        readBetween_append (hValue v rfl) (by simp at hLength ⊢; omega) _ _ (by simp [Ends])
      have hOther (more : List Char) : skip ";\n".toList (" = ".toList ++ more) = none := by
        simp [skip]
      rw [readPlain_word hWord (by simp +decide), if_neg (by decide), if_pos rfl]
      simp only [readDeclare, List.append_assoc, skip_append, Option.bind_some, hSplit, hRead,
        hOther, hBetween, Option.map_some]

/-- A return is read back, with its value or without one. -/
theorem reads_return {value : Option Expr} (hValue : ∀ v ∈ value, v.Reads) :
    Reads (.return value) := by
  have hWord : IsWord "return" := isWord_of_mem_keywords (by decide)
  cases value with
  | none =>
      refine reads_of_word hWord (by decide) ";\n".toList (fun depth => by simp [text])
        (by simp +decide) fun n rest hLength => ?_
      rw [readPlain_word hWord (by simp +decide), if_neg (by decide), if_neg (by decide),
        if_pos rfl]
      simp only [readReturn, skip_append]
  | some v =>
      refine reads_of_word hWord (by decide) (" ".toList ++ (v.text.toList ++ ";\n".toList))
        (fun depth => by simp [text]) (by simp +decide) fun n rest hLength => ?_
      simp only [List.length_append] at hLength
      have hBetween : readBetween n " " ";\n" (" ".toList ++ (v.text.toList ++
          (";\n".toList ++ rest))) = some (v, rest) :=
        readBetween_append (hValue v rfl) (by simp at hLength ⊢; omega) _ _ (by simp [Ends])
      have hOther (more : List Char) : skip ";\n".toList (" ".toList ++ more) = none := by
        simp [skip]
      rw [readPlain_word hWord (by simp +decide), if_neg (by decide), if_neg (by decide),
        if_pos rfl]
      simp only [readReturn, List.append_assoc, hOther, hBetween, Option.map_some]

/-- A target starts with the name of its variable. -/
theorem exists_word_target {target : Expr} (hForm : target.isTarget = true)
    (hTarget : target.WellNamed) : ∃ name tail, isName name = true ∧
      target.text.toList = name.toList ++ tail ∧ ∀ c ∈ tail.head?, isNamePart c = false := by
  cases hTarget with
  | @ident name hName => exact ⟨name, [], hName, by simp [Expr.text], by simp⟩
  | @field base field hBase hField =>
      cases hBase with
      | @ident name hName =>
          exact ⟨name, '.' :: field.toList, hName, by simp [Expr.text], by simp +decide⟩
      | _ => cases hForm
  | _ => cases hForm

/-- An assignment to a variable or a field of one is read back. Other targets are never
written. -/
theorem reads_assign {target value : Expr} (hForm : target.isTarget = true)
    (hNamed : target.WellNamed) (hTarget : target.Reads) (hValue : value.Reads) :
    Reads (.assign target value) := by
  obtain ⟨name, tail, hName, hText, hTail⟩ := exists_word_target hForm hNamed
  have hWord := isWord_of_isName hName
  have hKeyword {word : String} (hMem : word ∈ keywords) : name ≠ word := by
    rintro rfl
    exact (isName_iff.mp hName).2.2 hMem
  have hHead (more : List Char) :
      ∀ c ∈ (tail ++ (" = ".toList ++ more)).head?, isNamePart c = false := by
    cases tail with
    | nil => simp +decide
    | cons c others => simpa using hTail
  refine reads_of_word hWord (hKeyword (by decide)) (tail ++ (" = ".toList ++
    (value.text.toList ++ ";\n".toList))) (fun depth => by simp [text, hText])
    (fun rest => by simpa only [List.append_assoc] using hHead _) fun n rest hLength => ?_
  simp only [List.length_append] at hLength
  have hLeft : readExpr n (target.text.toList ++ (" = ".toList ++ (value.text.toList ++
      (";\n".toList ++ rest)))) = some (target, " = ".toList ++ (value.text.toList ++
      (";\n".toList ++ rest))) :=
    hTarget.ends (by simp [hText] at hLength ⊢; omega) (by simp [Ends])
  have hBetween : readBetween n " = " ";\n" (" = ".toList ++ (value.text.toList ++
      (";\n".toList ++ rest))) = some (value, rest) :=
    readBetween_append hValue (by simp at hLength ⊢; omega) _ _ (by simp [Ends])
  simp only [List.append_assoc]
  rw [readPlain_word hWord (hHead _), if_neg (hKeyword (by decide)),
    if_neg (hKeyword (by decide)), if_neg (hKeyword (by decide)), ← List.append_assoc, ← hText]
  simp only [readAssign, hLeft, hBetween, Option.bind_some, Option.map_some]

/-- A comment on one line is read back. -/
theorem reads_comment {line : String} (h : '\n' ∉ line.toList) : Reads (.comment line) where
  starts depth rest := by
    have hText : (text depth (.comment line)).toList =
        (indent depth).toList ++ ("// ".toList ++ (line.toList ++ "\n".toList)) := by
      simp [text]
    rw [hText, List.append_assoc, skipSpaces_indent depth (by simp)]
    simp [skip]
  reads n depth rest hLength := by
    have hText : (text depth (.comment line)).toList =
        (indent depth).toList ++ ("// ".toList ++ (line.toList ++ "\n".toList)) := by
      simp [text]
    have hWord (more : List Char) : (splitName ("// ".toList ++ more)).1 = "" := by
      simp +decide [splitName]
    have hParts : ∀ c ∈ line.toList, (c != '\n') = true := by
      rintro c hc
      rw [bne_iff_ne]
      rintro rfl
      exact h hc
    have hEnd : ∀ c ∈ ("\n".toList ++ rest).head?, (c != '\n') = false := by simp
    obtain ⟨hTake, hDrop⟩ := scan_append hParts hEnd
    obtain ⟨m, rfl⟩ : ∃ m, n = m + 1 := Nat.exists_eq_succ_of_ne_zero (by
      rintro rfl
      simp [hText] at hLength)
    rw [hText]
    simp only [List.append_assoc]
    rw [readStmt, skipSpaces_indent depth (by simp)]
    simp only [hWord, readPlain, skip_append, readComment, hTake, hDrop, String.ofList_toList,
      Option.map_some]
    rfl

/-! ### Blocks -/

/-- Statements read back up to the brace that closes their block. The induction is on the
statements. How far the brace is indented does not matter. -/
theorem readStmts_append {statements : List Stmt} (h : ∀ s ∈ statements, s.Reads) {n depth : Nat}
    (hLength : (texts depth statements).toList.length < n) {close rest : List Char}
    (hClose : skipSpaces close = "\x7d".toList ++ rest) :
    readStmts n ((texts depth statements).toList ++ close) =
      some (statements, "\x7d".toList ++ rest) := by
  induction statements generalizing n with
  | nil =>
      obtain ⟨m, rfl⟩ : ∃ m, n = m + 1 := Nat.exists_eq_succ_of_ne_zero (by omega)
      have hText : (texts depth []).toList = [] := by simp [texts]
      rw [hText, List.nil_append, readStmts, hClose, skip_append]
      rfl
  | cons s more ih =>
      obtain ⟨m, rfl⟩ : ∃ m, n = m + 1 := Nat.exists_eq_succ_of_ne_zero (by omega)
      have hFirst := h s List.mem_cons_self
      have hSome := hFirst.length_pos depth
      have hText : (texts depth (s :: more)).toList =
          (s.text depth).toList ++ (texts depth more).toList := by
        simp [texts]
      rw [hText, List.length_append] at hLength
      have hMore := ih (fun s hs => h s (List.mem_cons_of_mem _ hs)) (n := m) (by omega)
      have hHead : readStmt m ((s.text depth).toList ++ ((texts depth more).toList ++ close)) =
          some (s, (texts depth more).toList ++ close) := hFirst.reads (by omega)
      rw [hText, List.append_assoc, readStmts, hFirst.starts]
      simp only [Option.isSome_none, Bool.false_eq_true, if_false, hHead, Option.bind_some, hMore,
        Option.map_some]

/-- The reader of statements skips the indentation itself. -/
theorem readStmt_skipSpaces (n : Nat) (text : List Char) :
    readStmt n (skipSpaces text) = readStmt n text := by
  have hTwice : skipSpaces (skipSpaces text) = skipSpaces text :=
    List.dropWhile_idempotent _ _
  cases n with
  | zero => rfl
  | succ n => simp only [readStmt, hTwice]

/-- The text of a branch behind its indentation. -/
def branchText (depth : Nat) (condition : Expr) (yes no : List Stmt) : List Char :=
  "if".toList ++ (" (".toList ++ (condition.text.toList ++ (") \x7b\n".toList ++
    ((texts (depth + 1) yes).toList ++ (otherwiseText depth no).toList))))

/-- A branch is its indentation and then its condition and blocks. -/
theorem toList_text_branch (depth : Nat) (condition : Expr) (yes no : List Stmt) :
    (text depth (.branch condition yes no)).toList =
      (indent depth).toList ++ branchText depth condition yes no := by
  simp [text, branchText]

/-- A branch without an alternative ends with the brace of its block. -/
theorem toList_otherwiseText_nil (depth : Nat) :
    (otherwiseText depth []).toList =
      (indent depth).toList ++ ("\x7d".toList ++ "\n".toList) := by
  simp [otherwiseText]

/-- An alternative that is a branch goes on behind the brace, on the same line. -/
theorem toList_otherwiseText_branch (depth : Nat) (condition : Expr) (yes no : List Stmt) :
    (otherwiseText depth [.branch condition yes no]).toList =
      (indent depth).toList ++ ("\x7d".toList ++ (" else ".toList ++
        branchText depth condition yes no)) := by
  simp [otherwiseText, branchText]

/-- Any other alternative is a block of its own. The condition keeps it apart from the case
above. -/
theorem toList_otherwiseText_block (depth : Nat) {s : Stmt} {more : List Stmt}
    (h : ∀ condition yes no, s = .branch condition yes no → more ≠ []) :
    (otherwiseText depth (s :: more)).toList =
      (indent depth).toList ++ ("\x7d".toList ++ (" else \x7b\n".toList ++
        ((texts (depth + 1) (s :: more)).toList ++
          ((indent depth).toList ++ ("\x7d".toList ++ "\n".toList))))) := by
  rw [otherwiseText.eq_def]
  split
  · contradiction
  · rename_i hCons
    cases hCons
    exact absurd rfl (h _ _ _ rfl)
  · rename_i hCons
    cases hCons
    simp [texts]

/-- The alternative of a branch reads back from the brace that closes its first
block. -/
theorem readOtherwise_append {no : List Stmt} (h : ∀ s ∈ no, s.Reads) (depth : Nat) :
    ∃ tail, (otherwiseText depth no).toList = (indent depth).toList ++ ("\x7d".toList ++ tail) ∧
      ∀ n rest, (otherwiseText depth no).toList.length ≤ n →
        readOtherwise n ("\x7d".toList ++ (tail ++ rest)) = some (no, rest) := by
  have hFuel {n : Nat} (hLength : (otherwiseText depth no).toList.length ≤ n)
      {tail : List Char} (hText : (otherwiseText depth no).toList =
        (indent depth).toList ++ ("\x7d".toList ++ tail)) :
      ∃ m, n = m + 1 ∧ (indent depth).toList.length + tail.length ≤ m := by
    simp only [hText, List.length_append] at hLength
    have hBrace : "\x7d".toList.length = 1 := by decide
    exact ⟨n - 1, by omega, by omega⟩
  cases no with
  | nil =>
      have hText := toList_otherwiseText_nil depth
      refine ⟨_, hText, fun n rest hLength => ?_⟩
      obtain ⟨m, rfl, -⟩ := hFuel hLength hText
      simp [readOtherwise, skip]
  | cons s more =>
      by_cases hChain : ∃ condition yes no, s = .branch condition yes no ∧ more = []
      · obtain ⟨condition, yes, no, rfl, rfl⟩ := hChain
        have hText := toList_otherwiseText_branch depth condition yes no
        refine ⟨_, hText, fun n rest hLength => ?_⟩
        obtain ⟨m, rfl, hRest⟩ := hFuel hLength hText
        have hReads : readStmt m (branchText depth condition yes no ++ rest) =
            some (.branch condition yes no, rest) := by
          have hDrop : skipSpaces ((indent depth).toList ++
              (branchText depth condition yes no ++ rest)) =
              branchText depth condition yes no ++ rest :=
            skipSpaces_indent depth (by simp [branchText])
          rw [← hDrop, readStmt_skipSpaces, ← List.append_assoc, ← toList_text_branch]
          refine (h _ (List.mem_singleton_self _)).reads ?_
          simp only [toList_text_branch, List.length_append] at hRest ⊢
          omega
        have hClosed : skip "\x7d\n".toList ("\x7d".toList ++ (" else ".toList ++
            (branchText depth condition yes no ++ rest))) = none := by
          simp [skip]
        have hElse : skip "\x7d else ".toList ("\x7d".toList ++ (" else ".toList ++
            (branchText depth condition yes no ++ rest))) =
            some (branchText depth condition yes no ++ rest) := by
          simp [skip]
        have hBlock : skip "\x7b\n".toList (branchText depth condition yes no ++ rest) = none := by
          simp [branchText, skip]
        simp only [List.append_assoc, readOtherwise, hClosed, hElse, Option.bind_some, hBlock,
          hReads, Option.map_some]
      · have hOther : ∀ condition yes no, s = .branch condition yes no → more ≠ [] :=
          fun condition yes no hBranch hNone => hChain ⟨condition, yes, no, hBranch, hNone⟩
        have hText := toList_otherwiseText_block depth hOther
        refine ⟨_, hText, fun n rest hLength => ?_⟩
        obtain ⟨m, rfl, hRest⟩ := hFuel hLength hText
        simp only [List.length_append] at hRest
        have hReads : readStmts m ((texts (depth + 1) (s :: more)).toList ++
            ((indent depth).toList ++ ("\x7d".toList ++ ("\n".toList ++ rest)))) =
            some (s :: more, "\x7d".toList ++ ("\n".toList ++ rest)) :=
          readStmts_append h (by simp at hRest ⊢; omega) (skipSpaces_indent depth (by simp))
        have hClosed (more : List Char) :
            skip "\x7d\n".toList ("\x7d".toList ++ (" else \x7b\n".toList ++ more)) = none := by
          simp [skip]
        have hElse (more : List Char) :
            skip "\x7d else ".toList ("\x7d".toList ++ (" else \x7b\n".toList ++ more)) =
              some ("\x7b\n".toList ++ more) := by
          simp [skip]
        have hEnd : skip "\x7d\n".toList ("\x7d".toList ++ ("\n".toList ++ rest)) = some rest := by
          simp [skip]
        simp only [List.append_assoc, readOtherwise, hClosed, hElse, Option.bind_some, skip_append,
          hReads, hEnd, Option.map_some]

/-- A branch is read back with both of its blocks, at any depth. What is hard is the
alternative: a block of one branch is written as a chain, and read as one. -/
theorem Reads.branch {condition : Expr} {yes no : List Stmt} (hCondition : condition.Reads)
    (hYes : ∀ s ∈ yes, s.Reads) (hNo : ∀ s ∈ no, s.Reads) :
    Reads (.branch condition yes no) where
  starts depth rest := by
    rw [toList_text_branch, List.append_assoc, skipSpaces_indent depth (by simp [branchText])]
    simp [branchText, skip]
  reads n depth rest hLength := by
    have hWord : IsWord "if" := isWord_of_mem_keywords (by decide)
    obtain ⟨tail, hTail, hOtherwise⟩ := readOtherwise_append hNo depth
    simp only [toList_text_branch, branchText, List.length_append] at hLength
    have hOpen : "if".toList.length = 2 ∧ " (".toList.length = 2 := by decide
    obtain ⟨m, rfl⟩ : ∃ m, n = m + 1 := Nat.exists_eq_succ_of_ne_zero (by omega)
    have hSplit (more : List Char) : splitName ("if".toList ++ (" (".toList ++ more)) =
        ("if", " (".toList ++ more) := splitName_append hWord.parts (by simp +decide)
    have hBetween (more : List Char) : readBetween m " (" ") \x7b\n" (" (".toList ++
        (condition.text.toList ++ (") \x7b\n".toList ++ more))) = some (condition, more) :=
      readBetween_append hCondition (by omega) _ _ (by simp [Ends])
    have hBlock : readStmts m ((texts (depth + 1) yes).toList ++ ((indent depth).toList ++
        ("\x7d".toList ++ (tail ++ rest)))) = some (yes, "\x7d".toList ++ (tail ++ rest)) :=
      readStmts_append hYes (by omega) (skipSpaces_indent depth (by simp))
    rw [toList_text_branch, branchText, hTail, List.append_assoc]
    simp only [List.append_assoc]
    rw [readStmt, skipSpaces_word hWord, hSplit]
    simp only [if_true, hBetween, Option.bind_some, hBlock, hOtherwise m rest (by omega),
      Option.map_some]

/-- Legible statements read back from their text. -/
theorem WellNamed.reads {s : Stmt} (h : s.WellNamed) (hLegible : s.isLegible = true) : s.Reads := by
  have hExpr {e : Expr} (hNamed : e.WellNamed) (hFinite : e.isLegible = true) : e.Reads :=
    hNamed.reads fun x hx => List.all_eq_true.mp hFinite x hx
  induction h with
  | bind hName hValue => exact reads_bind hName (hExpr hValue hLegible)
  | declare hName hType hValue =>
      refine reads_declare hName hType fun v hv => hExpr (hValue v hv) ?_
      obtain rfl := Option.mem_def.mp hv
      exact hLegible
  | assign hForm hTarget hValue =>
      rw [isLegible, Bool.and_eq_true] at hLegible
      exact reads_assign hForm hTarget (hExpr hTarget hLegible.1) (hExpr hValue hLegible.2)
  | branch hCondition hYes hNo ihYes ihNo =>
      rw [isLegible, Bool.and_eq_true, Bool.and_eq_true, areLegible_iff, areLegible_iff] at hLegible
      obtain ⟨⟨hFirst, hThen⟩, hElse⟩ := hLegible
      exact .branch (hExpr hCondition hFirst) (fun s hs => ihYes s hs (hThen s hs))
        fun s hs => ihNo s hs (hElse s hs)
  | «return» hValue =>
      refine reads_return fun v hv => hExpr (hValue v hv) ?_
      obtain rfl := Option.mem_def.mp hv
      exact hLegible
  | comment line => exact reads_comment (by simpa [isLegible] using hLegible)

end Stmt

/-! ### Functions -/

/-- Parameters read back, with the bracket behind them. Commas stand between them, and none
behind the last. -/
theorem readParams_append {params : List Param}
    (h : ∀ p ∈ params, isName p.name = true ∧ p.type.isProper = true) {n : Nat}
    (hFuel : params.length < n) (rest : List Char) :
    readParams n ((commaList (params.map Param.text)).toList ++ (")".toList ++ rest)) =
      some (params, rest) := by
  induction params generalizing n with
  | nil =>
      obtain ⟨m, rfl⟩ : ∃ m, n = m + 1 := Nat.exists_eq_succ_of_ne_zero (by omega)
      have hText : (commaList (([] : List Param).map Param.text)).toList = [] := by
        simp [commaList]
      rw [hText, List.nil_append, readParams, skip_append]
  | cons p more ih =>
      obtain ⟨m, rfl⟩ : ∃ m, n = m + 1 := Nat.exists_eq_succ_of_ne_zero (by omega)
      obtain ⟨hName, hType⟩ := h p List.mem_cons_self
      have hMore := ih (fun p hp => h p (List.mem_cons_of_mem _ hp)) (n := m) (by simpa using hFuel)
      have hWord := Stmt.isWord_of_isName hName
      have hOpen (tail : List Char) : skip ")".toList (p.name.toList ++ tail) = none := by
        obtain ⟨c, others, hList, hOther⟩ := hWord.head (d := ')') (by decide) tail
        simp [hList, skip, Ne.symm hOther]
      have hSplit (tail : List Char) : splitName (p.name.toList ++ (": ".toList ++ tail)) =
          (p.name, ": ".toList ++ tail) := splitName_append hWord.parts (by simp +decide)
      -- The bracket, or the comma before the other parameters.
      have hTail {tail next : List Char} (hHead : ∀ c ∈ tail.head?, isNamePart c = false)
          (hNext : (skip ", ".toList tail).getD tail = next)
          (hRest : readParams m next = some (more, rest)) :
          readParams (m + 1) (p.name.toList ++ (": ".toList ++ (p.type.text.toList ++ tail))) =
            some (p :: more, rest) := by
        have hRead : readType (p.type.text.toList ++ tail) = some (p.type, tail) :=
          readType_text hType hHead
        rw [readParams, hOpen]
        simp only [hSplit, skip_append, Option.bind_some, hRead, hNext, hRest, Option.map_some]
      cases more with
      | nil =>
          have hText : (commaList ([p].map Param.text)).toList =
              p.name.toList ++ (": ".toList ++ p.type.text.toList) := by
            simp [commaList, Param.text]
          rw [hText]
          simp only [List.append_assoc]
          refine hTail (by simp +decide) rfl ?_
          have hNone : skip ", ".toList (")".toList ++ rest) = none := by simp [skip]
          have hEmpty : (commaList (([] : List Param).map Param.text)).toList = [] := by
            simp [commaList]
          rw [hEmpty, List.nil_append] at hMore
          rw [hNone]
          exact hMore
      | cons second others =>
          have hText : (commaList ((p :: second :: others).map Param.text)).toList =
              p.name.toList ++ (": ".toList ++ (p.type.text.toList ++ (", ".toList ++
                (commaList ((second :: others).map Param.text)).toList))) := by
            simp [commaList, Param.text]
          rw [hText]
          simp only [List.append_assoc]
          refine hTail (by simp +decide) ?_ hMore
          rw [skip_append, Option.getD_some]

/-- The result type as it is written, with the brace that opens the body. -/
def resultText : Option Ty → List Char
  | some type => " -> ".toList ++ (type.text.toList ++ " \x7b\n".toList)
  | none => " \x7b\n".toList

/-- The result type of a function is read back, or that there is none. -/
theorem readResult_append {result : Option Ty} (h : ∀ type ∈ result, type.isProper = true)
    (rest : List Char) : readResult (resultText result ++ rest) = some (result, rest) := by
  cases result with
  | none =>
      have hArrow : skip " -> ".toList (" \x7b\n".toList ++ rest) = none := by simp [skip]
      simp only [readResult, resultText, hArrow, skip_append, Option.map_some]
  | some type =>
      have hType : readType (type.text.toList ++ (" \x7b\n".toList ++ rest)) =
          some (type, " \x7b\n".toList ++ rest) := readType_text (h type rfl) (by simp +decide)
      simp only [readResult, resultText, List.append_assoc, skip_append, hType, Option.bind_some,
        Option.map_some]

namespace Function

/-- The text of a function is its name, its parameters, its result type and its body. -/
theorem toList_text (f : Function) : f.text.toList =
    "fn ".toList ++ (f.name.toList ++ ("(".toList ++ ((commaList (f.params.map Param.text)).toList ++
      (")".toList ++ (resultText f.result ++ ((Stmt.texts 1 f.body).toList ++
        ("\x7d".toList ++ "\n".toList))))))) := by
  obtain ⟨name, params, result, body⟩ := f
  cases result <;> simp [text, resultText]

/-- Parameters have at least one character each, so that the reader takes no more steps than
the text has characters. -/
theorem length_commaList (params : List Param) :
    params.length ≤ (commaList (params.map Param.text)).toList.length + 1 := by
  induction params with
  | nil => simp
  | cons p more ih =>
      cases more with
      | nil => simp
      | cons second others =>
          have hText : (commaList ((p :: second :: others).map Param.text)).toList.length =
              p.text.toList.length + (2 + (commaList ((second :: others).map Param.text)).toList.length) := by
            simp [commaList]
            omega
          rw [hText]
          simp only [List.length_cons] at ih ⊢
          omega

/-- Legible functions read back from their text. -/
theorem WellNamed.readFunction_append {f : Function} (h : f.WellNamed)
    (hLegible : f.isLegible = true) {n : Nat} (hLength : f.text.toList.length < n)
    (rest : List Char) : readFunction n (f.text.toList ++ rest) = some (f, rest) := by
  rw [toList_text] at hLength ⊢
  simp only [List.length_append] at hLength
  have hCount := length_commaList f.params
  have hWord := Stmt.isWord_of_isName h.name
  have hSplit (tail : List Char) : splitName (f.name.toList ++ ("(".toList ++ tail)) =
      (f.name, "(".toList ++ tail) := splitName_append hWord.parts (by simp +decide)
  have hParams (tail : List Char) : readParams n ((commaList (f.params.map Param.text)).toList ++
      (")".toList ++ tail)) = some (f.params, tail) := readParams_append h.params (by
    have hOpen : "fn ".toList.length = 3 := by decide
    omega) tail
  have hBody : readStmts n ((Stmt.texts 1 f.body).toList ++ ("\x7d".toList ++
      ("\n".toList ++ rest))) = some (f.body, "\x7d".toList ++ ("\n".toList ++ rest)) :=
    Stmt.readStmts_append (fun s hs => (h.body s hs).reads (Stmt.areLegible_iff.mp hLegible s hs))
      (by omega) (by simp [skipSpaces])
  have hEnd : skip "\x7d\n".toList ("\x7d".toList ++ ("\n".toList ++ rest)) = some rest := by
    simp [skip]
  simp only [List.append_assoc, readFunction, skip_append, Option.bind_some, hSplit, hParams,
    readResult_append h.result, hBody, hEnd, Option.map_some]

end Function

/-- Legible functions read back from the text of their module. Functions are read one after
the other up to the end of the text. What is read is the module itself, so that two modules
with one text are one. -/
theorem readModule_moduleText {functions : List Function} (h : ∀ f ∈ functions, f.WellNamed)
    (hLegible : ∀ f ∈ functions, f.isLegible = true) {n : Nat}
    (hLength : (moduleText functions).toList.length < n) :
    readModule n (moduleText functions).toList = some functions := by
  induction functions generalizing n with
  | nil =>
      obtain ⟨m, rfl⟩ : ∃ m, n = m + 1 := Nat.exists_eq_succ_of_ne_zero (by omega)
      rfl
  | cons f more ih =>
      obtain ⟨m, rfl⟩ : ∃ m, n = m + 1 := Nat.exists_eq_succ_of_ne_zero (by omega)
      have hFirst := h f List.mem_cons_self
      have hReads := hFirst.readFunction_append (hLegible f List.mem_cons_self) (n := m + 1)
      have hMore := ih (fun f hf => h f (List.mem_cons_of_mem _ hf))
        (fun f hf => hLegible f (List.mem_cons_of_mem _ hf)) (n := m)
      have hSome (rest : List Char) : ∃ c others, f.text.toList ++ rest = c :: others := by
        rw [Function.toList_text]
        exact ⟨'f', _, by simp; rfl⟩
      have hModule {rest : List Char} (hFits : f.text.toList.length < m + 1)
          (hRest : readModule m ((skip "\n".toList rest).getD rest) = some more) :
          readModule (m + 1) (f.text.toList ++ rest) = some (f :: more) := by
        obtain ⟨c, others, hCons⟩ := hSome rest
        rw [hCons, readModule]
        · rw [← hCons, hReads hFits, Option.bind_some]
          simp only [hRest, Option.map_some]
        · exact List.cons_ne_nil c others
      cases more with
      | nil =>
          have hText : (moduleText [f]).toList = f.text.toList ++ [] := by simp [moduleText]
          obtain ⟨c, others, hCons⟩ := hSome []
          rw [hText, hCons, List.length_cons] at hLength
          rw [hText]
          refine hModule (by rw [← List.append_nil f.text.toList, hCons]; simpa using hLength) ?_
          obtain ⟨k, rfl⟩ : ∃ k, m = k + 1 := Nat.exists_eq_succ_of_ne_zero (by omega)
          rfl
      | cons second others =>
          have hText : (moduleText (f :: second :: others)).toList =
              f.text.toList ++ ("\n".toList ++ (moduleText (second :: others)).toList) := by
            simp [moduleText]
          have hBreak : "\n".toList.length = 1 := by decide
          rw [hText] at hLength ⊢
          simp only [List.length_append] at hLength
          obtain ⟨c, tail, hCons⟩ := hSome []
          have hLong : 0 < f.text.toList.length := by
            rw [← List.append_nil f.text.toList, hCons]
            simp
          refine hModule (by omega) ?_
          rw [skip_append, Option.getD_some]
          exact hMore (by omega)

/-- Legible functions are told apart by the text of their module. -/
theorem moduleText_injective {first second : List Function} (hFirst : ∀ f ∈ first, f.WellNamed)
    (hSecond : ∀ f ∈ second, f.WellNamed) (hReadable : ∀ f ∈ first, f.isLegible = true)
    (hLegible : ∀ f ∈ second, f.isLegible = true) (h : moduleText first = moduleText second) :
    first = second := by
  have hReads := readModule_moduleText hFirst hReadable (Nat.lt_succ_self _)
  have hSame := readModule_moduleText hSecond hLegible (Nat.lt_succ_self _)
  rw [h, hSame, Option.some.injEq] at hReads
  exact hReads.symm

namespace Program

/-- Whether all functions of a program can be read off its text. -/
def isLegible (p : Program) : Bool :=
  p.functions.all Function.isLegible

structure WellNamed (p : Program) : Prop where
  functions : ∀ f ∈ p.functions, f.WellNamed

/-- The parts around the generated one are the same in all programs. -/
theorem generatedText_of_source {p q : Program} (h : p.source = q.source) :
    p.generatedText = q.generatedText := by
  have hList := congrArg String.toList h
  simp only [source, String.intercalate_cons_cons, String.toList_append, List.append_assoc,
    List.append_right_inj, List.append_left_inj] at hList
  exact String.toList_injective hList

/-- Legible programs are told apart by their text. -/
theorem functions_of_source {p q : Program} (hFirst : p.WellNamed) (hSecond : q.WellNamed)
    (hReadable : p.isLegible = true) (hLegible : q.isLegible = true) (h : p.source = q.source) :
    p.functions = q.functions := by
  have hText := congrArg String.toList (generatedText_of_source h)
  rw [generatedText, generatedText, String.toList_append, String.toList_append,
    List.append_right_inj] at hText
  exact moduleText_injective hFirst.functions hSecond.functions (List.all_eq_true.mp hReadable)
    (List.all_eq_true.mp hLegible) (String.toList_injective hText)

end Program

end PathTracer.Shader
