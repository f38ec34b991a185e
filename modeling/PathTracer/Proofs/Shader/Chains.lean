import PathTracer.Proofs.Shader.Execution
import PathTracer.Proofs.Shader.Lines
import PathTracer.Proofs.Shader.Writing

/-! Functions of generated code by their outlines. The lines of a function are those of its
outline, so that the blocks of its body are told by its text. -/
namespace PathTracer.Shader

open Material (isIdentifier)

/-! ### Texts in lines -/

/-- A text that is these lines, each with its end. -/
def IsWritten (text : List Char) (rows : List Line) : Prop :=
  ∃ written, List.Forall₂ Line.Shows rows written ∧ text = written.flatMap (· ++ ['\n'])

namespace IsWritten

variable {text more : List Char} {rows others : List Line}

theorem nil : IsWritten [] [] :=
  ⟨[], .nil, rfl⟩

theorem append (h : IsWritten text rows) (hMore : IsWritten more others) :
    IsWritten (text ++ more) (rows ++ others) := by
  obtain ⟨written, hShows, rfl⟩ := h
  obtain ⟨rest, hRest, rfl⟩ := hMore
  exact ⟨written ++ rest, List.rel_append hShows hRest, List.flatMap_append.symm⟩

theorem row {row : Line} (h : row.Proper) (depth : Nat) :
    IsWritten ((indent depth ++ row.text ++ "\n").toList) [row] := by
  refine ⟨[(indent depth).toList ++ row.text.toList], .cons ⟨h, depth, rfl⟩ .nil, ?_⟩
  simp

end IsWritten

/-- A line before the break that ends it. -/
theorem splitOn_line {line : List Char} (h : '\n' ∉ line) (rest : List Char) :
    (line ++ '\n' :: rest).splitOn '\n' = line :: rest.splitOn '\n' := by
  have hLine : (line ++ '\n' :: rest).splitOn '\n' = line.splitOn '\n' ++ rest.splitOn '\n' :=
    List.splitOnP_append_cons _ _ rfl
  rw [hLine, List.splitOn_eq_singleton h]
  rfl

theorem splitOn_flatMap {written : List (List Char)} (h : ∀ line ∈ written, '\n' ∉ line)
    (rest : List Char) :
    (written.flatMap (· ++ ['\n']) ++ rest).splitOn '\n' = written ++ rest.splitOn '\n' := by
  induction written with
  | nil => rfl
  | cons line more ih =>
      obtain ⟨hFirst, hMore⟩ := List.forall_mem_cons.mp h
      rw [List.flatMap_cons, List.append_assoc, List.append_assoc, List.singleton_append,
        splitOn_line hFirst, ih hMore]
      rfl

/-! ### Statements -/

namespace Stmt

mutual

/-- A statement with the texts of its expressions. -/
def outline : Stmt → Outline
  | .bind name value => .plain (.bind name value.text)
  | .declare name type value => .plain (.declare name type.text (value.map Expr.text))
  | .assign target value => .plain (.assign target.text value.text)
  | .branch condition yes no => .branch condition.text (outlines yes) (outlines no)
  | .return value => .plain (.return (value.map Expr.text))
  | .comment text => .plain (.comment text)

def outlines : List Stmt → List Outline
  | [] => []
  | s :: rest => s.outline :: outlines rest

end

mutual

/-- The names in a statement, those of types and functions among them. -/
def names : Stmt → List String
  | .bind name value => name :: value.names
  | .declare name type value => name :: (type.structures ++ value.elim [] Expr.names)
  | .assign target value => target.names ++ value.names
  | .branch condition yes no => condition.names ++ (allNames yes ++ allNames no)
  | .return value => value.elim [] Expr.names
  | .comment _ => []

def allNames : List Stmt → List String
  | [] => []
  | s :: rest => s.names ++ allNames rest

end

theorem outlines_eq_map (body : List Stmt) : outlines body = body.map outline := by
  induction body with
  | nil => rfl
  | cons s rest ih => rw [outlines, ih, List.map_cons]

/-- A chain is the chain of the texts of its arms. -/
theorem outlines_chain (arms : List (Expr × List Stmt)) :
    outlines (chain arms) =
      Outline.chain (arms.map fun arm => (arm.1.text, outlines arm.2)) := by
  induction arms with
  | nil => rfl
  | cons arm rest ih =>
      obtain ⟨condition, body⟩ := arm
      rw [chain, outlines, outlines, outline, ih]
      rfl

theorem isTerm_value {value : Option Expr}
    (h : ∀ name ∈ value.elim [] Expr.names, isIdentifier name = true) :
    ∀ v ∈ value.map Expr.text, IsTerm v.toList := by
  intro v hv
  obtain ⟨e, rfl, rfl⟩ := Option.map_eq_some_iff.mp hv
  exact e.isTerm h

/-- A statement without blocks is one line. -/
theorem isWritten_plain {s : Stmt} {p : Plain} {depth : Nat} (h : p.Proper)
    (hOutline : s.outline = .plain p) (hText : s.text depth = indent depth ++ p.text ++ "\n") :
    ∃ rows, Line.AreBody rows [s.outline] ∧ IsWritten (s.text depth).toList rows := by
  rw [hOutline, hText]
  exact ⟨[.plain p], .plain p .nil, .row (.plain h) depth⟩

mutual

/-- The text of a statement is the lines of its outline. The induction is on the statement,
with the alternatives of branches as chains. -/
theorem isWritten_text (depth : Nat) : (s : Stmt) → (∀ name ∈ s.names, isIdentifier name = true) →
    s.isOnLines = true →
      ∃ rows, Line.AreBody rows [s.outline] ∧ IsWritten (s.text depth).toList rows
  | .bind name value, hNames, _ => by
      obtain ⟨hName, hValue⟩ := List.forall_mem_cons.mp hNames
      refine isWritten_plain (.bind hName (value.isTerm hValue)) rfl ?_
      simp [text, Plain.text, String.append_assoc]
  | .declare name type value, hNames, _ => by
      obtain ⟨hName, hRest⟩ := List.forall_mem_cons.mp hNames
      obtain ⟨hType, hValue⟩ := List.forall_mem_append.mp hRest
      refine isWritten_plain (.declare hName (isTerm_type hType) (isTerm_value hValue)) rfl ?_
      cases value <;> simp [text, Plain.text, String.append_assoc]
  | .assign target value, hNames, _ => by
      obtain ⟨hTarget, hValue⟩ := List.forall_mem_append.mp hNames
      refine isWritten_plain (.assign (target.isTerm hTarget) (value.isTerm hValue)) rfl ?_
      simp [text, Plain.text, String.append_assoc]
  | .return value, hNames, _ => by
      refine isWritten_plain (.return (isTerm_value hNames)) rfl ?_
      cases value <;> simp [text, Plain.text, String.append_assoc]
  | .comment words, _, hLines => by
      refine isWritten_plain (.comment (by simpa [isOnLines] using hLines)) rfl ?_
      simp [text, Plain.text, String.append_assoc]
  | .branch condition yes no, hNames, hLines => by
      obtain ⟨hCondition, hBodies⟩ := List.forall_mem_append.mp hNames
      obtain ⟨hYes, hNo⟩ := List.forall_mem_append.mp hBodies
      obtain ⟨hYesLines, hNoLines⟩ := Bool.and_eq_true_iff.mp hLines
      obtain ⟨first, hFirst, hFirstText⟩ := isWritten_texts (depth + 1) yes hYes hYesLines
      obtain ⟨second, hSecond, hSecondText⟩ := isWritten_otherwiseText depth no hNo hNoLines
      have hOpens := IsWritten.row (.opens (condition.isTerm hCondition)) depth
      refine ⟨_, .branch condition.text hFirst hSecond .nil, ?_⟩
      simpa [text, Line.text, String.append_assoc] using
        hOpens.append (hFirstText.append hSecondText)
termination_by s => sizeOf s

theorem isWritten_texts (depth : Nat) : (body : List Stmt) →
    (∀ name ∈ allNames body, isIdentifier name = true) → areOnLines body = true →
      ∃ rows, Line.AreBody rows (outlines body) ∧ IsWritten (texts depth body).toList rows
  | [], _, _ => ⟨[], .nil, .nil⟩
  | s :: rest, hNames, hLines => by
      obtain ⟨hFirst, hRest⟩ := List.forall_mem_append.mp hNames
      obtain ⟨hFirstLines, hRestLines⟩ := Bool.and_eq_true_iff.mp hLines
      obtain ⟨rows, hRows, hText⟩ := isWritten_text depth s hFirst hFirstLines
      obtain ⟨more, hMore, hMoreText⟩ := isWritten_texts depth rest hRest hRestLines
      refine ⟨rows ++ more, hRows.append hMore, ?_⟩
      rw [texts, String.toList_append]
      exact hText.append hMoreText
termination_by body => sizeOf body

/-- What follows the first block of a branch is the lines that close it. -/
theorem isWritten_otherwiseText (depth : Nat) : (no : List Stmt) →
    (∀ name ∈ allNames no, isIdentifier name = true) → areOnLines no = true →
      ∃ rows, Line.AreEnd rows (outlines no) ∧ IsWritten (otherwiseText depth no).toList rows
  | [], _, _ => by
      refine ⟨[.closes], .closes, ?_⟩
      simpa [otherwiseText, Line.text, String.append_assoc] using IsWritten.row .closes depth
  | s :: rest, hNames, hLines => by
      obtain ⟨hFirst, hRest⟩ := List.forall_mem_append.mp hNames
      obtain ⟨hFirstLines, hRestLines⟩ := Bool.and_eq_true_iff.mp hLines
      by_cases hChain : ∃ condition yes no, s :: rest = [.branch condition yes no]
      · obtain ⟨condition, yes, no, hBranch⟩ := hChain
        cases hBranch
        obtain ⟨hCondition, hBodies⟩ := List.forall_mem_append.mp hFirst
        obtain ⟨hYes, hNo⟩ := List.forall_mem_append.mp hBodies
        obtain ⟨hYesLines, hNoLines⟩ := Bool.and_eq_true_iff.mp hFirstLines
        obtain ⟨first, hRows, hText⟩ := isWritten_texts (depth + 1) yes hYes hYesLines
        obtain ⟨second, hMore, hMoreText⟩ := isWritten_otherwiseText depth no hNo hNoLines
        have hContinues := IsWritten.row (.continues (condition.isTerm hCondition)) depth
        refine ⟨_, .continues condition.text hRows hMore, ?_⟩
        simpa [otherwiseText, Line.text, String.append_assoc] using
          hContinues.append (hText.append hMoreText)
      · obtain ⟨rows, hRows, hText⟩ := isWritten_text (depth + 1) s hFirst hFirstLines
        obtain ⟨more, hMore, hMoreText⟩ := isWritten_texts (depth + 1) rest hRest hRestLines
        have hTurns := IsWritten.row .turns depth
        have hCloses := IsWritten.row .closes depth
        refine ⟨_, .turns (hRows.append hMore), ?_⟩
        rw [otherwiseText_block depth (by simpa using hChain)]
        simpa [Line.text, String.append_assoc] using
          hTurns.append ((hText.append hMoreText).append hCloses)
termination_by no => sizeOf no

end

end Stmt

/-! ### Functions -/

/-- The signature of a function with the outline of its body. -/
structure FunctionOutline where
  signature : String
  body : List Outline

/-- A function read line by line, without regard to the indentation of its lines. -/
def FunctionOutline.read (text : String) : Option FunctionOutline :=
  match lines text with
  | [] => none
  | head :: rest =>
    (between "fn " " \x7b" head).bind fun signature =>
      (rest.dropSuffix? [['\x7d'], []]).bind fun written =>
        (written.mapM fun line => Line.read (skipSpaces line)).bind fun rows =>
          (Outline.ofRows? rows).map fun body => ⟨signature, body⟩

namespace Function

/-- What stands between the keyword of a function and its body. -/
def signature (f : Function) : String :=
  f.name ++ "(" ++ commaList (f.params.map Param.text) ++ ")" ++ f.result.elim "" (" -> " ++ ·.text)

def outline (f : Function) : FunctionOutline :=
  ⟨f.signature, Stmt.outlines f.body⟩

/-- The names in a function, those of its parameters and types among them. -/
def names (f : Function) : List String :=
  f.name :: (f.params.flatMap (fun p => p.name :: p.type.structures) ++
    (f.result.elim [] Ty.structures ++ Stmt.allNames f.body))

/-- The line before the body of a function. -/
def headLine (f : Function) : List Char :=
  "fn ".toList ++ (f.signature.toList ++ " \x7b".toList)

theorem toList_text_headLine (f : Function) : f.text.toList =
    f.headLine ++ '\n' :: ((Stmt.texts 1 f.body).toList ++ ['\x7d', '\n']) := by
  rw [toList_text, headLine, signature]
  cases f.result <;> simp [resultText]

/-- Parameters have no braces and no line breaks in their text. -/
theorem isClean_params {params : List Param}
    (h : ∀ name ∈ params.flatMap (fun p => p.name :: p.type.structures), isIdentifier name = true) :
    IsClean (commaList (params.map Param.text)).toList := by
  induction params with
  | nil => exact isClean_nil
  | cons p more ih =>
      rw [List.flatMap_cons] at h
      obtain ⟨hFirst, hMore⟩ := List.forall_mem_append.mp h
      obtain ⟨hName, hType⟩ := List.forall_mem_cons.mp hFirst
      have hParam : IsClean p.text.toList := by
        simp [Param.text, (fits_of_isIdentifier hName).clean, (isTerm_type hType).fits.clean]
      cases more with
      | nil => simpa [commaList] using hParam
      | cons second others =>
          have hRest := ih hMore
          simp only [commaList, List.map_cons, String.intercalate_cons_cons, String.toList_append,
            isClean_append] at hRest ⊢
          exact ⟨⟨hParam, by simp⟩, hRest⟩

variable {f : Function}

theorem isClean_signature (h : ∀ name ∈ f.names, isIdentifier name = true) :
    IsClean f.signature.toList := by
  obtain ⟨hName, hRest⟩ := List.forall_mem_cons.mp h
  obtain ⟨hParams, hRest⟩ := List.forall_mem_append.mp hRest
  obtain ⟨hResult, -⟩ := List.forall_mem_append.mp hRest
  have hType : IsClean (f.result.elim "" (" -> " ++ ·.text)).toList := by
    cases hSome : f.result with
    | none => exact isClean_nil
    | some type =>
        rw [hSome] at hResult
        simp [(isTerm_type hResult).fits.clean]
  simp [signature, (fits_of_isIdentifier hName).clean, isClean_params hParams, hType]

/-- The lines of a function: its head, those of its body, and the brace that ends it with
its line. -/
theorem lines_text (hNames : ∀ name ∈ f.names, isIdentifier name = true)
    (hLines : f.isOnLines = true) : ∃ rows written, Line.AreBody rows (Stmt.outlines f.body) ∧
      List.Forall₂ Line.Shows rows written ∧
        lines f.text = f.headLine :: (written ++ [['\x7d'], []]) := by
  have hBody : ∀ name ∈ Stmt.allNames f.body, isIdentifier name = true := fun name hName =>
    hNames name (by simp [names, hName])
  obtain ⟨rows, hRows, written, hShows, hText⟩ := Stmt.isWritten_texts 1 f.body hBody hLines
  have hHead : '\n' ∉ f.headLine := by
    simp [headLine, (isClean_signature hNames).not_mem]
  have hWritten : ∀ line ∈ written, '\n' ∉ line :=
    ((List.forall₂_and_left _ _).mp (hShows.flip.imp fun _ _ hLine => ⟨hLine.not_mem, hLine⟩)).1
  refine ⟨rows, written, hRows, hShows, ?_⟩
  rw [lines, toList_text_headLine, hText, splitOn_line hHead, splitOn_flatMap hWritten]
  rfl

/-- A function reads back, line by line, as its outline. -/
theorem read_text (hNames : ∀ name ∈ f.names, isIdentifier name = true)
    (hLines : f.isOnLines = true) : FunctionOutline.read f.text = some f.outline := by
  obtain ⟨rows, written, hRows, hShows, hText⟩ := lines_text hNames hLines
  have hBody : (written ++ [['\x7d'], []]).dropSuffix? [['\x7d'], []] = some written :=
    List.dropSuffix?_eq_some_iff.mpr ⟨_, rfl, beq_self_eq_true _⟩
  have hRead : (written.mapM fun line => Line.read (skipSpaces line)) = some rows :=
    mapM_eq_some_iff.mpr (hShows.flip.imp fun _ _ hLine => hLine.read_skipSpaces)
  rw [FunctionOutline.read, hText]
  dsimp only
  rw [headLine, between_append, hBody, Option.bind_some, Option.bind_some, hRead, Option.bind_some,
    hRows.ofRows?]
  rfl

/-- The braces of a function are balanced. -/
theorem exists_dyckWord (hNames : ∀ name ∈ f.names, isIdentifier name = true)
    (hLines : f.isOnLines = true) :
    ∃ w : DyckWord, w.toList = (lines f.text).flatMap bracesOf := by
  obtain ⟨rows, written, hRows, hShows, hText⟩ := lines_text hNames hLines
  obtain ⟨w, hWord⟩ := hRows.exists_dyckWord
  have hHead : bracesOf f.headLine = [DyckStep.U] := by
    have hCode : isCommentLine f.headLine = false := rfl
    rw [bracesOf, hCode, headLine]
    simp [(isClean_signature hNames).filterMap_brace?, brace?]
  have hBody : written.flatMap bracesOf = rows.flatMap Line.braces := by
    clear hText hRows hWord
    induction hShows with
    | nil => rfl
    | cons hFirst _ ih => rw [List.flatMap_cons, List.flatMap_cons, ih, hFirst.bracesOf]
  refine ⟨w.nest, ?_⟩
  rw [hText, List.flatMap_cons, List.flatMap_append, hHead, hBody, ← hWord]
  rfl

/-- The blocks of a function are told by its text: it reads back, its braces are balanced,
and a chain is read as the chain of its arms wherever it stands. The chain runs the body of
the first arm that holds, and without one it goes on with what follows. The reader goes by
lines and braces only, and knows nothing of what stands in a line. Comments may hold any
text, as long as they keep to theirs. -/
theorem block_structure (hNames : ∀ name ∈ f.names, isIdentifier name = true)
    (hLines : f.isOnLines = true) :
    FunctionOutline.read f.text = some f.outline ∧
    (∃ w : DyckWord, w.toList = (lines f.text).flatMap bracesOf) ∧
    (∀ before arms after, Stmt.outlines (before ++ (Stmt.chain arms ++ after)) =
      Stmt.outlines before ++
        (Outline.chain (arms.map fun arm => (arm.1.text, Stmt.outlines arm.2)) ++
          Stmt.outlines after)) ∧
    ∀ (lib : Library) (env : Env) (arms : List (Expr × List Stmt)),
      ((∀ arm ∈ arms, arm.1.eval lib env = some (.bool false)) → ∀ after,
        Stmt.execAll lib env (Stmt.chain arms ++ after) = Stmt.execAll lib env after) ∧
      ∀ passed condition body others, arms = passed ++ (condition, body) :: others →
        (∀ arm ∈ passed, arm.1.eval lib env = some (.bool false)) →
        condition.eval lib env = some (.bool true) →
        Stmt.execAll lib env (Stmt.chain arms) =
          (Stmt.execAll lib env body).map (Outcome.leave env) := by
  refine ⟨read_text hNames hLines, exists_dyckWord hNames hLines, fun before arms after => ?_,
    fun lib env arms => ⟨fun hNone after => ?_, ?_⟩⟩
  · rw [← Stmt.outlines_chain, Stmt.outlines_eq_map, List.map_append, List.map_append,
      ← Stmt.outlines_eq_map, ← Stmt.outlines_eq_map, ← Stmt.outlines_eq_map]
  · exact Stmt.execAll_append_of_running (Stmt.execAll_chain_of_forall hNone)
  · rintro passed condition body others rfl hPassed hHolds
    exact Stmt.execAll_chain_of_first hPassed hHolds

/-- A branch alone continues the chain, one behind a comment does not, and neither names nor
comments that look like keywords and braces are taken for them. -/
theorem block_structure_shade :
    (FunctionOutline.read (text ⟨"shade", [⟨"let", .i32⟩], some .f32,
      [.comment "\x7d else \x7b",
       .branch (.ident "lit") [.assign (.ident "if") (.ident "glow")]
        [.branch (.ident "near") []
          [.comment "far", .branch (.ident "lit") [.return none] []]]]⟩)).map FunctionOutline.body =
      some [.plain (.comment "\x7d else \x7b"),
        .branch "lit" [.plain (.assign "if" "glow")]
          [.branch "near" []
            [.plain (.comment "far"), .branch "lit" [.plain (.return none)] []]]] := by
  rw [(block_structure (by decide) (by decide)).1]
  rfl

end Function

end PathTracer.Shader
