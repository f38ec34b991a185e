import Mathlib.Data.List.Forall2
import PathTracer.Shader.Program
import PathTracer.Text.Blank

/-! Comments in generated code. A comment is written on one line, as long as it
has no line break of its own: what follows a line break stands in the code. -/
namespace PathTracer.Shader

/-! ### Lines -/

/-- The lines of a text, without the breaks between them. -/
def lines (text : String) : List (List Char) :=
  text.toList.splitOn '\n'

/-- Whether a line is a comment from its first character that is not blank. -/
def isCommentLine (line : List Char) : Bool :=
  (line.dropWhile Text.isBlank).take 2 == ['/', '/']

/-- The lines of a text that are not comments. -/
def codeLines (text : String) : List (List Char) :=
  (lines text).filter fun line => !isCommentLine line

/-- What a comment writes behind its own line: all that follows the first line break
and is no comment again. -/
def leaks (comment : String) : List (List Char) :=
  (lines comment).tail.filter fun line => !isCommentLine line

/-- The lines of two texts with a break between them are those of each. -/
theorem lines_append_line (t u : String) : lines (t ++ "\n" ++ u) = lines t ++ lines u := by
  rw [lines, String.toList_append, String.toList_append, List.append_assoc]
  exact List.splitOnP_append_cons _ _ rfl

/-- The code of two texts with a break between them is that of each. -/
theorem codeLines_append_line (t u : String) :
    codeLines (t ++ "\n" ++ u) = codeLines t ++ codeLines u := by
  rw [codeLines, lines_append_line, List.filter_append]
  rfl

/-- A text without line breaks is one line. -/
theorem lines_of_not_mem {t : String} (h : '\n' ∉ t.toList) : lines t = [t.toList] :=
  List.splitOn_eq_singleton h

/-- What stands before a text on its first line does not change its other lines. -/
theorem lines_append {t : String} (h : '\n' ∉ t.toList) (u : String) :
    ∃ first, lines (t ++ u) = (t.toList ++ first) :: (lines u).tail := by
  by_cases hBreak : '\n' ∈ u.toList
  · obtain ⟨a, b, hSplit, hFree⟩ := List.eq_append_cons_of_mem hBreak
    have hFirst : u = String.ofList a ++ "\n" ++ String.ofList b := by
      rw [← String.toList_inj]
      simp [hSplit]
    have hOne : '\n' ∉ (t ++ String.ofList a).toList := by
      rw [String.toList_append, List.mem_append, String.toList_ofList]
      exact not_or.mpr ⟨h, hFree⟩
    have hTail : lines u = [a] ++ lines (String.ofList b) := by
      rw [hFirst, lines_append_line, lines_of_not_mem (by rwa [String.toList_ofList]),
        String.toList_ofList]
    refine ⟨a, ?_⟩
    rw [hTail, hFirst, ← String.append_assoc, ← String.append_assoc, lines_append_line,
      lines_of_not_mem hOne, String.toList_append, String.toList_ofList]
    rfl
  · have hOne : '\n' ∉ (t ++ u).toList := by
      rw [String.toList_append, List.mem_append]
      exact not_or.mpr ⟨h, hBreak⟩
    exact ⟨u.toList, by rw [lines_of_not_mem hOne, lines_of_not_mem hBreak, String.toList_append]; rfl⟩

/-- A comment on one line leaks nothing. -/
theorem leaks_of_not_mem {comment : String} (h : '\n' ∉ comment.toList) : leaks comment = [] := by
  rw [leaks, lines_of_not_mem h]
  rfl

/-- The indentation of a line does not make a comment of it. -/
theorem isCommentLine_indent (depth : Nat) (text : List Char) :
    isCommentLine ((indent depth).toList ++ text) = isCommentLine text := by
  have hBlank : ∀ c ∈ (indent depth).toList, Text.isBlank c = true := by
    intro c hc
    rw [indent, String.toList_ofList] at hc
    rw [List.eq_of_mem_replicate hc]
    decide
  rw [isCommentLine, List.dropWhile_append_of_pos hBlank, isCommentLine]

/-- The line of a comment is a comment, whatever the comment says. -/
theorem codeLines_comment (depth : Nat) (comment : String) :
    codeLines (indent depth ++ "// " ++ comment) = leaks comment := by
  have hFree : '\n' ∉ (indent depth ++ "// ").toList := by
    rw [indent, String.toList_append, String.toList_ofList, List.mem_append]
    exact not_or.mpr ⟨fun hMem => absurd (List.eq_of_mem_replicate hMem) (by decide), by decide⟩
  obtain ⟨first, hLines⟩ := lines_append hFree comment
  have hComment : isCommentLine ((indent depth ++ "// ").toList ++ first) = true := by
    rw [String.toList_append, List.append_assoc, isCommentLine_indent]
    rfl
  rw [codeLines, hLines, List.filter_cons_of_neg (by rw [hComment]; decide)]
  rfl

/-- A text that ends with the end of a line. -/
def EndsLine (t : String) : Prop :=
  ∃ u, t = u ++ "\n"

theorem EndsLine.append (t : String) {u : String} (h : EndsLine u) : EndsLine (t ++ u) := by
  obtain ⟨v, rfl⟩ := h
  exact ⟨t ++ v, (String.append_assoc ..).symm⟩

theorem EndsLine.codeLines_append {t : String} (h : EndsLine t) :
    ∃ first, ∀ u, codeLines (t ++ u) = first ++ codeLines u := by
  obtain ⟨v, rfl⟩ := h
  exact ⟨codeLines v, codeLines_append_line v⟩

/-- Lines that are those of some code, in their order, and lines that leak. -/
structure Mixed (all code leaked : List (List Char)) : Prop where
  sublist : code.Sublist all
  length : all.length = code.length + leaked.length

namespace Mixed

variable {all code leaked : List (List Char)}

theorem refl (code : List (List Char)) : Mixed code code [] :=
  ⟨.refl code, rfl⟩

/-- Code before both. -/
theorem after (h : Mixed all code leaked) (first : List (List Char)) :
    Mixed (first ++ all) (first ++ code) leaked := by
  refine ⟨h.sublist.append_left first, ?_⟩
  rw [List.length_append, List.length_append, h.length, Nat.add_assoc]

/-- Lines that leak before the others. -/
theorem leak (h : Mixed all code leaked) (more : List (List Char)) :
    Mixed (more ++ all) code (more ++ leaked) := by
  refine ⟨h.sublist.trans (List.sublist_append_right more all), ?_⟩
  rw [List.length_append, List.length_append, h.length]
  omega

/-- Leaked lines can only be added to code, so that nothing has leaked exactly if all lines
are code. -/
theorem eq_iff (h : Mixed all code leaked) : all = code ↔ leaked = [] := by
  constructor
  · rintro rfl
    have hLength := h.length
    exact List.eq_nil_of_length_eq_zero (by omega)
  · rintro rfl
    exact (h.sublist.eq_of_length h.length.symm).symm

end Mixed

/-! ### Statements -/

namespace Stmt

def isComment : Stmt → Bool
  | .comment _ => true
  | _ => false

/-- What a statement leaks, if it is a comment. -/
def leaks : Stmt → List (List Char)
  | .comment text => Shader.leaks text
  | _ => []

/-- The same statement, or another comment that is allowed in the place of one. -/
inductive Relabelled (allows : String → String → Prop) : Stmt → Stmt → Prop where
  | code {s : Stmt} (hCode : s.isComment = false) : Relabelled allows s s
  | comment {text text' : String} (hText : allows text text') :
      Relabelled allows (.comment text) (.comment text')

variable {allows : String → String → Prop}

/-- A comment corresponds to a comment only. -/
theorem Relabelled.isComment {s s' : Stmt} (h : Relabelled allows s s') :
    s'.isComment = s.isComment := by
  cases h with
  | code _ => rfl
  | comment _ => rfl

theorem eq_of_relabelled {s s' : Stmt} (h : Relabelled Eq s s') : s' = s := by
  cases h with
  | code _ => rfl
  | comment hText => rw [hText]

/-- What closes a branch ends a line. -/
theorem endsLine_otherwiseText (depth : Nat) (no : List Stmt) :
    EndsLine (otherwiseText depth no) := by
  unfold otherwiseText
  split
  · exact .append _ ⟨"\x7d", rfl⟩
  · exact .append _ (endsLine_otherwiseText depth _)
  · exact .append _ ⟨"\x7d", rfl⟩
termination_by sizeOf no

/-- Every statement ends with the end of a line. So statements can be put one after the
other without their lines running together. -/
theorem endsLine_text (depth : Nat) : (s : Stmt) → EndsLine (s.text depth)
  | .bind name value => by
      rw [text]
      exact .append _ ⟨";", rfl⟩
  | .declare name type (some value) => by
      rw [text]
      exact .append _ ⟨";", rfl⟩
  | .declare name type none => by
      rw [text]
      exact .append _ ⟨";", rfl⟩
  | .assign target value => by
      rw [text]
      exact .append _ ⟨";", rfl⟩
  | .return (some value) => by
      rw [text]
      exact .append _ ⟨";", rfl⟩
  | .return none => by
      rw [text]
      exact .append _ ⟨"return;", rfl⟩
  | .comment words => by
      rw [text]
      exact ⟨_, rfl⟩
  | .branch condition yes no => by
      rw [text]
      exact .append _ (endsLine_otherwiseText depth no)

/-- The lines of statements are those of their code and what their comments leak. The code
is in its order, and what has leaked may stand anywhere among it. -/
theorem mixed_texts (depth : Nat) (body : List Stmt) {u v : String} {leaked : List (List Char)}
    (h : Mixed (codeLines u) (codeLines v) leaked) :
    Mixed (codeLines (texts depth body ++ u))
      (codeLines (texts depth (body.filter fun s => !s.isComment) ++ v))
      (body.flatMap leaks ++ leaked) := by
  induction body with
  | nil => simpa [texts] using h
  | cons s rest ih =>
      rw [texts, List.flatMap_cons, List.append_assoc, String.append_assoc, List.filter_cons]
      by_cases hComment : s.isComment = true
      · cases s with
        | comment words =>
            rw [if_neg (by simp [hComment]), text, String.append_assoc, ← String.append_assoc,
              codeLines_append_line, codeLines_comment]
            exact ih.leak _
        | _ => cases hComment
      · obtain ⟨first, hFirst⟩ := (s.endsLine_text depth).codeLines_append
        have hNone : s.leaks = [] := by
          cases s with
          | comment words => exact absurd rfl hComment
          | _ => rfl
        rw [if_pos (by simp [hComment]), texts, String.append_assoc, hFirst, hFirst, hNone]
        exact ih.after first

end Stmt

/-! ### Programs -/

namespace Function

/-- A function without its comments. -/
def bare (f : Function) : Function :=
  { f with body := f.body.filter fun s => !s.isComment }

/-- What the comments of a function leak. -/
def leaks (f : Function) : List (List Char) :=
  f.body.flatMap Stmt.leaks

/-- The same function with other comments that are allowed. -/
structure Relabelled (allows : String → String → Prop) (f f' : Function) : Prop where
  name : f'.name = f.name
  params : f'.params = f.params
  result : f'.result = f.result
  body : List.Forall₂ (Stmt.Relabelled allows) f.body f'.body

variable {allows : String → String → Prop} {f f' : Function}

/-- Functions that correspond are the same without their comments. -/
theorem Relabelled.bare_eq (h : f.Relabelled allows f') : f'.bare = f.bare := by
  obtain ⟨name, params, result, body⟩ := f
  obtain ⟨_, _, _, body'⟩ := f'
  obtain ⟨rfl, rfl, rfl, hBody⟩ := h
  refine congrArg (Function.mk _ _ _) ?_
  replace hBody : List.Forall₂ (Stmt.Relabelled allows) body body' := hBody
  induction hBody with
  | nil => rfl
  | cons hFirst _ ih =>
      dsimp only at ih ⊢
      rw [List.filter_cons, List.filter_cons, hFirst.isComment, ih]
      cases hFirst with
      | code _ => rfl
      | comment _ => rfl

theorem eq_of_relabelled (h : f.Relabelled Eq f') : f' = f := by
  obtain ⟨_, _, _, body⟩ := f
  obtain ⟨_, _, _, body'⟩ := f'
  obtain ⟨rfl, rfl, rfl, hBody⟩ := h
  have hSame : body' = body := by
    rw [← List.forall₂_eq_eq_eq]
    exact hBody.flip.imp fun _ _ hStmt => Stmt.eq_of_relabelled hStmt
  rw [hSame]

/-- A function whose comments come from names that fit leaks nothing. -/
theorem Relabelled.leaks_eq_nil {fits : String → Prop} (h : f.Relabelled (fun _ y => fits y) f')
    (hFits : ∀ y, fits y → Shader.leaks y = []) : f'.leaks = [] := by
  have hBody := h.body
  unfold leaks
  generalize f.body = body at hBody
  generalize f'.body = body' at hBody
  induction hBody with
  | nil => rfl
  | @cons s s' _ _ hFirst _ ih =>
      have hHere : s'.leaks = [] := by
        cases hFirst with
        | code hCode =>
            cases s with
            | comment text => cases hCode
            | _ => rfl
        | comment hText => exact hFits _ hText
      rw [List.flatMap_cons, hHere, ih]
      rfl

/-- Around its body a function is written on lines of its own. -/
theorem exists_head (f : Function) : ∃ head, EndsLine head ∧ ∀ body,
    ({ f with body := body } : Function).text = head ++ (Stmt.texts 1 body ++ "\x7d\n") := by
  obtain ⟨name, params, result, body⟩ := f
  cases result with
  | none =>
      have hHead : EndsLine ("fn " ++ name ++ "(" ++ commaList (params.map Param.text) ++ ") \x7b\n") :=
        .append _ ⟨") \x7b", rfl⟩
      exact ⟨_, hHead, fun body => String.append_assoc⟩
  | some type =>
      have hHead : EndsLine ("fn " ++ name ++ "(" ++ commaList (params.map Param.text) ++ ") -> " ++
          type.text ++ " \x7b\n") := .append _ ⟨" \x7b", rfl⟩
      exact ⟨_, hHead, fun body => String.append_assoc⟩

/-- The lines of a function are those of its code and what its comments leak. -/
theorem mixed_text (f : Function) {u v : String} {leaked : List (List Char)}
    (h : Mixed (codeLines u) (codeLines v) leaked) :
    Mixed (codeLines (f.text ++ u)) (codeLines (f.bare.text ++ v)) (f.leaks ++ leaked) := by
  obtain ⟨head, hHead, hText⟩ := f.exists_head
  obtain ⟨first, hFirst⟩ := hHead.codeLines_append
  obtain ⟨last, hLast⟩ := (show EndsLine "\x7d\n" from ⟨"\x7d", rfl⟩).codeLines_append
  rw [show f.text = _ from hText f.body, show f.bare.text = _ from hText f.bare.body]
  simp only [String.append_assoc, hFirst]
  apply Mixed.after
  apply Stmt.mixed_texts
  rw [hLast, hLast]
  exact h.after last

end Function

/-- Functions have a blank line between them, which is the same for all. -/
theorem mixed_moduleText (functions : List Function) :
    Mixed (codeLines (moduleText functions)) (codeLines (moduleText (functions.map Function.bare)))
      (functions.flatMap Function.leaks) := by
  induction functions with
  | nil => exact .refl _
  | cons f rest ih =>
      cases rest with
      | nil => simpa [moduleText] using f.mixed_text (.refl (codeLines ""))
      | cons g more =>
          obtain ⟨gap, hGap⟩ := (show EndsLine "\n" from ⟨"", rfl⟩).codeLines_append
          have hRest := ih.after gap
          rw [← hGap, ← hGap] at hRest
          have hText := f.mixed_text hRest
          simp only [moduleText, List.map_cons, String.intercalate_cons_cons,
            String.append_assoc] at hText ⊢
          rw [List.flatMap_cons]
          exact hText

namespace Program

/-- A program without the comments of its functions. -/
def bare (p : Program) : Program :=
  ⟨p.functions.map Function.bare⟩

/-- What the comments of a program leak. -/
def leaks (p : Program) : List (List Char) :=
  p.functions.flatMap Function.leaks

/-- The same program with other comments that are allowed. -/
def Relabelled (allows : String → String → Prop) (p p' : Program) : Prop :=
  List.Forall₂ (Function.Relabelled allows) p.functions p'.functions

variable {allows : String → String → Prop} {p p' : Program}

theorem Relabelled.bare_eq (h : p.Relabelled allows p') : p'.bare = p.bare := by
  refine congrArg Program.mk ?_
  rw [← List.forall₂_eq_eq_eq]
  exact List.rel_map (fun _ _ hFunction => hFunction.bare_eq) (List.Forall₂.flip h)

theorem eq_of_relabelled (h : p.Relabelled Eq p') : p' = p := by
  refine congrArg Program.mk ?_
  rw [← List.forall₂_eq_eq_eq]
  exact (List.Forall₂.flip h).imp fun _ _ hFunction => Function.eq_of_relabelled hFunction

theorem Relabelled.leaks_eq_nil {fits : String → Prop} (h : p.Relabelled (fun _ y => fits y) p')
    (hFits : ∀ y, fits y → Shader.leaks y = []) : p'.leaks = [] := by
  obtain ⟨functions⟩ := p
  obtain ⟨functions'⟩ := p'
  change List.Forall₂ _ functions functions' at h
  change functions'.flatMap Function.leaks = []
  induction h with
  | nil => rfl
  | cons hFirst _ ih =>
      rw [List.flatMap_cons, hFirst.leaks_eq_nil hFits, ih]
      rfl

/-- The lines of the generated text are those of its code and what its comments leak. -/
theorem mixed_generatedText (p : Program) :
    Mixed (codeLines p.generatedText) (codeLines p.bare.generatedText) p.leaks := by
  obtain ⟨first, hFirst⟩ :=
    (show EndsLine "// generated\n" from ⟨"// generated", rfl⟩).codeLines_append
  rw [generatedText, generatedText, hFirst, hFirst]
  exact (mixed_moduleText p.functions).after first

/-- A program whose comments leak nothing has the code of another one with other
comments if and only if those leak nothing either. -/
theorem Relabelled.codeLines_eq_iff (h : p.Relabelled allows p') (hQuiet : p.leaks = []) :
    codeLines p'.generatedText = codeLines p.generatedText ↔ p'.leaks = [] := by
  rw [p.mixed_generatedText.eq_iff.mpr hQuiet, ← h.bare_eq]
  exact p'.mixed_generatedText.eq_iff

end Program

end PathTracer.Shader
