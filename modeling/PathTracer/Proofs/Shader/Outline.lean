import Mathlib.Combinatorics.Enumerative.DyckWord
import PathTracer.Proofs.Shader.Blocks
import PathTracer.Proofs.Shader.Commenting
import PathTracer.Proofs.Shader.Terms

/-! Blocks of generated code read from its lines. An outline is a tree of statements with
the texts of their expressions. One line after the other extends the tree, with the
branches that are still open on a stack. -/
namespace PathTracer.Shader

/-- A statement without blocks. -/
inductive Plain where
  | bind (name value : String)
  | declare (name type : String) (value : Option String)
  | assign (target value : String)
  | return (value : Option String)
  | comment (text : String)
  deriving Repr, DecidableEq

/-- What a line does to the blocks around it. -/
inductive Line where
  | plain (s : Plain)
  /-- A branch begins with its first block. -/
  | opens (condition : String)
  /-- The block ends, and a branch is the alternative to it. -/
  | continues (condition : String)
  /-- The block ends, and another one is the alternative to it. -/
  | turns
  | closes
  deriving Repr, DecidableEq

/-- A statement with its blocks. -/
inductive Outline where
  | plain (s : Plain)
  | branch (condition : String) (yes no : List Outline)
  deriving Repr

/-- An if / else-if chain of conditions with their bodies. -/
def Outline.chain : List (String × List Outline) → List Outline
  | [] => []
  | (condition, body) :: arms => [.branch condition body (chain arms)]

/-! ### Reading a line -/

/-- The text between two words, the first at the start and the second at the end. -/
def between (opening closing : String) (text : List Char) : Option String :=
  (text.dropPrefix? opening.toList).bind fun text =>
    (text.dropSuffix? closing.toList).map String.ofList

/-- A term, and what stands between two words behind it. -/
def readPair (opening closing : String) (text : List Char) : Option (String × String) :=
  let (first, rest) := splitTerm 0 text
  (between opening closing rest).map fun second => (String.ofList first, second)

namespace Plain

/-- A declaration behind its keyword, with or without a value. -/
def readDeclare (text : List Char) : Option Plain :=
  let (name, rest) := splitName text
  (between ": " ";" rest).map fun inner =>
    match readPair " = " "" inner.toList with
    | some (type, value) => .declare name type (some value)
    | none => .declare name inner none

/-- A return, with or without a value. -/
def readReturn (text : List Char) : Option Plain :=
  if text = "return;".toList then some (.return none)
  else (between "return " ";" text).map fun value => .return (some value)

/-- A statement without blocks. An assignment is told by what follows its target, since
keywords are names as well. -/
def read (text : List Char) : Option Plain :=
  match between "// " "" text with
  | some text => some (.comment text)
  | none =>
    match readPair " = " ";" text with
    | some (target, value) => some (.assign target value)
    | none =>
      match skip "let ".toList text with
      | some rest => (readPair " = " ";" rest).map fun (name, value) => .bind name value
      | none =>
        match skip "var ".toList text with
        | some rest => readDeclare rest
        | none => readReturn text

end Plain

/-- A line without its indentation. -/
def Line.read (text : List Char) : Option Line :=
  if text = ['\x7d'] then some .closes
  else if text = "\x7d else \x7b".toList then some .turns
  else
    match between "\x7d else if (" ") \x7b" text with
    | some condition => some (.continues condition)
    | none =>
      match between "if (" ") \x7b" text with
      | some condition => some (.opens condition)
      | none => (Plain.read text).map .plain

/-! ### Reading the blocks -/

/-- A branch that is still open. -/
structure Frame where
  /-- The statements before it in its own block, the latest first. -/
  before : List Outline
  /-- The arms of its chain that are closed, the latest first. -/
  arms : List (String × List Outline)
  /-- The condition of the arm that is open, or none in the last alternative. -/
  condition : Option String

/-- Blocks that are still open. -/
structure Blocks where
  frames : List Frame
  /-- The statements of the innermost block, the latest first. -/
  block : List Outline

/-- The alternative of an arm is the arm that was closed after it. -/
def nest (arms : List (String × List Outline)) (last : List Outline) : List Outline :=
  arms.foldl (fun no arm => [.branch arm.1 arm.2 no]) last

/-- The statements of the block around a branch, the branch among them. -/
def Frame.close (frame : Frame) (block : List Outline) : List Outline :=
  nest frame.arms (frame.condition.elim block fun condition => [.branch condition block []]) ++
    frame.before

/-- One line that is read. An alternative stands behind an arm only. -/
def Blocks.step : Blocks → Line → Option Blocks
  | ⟨frames, block⟩, .plain s => some ⟨frames, .plain s :: block⟩
  | ⟨frames, block⟩, .opens condition => some ⟨⟨block, [], some condition⟩ :: frames, []⟩
  | ⟨⟨before, arms, some condition⟩ :: frames, block⟩, .continues next =>
    some ⟨⟨before, (condition, block.reverse) :: arms, some next⟩ :: frames, []⟩
  | ⟨⟨before, arms, some condition⟩ :: frames, block⟩, .turns =>
    some ⟨⟨before, (condition, block.reverse) :: arms, none⟩ :: frames, []⟩
  | ⟨frame :: frames, block⟩, .closes => some ⟨frames, frame.close block.reverse⟩
  | _, _ => none

/-- The statements that some lines are, if all their branches are closed. -/
def Outline.ofRows? (rows : List Line) : Option (List Outline) :=
  match rows.foldlM Blocks.step ⟨[], []⟩ with
  | some ⟨[], block⟩ => some block.reverse
  | _ => none

/-! ### The lines of statements -/

namespace Line

mutual

/-- Lines on which statements stand. -/
inductive AreBody : List Line → List Outline → Prop where
  | nil : AreBody [] []
  | plain (s : Plain) {rows : List Line} {rest : List Outline} (hRest : AreBody rows rest) :
      AreBody (.plain s :: rows) (.plain s :: rest)
  | branch (condition : String) {first second rows : List Line} {yes no rest : List Outline}
      (hYes : AreBody first yes) (hNo : AreEnd second no) (hRest : AreBody rows rest) :
      AreBody (.opens condition :: (first ++ (second ++ rows))) (.branch condition yes no :: rest)

/-- Lines that close a branch behind its first block, with the alternative on them. -/
inductive AreEnd : List Line → List Outline → Prop where
  | closes : AreEnd [.closes] []
  | continues (condition : String) {first second : List Line} {yes no : List Outline}
      (hYes : AreBody first yes) (hNo : AreEnd second no) :
      AreEnd (.continues condition :: (first ++ second)) [.branch condition yes no]
  | turns {rows : List Line} {body : List Outline} (hBody : AreBody rows body) :
      AreEnd (.turns :: (rows ++ [.closes])) body

end

/-- The lines of a block are the lines of its first statements and then those of the others.
The induction is on the first. -/
theorem AreBody.append {rows more : List Line} {body rest : List Outline} :
    AreBody rows body → AreBody more rest → AreBody (rows ++ more) (body ++ rest)
  | .nil, hMore => hMore
  | .plain s hRest, hMore => .plain s (hRest.append hMore)
  | .branch condition hYes hNo hRest, hMore => by
      simpa using AreBody.branch condition hYes hNo (hRest.append hMore)

mutual

/-- The lines of statements add them to the innermost block, whatever is open. -/
theorem AreBody.foldlM_step {rows : List Line} {body : List Outline} :
    AreBody rows body → ∀ (frames : List Frame) (block : List Outline),
      rows.foldlM Blocks.step ⟨frames, block⟩ = some ⟨frames, body.reverse ++ block⟩
  | .nil, _, _ => rfl
  | .plain s hRest, frames, block => by
      rw [List.foldlM_cons, Blocks.step, Option.bind_eq_bind, Option.bind_some,
        hRest.foldlM_step, List.reverse_cons, List.append_assoc]
      rfl
  | .branch condition hYes hNo hRest, frames, block => by
      rw [List.foldlM_cons, Blocks.step, Option.bind_eq_bind, Option.bind_some,
        List.foldlM_append, hYes.foldlM_step, Option.bind_eq_bind, Option.bind_some,
        List.foldlM_append, hNo.foldlM_step, Option.bind_eq_bind, Option.bind_some,
        hRest.foldlM_step]
      simp [nest]

/-- The lines behind an arm close its branch, with all that the chain still has. -/
theorem AreEnd.foldlM_step {rows : List Line} {no : List Outline} :
    AreEnd rows no → ∀ (frames : List Frame) (before : List Outline)
      (arms : List (String × List Outline)) (condition : String) (yes : List Outline),
      rows.foldlM Blocks.step ⟨⟨before, arms, some condition⟩ :: frames, yes⟩ =
        some ⟨frames, nest arms [.branch condition yes.reverse no] ++ before⟩
  | .closes, _, _, _, _, _ => rfl
  | .continues next hYes hNo, frames, before, arms, condition, yes => by
      rw [List.foldlM_cons, Blocks.step, Option.bind_eq_bind, Option.bind_some,
        List.foldlM_append, hYes.foldlM_step, Option.bind_eq_bind, Option.bind_some,
        hNo.foldlM_step, List.append_nil, List.reverse_reverse]
      rfl
  | .turns hBody, frames, before, arms, condition, yes => by
      rw [List.foldlM_cons, Blocks.step, Option.bind_eq_bind, Option.bind_some,
        List.foldlM_append, hBody.foldlM_step, List.append_nil]
      simp [Blocks.step, Frame.close, nest]

end

/-- Statements are read back from their lines. -/
theorem AreBody.ofRows? {rows : List Line} {body : List Outline} (h : AreBody rows body) :
    Outline.ofRows? rows = some body := by
  rw [Outline.ofRows?, h.foldlM_step, List.append_nil]
  exact congrArg some body.reverse_reverse

/-! ### Braces -/

open DyckStep (U D)

/-- The braces of a line. -/
def braces : Line → List DyckStep
  | .plain _ => []
  | .opens _ => [U]
  | .continues _ => [D, U]
  | .turns => [D, U]
  | .closes => [D]

mutual

theorem AreBody.exists_dyckWord {rows : List Line} {body : List Outline} :
    AreBody rows body → ∃ w : DyckWord, w.toList = rows.flatMap braces
  | .nil => ⟨0, rfl⟩
  | .plain s hRest => hRest.exists_dyckWord
  | .branch condition hYes hNo hRest => by
      obtain ⟨u, hFirst⟩ := hYes.exists_dyckWord
      obtain ⟨v, hSecond⟩ := hNo.exists_dyckWord u
      obtain ⟨w, hLast⟩ := hRest.exists_dyckWord
      have hSum : (v + w).toList = v.toList ++ w.toList := rfl
      exact ⟨v + w, by simp [hSum, hSecond, hFirst, hLast, braces]⟩

/-- The lines behind an arm close the brace before it, whatever stands in its block. -/
theorem AreEnd.exists_dyckWord {rows : List Line} {no : List Outline} :
    AreEnd rows no → ∀ block : DyckWord,
      ∃ w : DyckWord, w.toList = U :: (block.toList ++ rows.flatMap braces)
  | .closes, block => ⟨block.nest, rfl⟩
  | .continues condition hYes hNo, block => by
      obtain ⟨v, hFirst⟩ := hYes.exists_dyckWord
      obtain ⟨w, hSecond⟩ := hNo.exists_dyckWord v
      have hSum : (block.nest + w).toList = U :: (block.toList ++ [D]) ++ w.toList := rfl
      exact ⟨block.nest + w, by simp [hSum, hSecond, hFirst, braces]⟩
  | .turns hBody, block => by
      obtain ⟨w, hInner⟩ := hBody.exists_dyckWord
      have hSum : (block.nest + w.nest).toList =
          U :: (block.toList ++ [D]) ++ U :: (w.toList ++ [D]) := rfl
      exact ⟨block.nest + w.nest, by simp [hSum, hInner, braces]⟩

end

end Line

end PathTracer.Shader
