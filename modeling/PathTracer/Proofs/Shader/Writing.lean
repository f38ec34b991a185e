import PathTracer.Proofs.Shader.Commenting
import PathTracer.Proofs.Shader.Generation

/-! What the text of generated code tells where not all literals are finite. Another
number stands in the text for such a literal, and the text reads back as the code
with these numbers in it. -/
namespace PathTracer.Shader

/-- The number that is written for a float. -/
def writtenFloat (x : Float32) : Float32 :=
  if x.isFinite then x else 0.0

/-- The number that is written is always finite: zero stands for infinities and for what is
no number. -/
theorem isFinite_writtenFloat (x : Float32) : (writtenFloat x).isFinite = true := by
  unfold writtenFloat
  split
  · assumption
  · decide

/-- A float and the number that is written for it have one text. -/
theorem floatText_writtenFloat (x : Float32) : floatText (writtenFloat x) = floatText x := by
  unfold writtenFloat
  split
  · rfl
  · rename_i hInfinite
    have hZero : floatText 0.0 = "0.0" := by decide
    rw [hZero, floatText, if_pos (by simpa using hInfinite)]

/-! ### Expressions -/

namespace Expr

mutual

/-- An expression with the numbers that are written for its floats. -/
def written : Expr → Expr
  | .float x => .float (writtenFloat x)
  | .int i => .int i
  | .uint u => .uint u
  | .ident name => .ident name
  | .field base name => .field base.written name
  | .index base position => .index base.written position.written
  | .neg e => .neg e.written
  | .not e => .not e.written
  | .binary op a b => .binary op a.written b.written
  | .call function args => .call function (allWritten args)
  | .construct type args => .construct type (allWritten args)

def allWritten : List Expr → List Expr
  | [] => []
  | e :: rest => e.written :: allWritten rest

end

/-- Arguments are written one by one. -/
theorem allWritten_eq_map (args : List Expr) : allWritten args = args.map written := by
  induction args with
  | nil => rfl
  | cons e rest ih => rw [allWritten, ih, List.map_cons]

mutual

/-- A text does not tell an expression from the one that is written for it. -/
theorem text_written : (e : Expr) → e.written.text = e.text
  | .float x => by rw [written, text, text, floatText_writtenFloat]
  | .int _ => rfl
  | .uint _ => rfl
  | .ident _ => rfl
  | .field base name => by rw [written, text, text, text_written base]
  | .index base position => by
      rw [written, text, text, text_written base, text_written position]
  | .neg e => by rw [written, text, text, text_written e]
  | .not e => by rw [written, text, text, text_written e]
  | .binary op a b => by rw [written, text, text, text_written a, text_written b]
  | .call function args => by rw [written, text, text, texts_allWritten args]
  | .construct type args => by rw [written, text, text, texts_allWritten args]

/-- Nor does a text tell lists of them. -/
theorem texts_allWritten : (args : List Expr) → texts (allWritten args) = texts args
  | [] => rfl
  | e :: rest => by rw [allWritten, texts, texts, text_written e, texts_allWritten rest]

end

mutual

/-- All literals that are written are finite. -/
theorem isFinite_of_mem_written {x : Float32} :
    (e : Expr) → x ∈ e.written.literals → x.isFinite = true
  | .float y, hx => by
      rw [List.mem_singleton.mp hx]
      exact isFinite_writtenFloat y
  | .int _, hx => absurd hx List.not_mem_nil
  | .uint _, hx => absurd hx List.not_mem_nil
  | .ident _, hx => absurd hx List.not_mem_nil
  | .field base _, hx => isFinite_of_mem_written base hx
  | .index base position, hx =>
      (List.mem_append.mp hx).elim (isFinite_of_mem_written base) (isFinite_of_mem_written position)
  | .neg e, hx => isFinite_of_mem_written e hx
  | .not e, hx => isFinite_of_mem_written e hx
  | .binary _ a b, hx =>
      (List.mem_append.mp hx).elim (isFinite_of_mem_written a) (isFinite_of_mem_written b)
  | .call _ args, hx => isFinite_of_mem_allWritten args hx
  | .construct _ args, hx => isFinite_of_mem_allWritten args hx

/-- All literals that are written for arguments are finite. -/
theorem isFinite_of_mem_allWritten {x : Float32} :
    (args : List Expr) → x ∈ allLiterals (allWritten args) → x.isFinite = true
  | [], hx => absurd hx List.not_mem_nil
  | e :: rest, hx =>
      (List.mem_append.mp hx).elim (isFinite_of_mem_written e) (isFinite_of_mem_allWritten rest)

end

/-- Only finite floats are written. -/
theorem isLegible_written (e : Expr) : e.written.isLegible = true :=
  List.all_eq_true.mpr fun _ hx => isFinite_of_mem_written e hx

/-- Names and types are written as they are. -/
theorem WellNamed.written {e : Expr} (h : e.WellNamed) : e.written.WellNamed := by
  have hAll {args : List Expr} (hArgs : ∀ e ∈ args, e.written.WellNamed) :
      ∀ e ∈ allWritten args, e.WellNamed := by
    rw [allWritten_eq_map]
    exact List.forall_mem_map.mpr hArgs
  induction h with
  | float x => exact .float _
  | int i => exact .int i
  | uint n => exact .uint n
  | ident hName => exact .ident hName
  | field _ hName ih => exact .field ih hName
  | index _ _ ihBase ihPosition => exact .index ihBase ihPosition
  | neg _ ih => exact .neg ih
  | not _ ih => exact .not ih
  | binary op _ _ ihLeft ihRight => exact .binary op ihLeft ihRight
  | call hName _ ih => exact .call hName (hAll ih)
  | construct hType _ ih => exact .construct hType (hAll ih)

/-- What can be assigned to stays so. -/
theorem isTarget_written {e : Expr} (h : e.isTarget = true) : e.written.isTarget = true := by
  cases e with
  | ident name => rfl
  | field base name =>
      cases base with
      | ident _ => rfl
      | _ => cases h
  | _ => cases h

end Expr

/-! ### Statements -/

namespace Stmt

mutual

/-- A statement with the numbers that are written for its floats. -/
def written : Stmt → Stmt
  | .bind name value => .bind name value.written
  | .declare name type value => .declare name type (value.map Expr.written)
  | .assign target value => .assign target.written value.written
  | .branch condition yes no => .branch condition.written (allWritten yes) (allWritten no)
  | .return value => .return (value.map Expr.written)
  | .comment text => .comment text

def allWritten : List Stmt → List Stmt
  | [] => []
  | s :: rest => s.written :: allWritten rest

end

theorem allWritten_eq_map (body : List Stmt) : allWritten body = body.map written := by
  induction body with
  | nil => rfl
  | cons s rest ih => rw [allWritten, ih, List.map_cons]

/-- An alternative that does not continue a chain is a block. -/
theorem otherwiseText_block (depth : Nat) {s : Stmt} {rest : List Stmt}
    (h : ∀ condition yes no, s :: rest ≠ [.branch condition yes no]) :
    otherwiseText depth (s :: rest) = indent depth ++ "\x7d else \x7b\n" ++ s.text (depth + 1) ++
      texts (depth + 1) rest ++ indent depth ++ "\x7d\n" := by
  rw [otherwiseText]
  exact fun condition yes no hHead hTail => h condition yes no (by rw [hHead, hTail])

/-- No chain starts in what is written for other statements. -/
theorem allWritten_ne_branch {body : List Stmt}
    (h : ∀ condition yes no, body ≠ [.branch condition yes no]) (condition : Expr)
    (yes no : List Stmt) : allWritten body ≠ [.branch condition yes no] := by
  intro hSame
  match body with
  | [] => cases hSame
  | [.branch _ _ _] => exact h _ _ _ rfl
  | [.bind _ _] | [.declare _ _ _] | [.assign _ _] | [.return _] | [.comment _] => cases hSame
  | _ :: _ :: _ => exact absurd (congrArg List.length hSame) (by simp [allWritten])

mutual

theorem text_written (depth : Nat) : (s : Stmt) → s.written.text depth = s.text depth
  | .bind name value => by rw [written, text, text, Expr.text_written]
  | .declare name type (some value) => by
      rw [written, Option.map_some, text, text, Expr.text_written]
  | .declare name type none => rfl
  | .assign target value => by rw [written, text, text, Expr.text_written, Expr.text_written]
  | .return (some value) => by rw [written, Option.map_some, text, text, Expr.text_written]
  | .return none => rfl
  | .comment _ => rfl
  | .branch condition yes no => by
      rw [written, text, text, Expr.text_written, texts_allWritten (depth + 1) yes,
        otherwiseText_allWritten depth no]
termination_by s => sizeOf s

theorem texts_allWritten (depth : Nat) :
    (body : List Stmt) → texts depth (allWritten body) = texts depth body
  | [] => rfl
  | s :: rest => by
      rw [allWritten, texts, texts, text_written depth s, texts_allWritten depth rest]
termination_by body => sizeOf body

/-- The alternative of a branch has one text with what is written for it. -/
theorem otherwiseText_allWritten (depth : Nat) :
    (no : List Stmt) → otherwiseText depth (allWritten no) = otherwiseText depth no
  | [] => rfl
  | s :: rest => by
      by_cases hChain : ∃ condition yes no, s :: rest = [.branch condition yes no]
      · obtain ⟨condition, yes, no, hBranch⟩ := hChain
        cases hBranch
        rw [allWritten, allWritten, written, otherwiseText, otherwiseText, Expr.text_written,
          texts_allWritten (depth + 1) yes, otherwiseText_allWritten depth no]
      · have hBlock : ∀ condition yes no, s :: rest ≠ [.branch condition yes no] := by
          simpa using hChain
        rw [otherwiseText_block depth hBlock, allWritten,
          otherwiseText_block depth (allWritten_ne_branch hBlock), text_written (depth + 1) s,
          texts_allWritten (depth + 1) rest]
termination_by no => sizeOf no

end

theorem WellNamed.written {s : Stmt} (h : s.WellNamed) : s.written.WellNamed := by
  have hValue {value : Option Expr} (hNamed : ∀ v ∈ value, v.WellNamed) :
      ∀ v ∈ value.map Expr.written, v.WellNamed := by
    intro v hv
    obtain ⟨u, hu, rfl⟩ := Option.map_eq_some_iff.mp hv
    exact (hNamed u hu).written
  have hAll {body : List Stmt} (hNamed : ∀ s ∈ body, s.written.WellNamed) :
      ∀ s ∈ allWritten body, s.WellNamed := by
    rw [allWritten_eq_map]
    exact List.forall_mem_map.mpr hNamed
  induction h with
  | bind hName hNamed => exact .bind hName hNamed.written
  | declare hName hType hNamed => exact .declare hName hType (hValue hNamed)
  | assign hForm hTarget hNamed =>
      exact .assign (Expr.isTarget_written hForm) hTarget.written hNamed.written
  | branch hCondition _ _ ihYes ihNo => exact .branch hCondition.written (hAll ihYes) (hAll ihNo)
  | «return» hNamed => exact .return (hValue hNamed)
  | comment text => exact .comment text

mutual

/-- Whether no comment of a statement breaks its line. -/
def isOnLines : Stmt → Bool
  | .branch _ yes no => areOnLines yes && areOnLines no
  | .comment text => !text.toList.contains '\n'
  | _ => true

def areOnLines : List Stmt → Bool
  | [] => true
  | s :: rest => s.isOnLines && areOnLines rest

end

/-- Statements keep to their lines if each of them does. -/
theorem areOnLines_iff {body : List Stmt} :
    areOnLines body = true ↔ ∀ s ∈ body, s.isOnLines = true := by
  induction body with
  | nil => simp [areOnLines]
  | cons s rest ih => simp [areOnLines, ih]

mutual

/-- What is written can be read unless a comment breaks its line. -/
theorem isLegible_written : (s : Stmt) → s.isOnLines = true → s.written.isLegible = true
  | .bind _ value, _ => value.isLegible_written
  | .declare _ _ (some value), _ => value.isLegible_written
  | .declare _ _ none, _ => rfl
  | .assign target value, _ => by
      rw [written, isLegible, target.isLegible_written, value.isLegible_written, Bool.true_and]
  | .branch condition yes no, h => by
      obtain ⟨hYes, hNo⟩ := Bool.and_eq_true_iff.mp h
      rw [written, isLegible, condition.isLegible_written, areLegible_allWritten yes hYes,
        areLegible_allWritten no hNo, Bool.true_and, Bool.true_and]
  | .return (some value), _ => value.isLegible_written
  | .return none, _ => rfl
  | .comment _, h => h

/-- Statements that keep to their lines can be read as they are written. -/
theorem areLegible_allWritten :
    (body : List Stmt) → areOnLines body = true → areLegible (allWritten body) = true
  | [], _ => rfl
  | s :: rest, h => by
      obtain ⟨hFirst, hRest⟩ := Bool.and_eq_true_iff.mp h
      rw [allWritten, areLegible, isLegible_written s hFirst, areLegible_allWritten rest hRest,
        Bool.true_and]

end

end Stmt

/-! ### Programs -/

namespace Function

/-- A function with the numbers that are written for its floats. -/
def written (f : Function) : Function :=
  { f with body := Stmt.allWritten f.body }

theorem text_written (f : Function) : f.written.text = f.text := by
  unfold text written
  rw [Stmt.texts_allWritten]

theorem WellNamed.written {f : Function} (h : f.WellNamed) : f.written.WellNamed := by
  refine ⟨h.name, h.params, h.result, ?_⟩
  change ∀ s ∈ Stmt.allWritten f.body, s.WellNamed
  rw [Stmt.allWritten_eq_map]
  exact List.forall_mem_map.mpr fun s hs => (h.body s hs).written

/-- Whether no comment of a function breaks its line. -/
def isOnLines (f : Function) : Bool :=
  Stmt.areOnLines f.body

end Function

/-- The text of functions is that of the functions that are written for them. -/
theorem moduleText_map_written (functions : List Function) :
    moduleText (functions.map Function.written) = moduleText functions := by
  rw [moduleText, moduleText, List.map_map]
  exact congrArg _ (List.map_congr_left fun f _ => f.text_written)

namespace Program

/-- Whether no comment of a program breaks its line. -/
def isOnLines (p : Program) : Bool :=
  p.functions.all Function.isOnLines

/-- Programs on their lines are told apart by their text, up to the numbers that are
written for their floats. -/
theorem map_written_of_source {p q : Program} (hFirst : p.WellNamed) (hSecond : q.WellNamed)
    (hLines : p.isOnLines = true) (hLines' : q.isOnLines = true) (h : p.source = q.source) :
    p.functions.map Function.written = q.functions.map Function.written := by
  have hNamed {o : Program} (hOne : o.WellNamed) :
      ∀ f ∈ o.functions.map Function.written, f.WellNamed :=
    List.forall_mem_map.mpr fun f hf => (hOne.functions f hf).written
  have hLegible {o : Program} (hOne : o.isOnLines = true) :
      ∀ f ∈ o.functions.map Function.written, f.isLegible = true :=
    List.forall_mem_map.mpr fun f hf =>
      Stmt.areLegible_allWritten f.body (List.all_eq_true.mp hOne f hf)
  have hText := congrArg String.toList (generatedText_of_source h)
  rw [generatedText, generatedText, String.toList_append, String.toList_append,
    List.append_right_inj] at hText
  refine moduleText_injective (hNamed hFirst) (hNamed hSecond) (hLegible hLines)
    (hLegible hLines') ?_
  rw [moduleText_map_written, moduleText_map_written, String.toList_injective hText]

end Program

/-! ### Comments of generated functions -/

namespace Function

/-- All comments of a function are statements of its body, none of a branch in it. -/
def IsFlat (f : Function) : Prop :=
  ∀ s ∈ f.body, s.isComment = false → s.isOnLines = true

/-- A function without comments that break a line has no such comment in a branch. -/
theorem isFlat_of_isOnLines {f : Function} (h : ∀ s ∈ f.body, s.isOnLines = true) : f.IsFlat :=
  fun s hs _ => h s hs

/-- A function is on its lines where the comments of its body are. -/
theorem IsFlat.isOnLines {f : Function} (h : f.IsFlat)
    (hComments : f.Relabelled (fun _ text => '\n' ∉ text.toList) f) : f.isOnLines = true := by
  refine Stmt.areOnLines_iff.mpr fun s hs => ?_
  have hStmt := List.forall₂_same.mp hComments.body s hs
  cases hStmt with
  | code hCode => exact h s hs hCode
  | comment hText => simpa [Stmt.isOnLines] using hText

end Function

end PathTracer.Shader

namespace PathTracer.Material.Program

/-- The code of an assignment has no comments. -/
theorem isOnLines_targetCode (role : MaterialRole) (value : Shader.Expr × ValueType)
    (target : Target) : (targetCode role value target).isOnLines = true := by
  match target with
  | .field _ => rfl
  | .variable _ _ true => rfl
  | .variable _ _ false => rfl

/-- The function of a material has its one comment at the top. -/
theorem isFlat_function {p : Program} {f : Shader.Function} (h : p.function = .ok f) :
    f.IsFlat := by
  obtain ⟨code, hCode, rfl⟩ := function_eq_ok_iff.mp h
  -- The comment tells the name of the material.
  refine List.forall_mem_cons.mpr ⟨(nomatch ·), ?_⟩
  refine List.forall_mem_cons.mpr ⟨fun _ => rfl, List.forall_mem_append.mpr ⟨?_, ?_⟩⟩
  · intro s hs _
    obtain ⟨value, target, rfl⟩ := hCode.exists_targetCode hs
    exact isOnLines_targetCode p.role value target
  · exact List.forall_mem_singleton.mpr fun _ => rfl

end PathTracer.Material.Program

namespace PathTracer.Shader

/-- A chain keeps to its lines if its arms do. -/
theorem Stmt.areOnLines_chain {arms : List (Expr × List Stmt)}
    (h : ∀ arm ∈ arms, areOnLines arm.2 = true) : areOnLines (chain arms) = true := by
  induction arms with
  | nil => rfl
  | cons arm rest ih =>
      obtain ⟨condition, body⟩ := arm
      obtain ⟨hBody, hRest⟩ := List.forall_mem_cons.mp h
      have hBody : areOnLines body = true := hBody
      rw [chain, areOnLines, isOnLines, hBody, ih hRest]
      rfl

/-- The cascade of materials has no comment in any arm. -/
theorem isFlat_dispatchFunction (materials : List Material.Program) :
    (dispatchFunction materials).IsFlat := by
  refine Function.isFlat_of_isOnLines (List.forall_mem_append.mpr ⟨?_, ?_⟩)
  · refine Stmt.areOnLines_iff.mp (Stmt.areOnLines_chain fun arm hArm => ?_)
    obtain ⟨m, -, rfl⟩ := List.mem_map.mp hArm
    rfl
  · exact List.forall_mem_singleton.mpr rfl

/-- The scene function has the comments of objects at its top level only. -/
theorem isFlat_sceneFunction {statements : List Stmt}
    (h : ∀ s ∈ statements, s.isComment = false → s.isOnLines = true) :
    (sceneFunction statements).IsFlat :=
  List.forall_mem_cons.mpr ⟨fun _ => rfl,
    List.forall_mem_append.mpr ⟨h, List.forall_mem_singleton.mpr fun _ => rfl⟩⟩

/-- Generated functions are flat. -/
theorem Program.isFlat_generate {materials : List Material.Program}
    {environment : Option Material.Program} {scene : List Stmt} {p : Program}
    (hScene : ∀ s ∈ scene, s.isComment = false → s.isOnLines = true)
    (h : generate materials environment scene = .ok p) : ∀ f ∈ p.functions, f.IsFlat := by
  obtain ⟨surfaces, env, hSurfaces, hEnv, hFunctions⟩ := generate_eq_ok.mp h
  have hEnvFlat : env.IsFlat := by
    cases environment with
    | none =>
        cases hEnv
        exact Function.isFlat_of_isOnLines (List.forall_mem_singleton.mpr rfl)
    | some e => exact Material.Program.isFlat_function hEnv
  rw [hFunctions]
  refine List.forall_mem_append.mpr ⟨?_, ?_⟩
  · clear hFunctions h
    induction hSurfaces with
    | nil => nofun
    | cons hFunction _ ih =>
        exact List.forall_mem_cons.mpr ⟨Material.Program.isFlat_function hFunction, ih⟩
  · simp only [List.forall_mem_cons]
    exact ⟨isFlat_dispatchFunction materials, hEnvFlat, isFlat_sceneFunction hScene, nofun⟩

end PathTracer.Shader
