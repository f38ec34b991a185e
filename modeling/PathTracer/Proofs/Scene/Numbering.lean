import Mathlib.Data.List.Basic
import PathTracer.Scene.Builder

/-! The lines of a scene that is described by calls. In the order of the calls, which lists each
node before its statements and these before the nodes below it, the lines count from one on. -/
namespace PathTracer

/-- The statements that are part of a kind of node. -/
def NodeKind.statements : NodeKind → List Statement
  | material _ body => body
  | _ => []

/-- The line of a node with the lines of its own statements after it. -/
def Node.lines (n : Node) : List Nat :=
  n.line :: n.kind.statements.map Statement.line

/-- All lines, each node before its statements and these before the nodes below it. -/
def SceneGraph.lines (g : SceneGraph) : List Nat :=
  g.walk.flatMap Node.lines

namespace Call

/-! ### What calls add -/

mutual

/-- The number of nodes and statements that a call adds. -/
def additions : Call → Nat
  | material _ body => 1 + body.length
  | environment body => 1 + body.length
  | use _ => 1
  | node _ _ inner => 1 + additionsAll inner

def additionsAll : List Call → Nat
  | [] => 0
  | call :: rest => additions call + additionsAll rest

end

mutual

/-- Whether all statements are added by calls. A kind of node can also be given together with a
body that was made elsewhere, and the lines of that body are from there. Building does not
look at them: it keeps the body as it is given and counts on from the line of the node. -/
def AddsStatements : Call → Prop
  | material _ _ => True
  | environment _ => True
  | use _ => True
  | node kind _ inner => kind.statements = [] ∧ AllAddStatements inner

def AllAddStatements : List Call → Prop
  | [] => True
  | call :: rest => AddsStatements call ∧ AllAddStatements rest

end

/-! ### Counting on -/

/-- Lines that follow a given one without a gap, up to the last. -/
structure Continues (line count : Nat) (lines : List Nat) (last : Nat) : Prop where
  lines : lines = List.range' (line + 1) count
  last : last = line + count

theorem Continues.none (line : Nat) : Continues line 0 [] line :=
  ⟨rfl, rfl⟩

theorem Continues.one (line : Nat) : Continues line 1 [line + 1] (line + 1) :=
  ⟨rfl, rfl⟩

/-- The last line of one part is handed on as the line before the next one. -/
theorem Continues.append {line first second last final : Nat} {lines more : List Nat}
    (h : Continues line first lines last) (hMore : Continues last second more final) :
    Continues line (first + second) (lines ++ more) final := by
  obtain ⟨rfl, rfl⟩ := h
  obtain ⟨rfl, rfl⟩ := hMore
  refine ⟨?_, Nat.add_assoc _ _ _⟩
  rw [Nat.add_right_comm, List.range'_append_1]

theorem continues_statementsAfter (line : Nat) (body : List (String × String)) :
    Continues line body.length ((statementsAfter line body).map Statement.line)
      (line + body.length) := by
  refine ⟨?_, rfl⟩
  induction body generalizing line with
  | nil => rfl
  | cons pair rest ih => rw [statementsAfter, List.map_cons, ih, List.length_cons, List.range'_succ]

/-- A node with the statements of its calls and nothing below it. -/
theorem continues_material (role : MaterialRole) (options : Options) (line : Nat)
    (body : List (String × String)) :
    Continues line (1 + body.length)
      ((Node.new (.material role (statementsAfter (line + 1) body)) options (line + 1)
        []).walk.flatMap Node.lines) (line + 1 + body.length) := by
  have hLines := (Continues.one line).append (continues_statementsAfter (line + 1) body)
  simpa [Node.walk, Node.walkAll, Node.lines, NodeKind.statements] using hLines

mutual

/-- A call takes the lines after the one it is handed, and hands on the last of them. -/
theorem continues_build (line : Nat) : (call : Call) → call.AddsStatements →
    Continues line call.additions ((build line call).1.walk.flatMap Node.lines) (build line call).2
  | material name body, _ => by
      rw [build, additions]
      exact continues_material .surface _ line body
  | environment body, _ => by
      rw [build, additions]
      exact continues_material .environment _ line body
  | use name, _ => by
      rw [build, additions]
      exact continues_material .surface _ line []
  | node kind options inner, h => by
      rw [AddsStatements] at h
      have hNode := (Continues.one line).append (continues_buildAll (line + 1) inner h.2)
      rw [build, additions]
      simpa [Node.walk, Node.lines, h.1] using hNode

theorem continues_buildAll (line : Nat) : (calls : List Call) → AllAddStatements calls →
    Continues line (additionsAll calls) ((Node.walkAll (buildAll line calls).1).flatMap Node.lines)
      (buildAll line calls).2
  | [], _ => by
      rw [buildAll, additionsAll]
      exact .none line
  | call :: rest, h => by
      rw [AllAddStatements] at h
      have hFirst := continues_build line call h.1
      have hRest := continues_buildAll (build line call).2 rest h.2
      rw [buildAll, additionsAll]
      simpa [Node.walkAll] using hFirst.append hRest

end

/-- The lines of a scene are the numbers from one on, one for each node and each statement,
as long as the calls add their statements themselves. Nothing is said of scenes in which a
material is given with its statements: those keep their lines, which may be any. The counter
is handed into nested calls and taken back from them, for nodes and statements alike. -/
theorem lines_scene (calls : List Call) (h : AllAddStatements calls) :
    (scene calls).lines = List.range' 1 (additionsAll calls) :=
  (continues_buildAll 0 calls h).lines

/-- A material, a render node with objects one inside the other, and an environment. -/
def nested : List Call :=
  [.material "A" [("albedo", "1"), ("ior", "2")],
    .node .render .empty [.node (.camera .perspective) .empty [],
      .node (.object .marched) .empty [.use "A", .node (.object .analytical) .empty []]],
    .environment [("color", "0")]]

/-- Ten lines for seven nodes and three statements. -/
theorem lines_scene_nested :
    AllAddStatements nested ∧ (scene nested).lines = [1, 2, 3, 4, 5, 6, 7, 8, 9, 10] := by
  have hCalls : AllAddStatements nested := by
    simp [nested, AllAddStatements, AddsStatements, NodeKind.statements]
  exact ⟨hCalls, lines_scene nested hCalls⟩

/-- A material that is given with a statement from line 77. -/
def given : List Call :=
  [.node (.material .surface [⟨"albedo", "1, 0, 0", 77⟩]) (named "A") []]

/-- A statement that no call has added is not on the line after its node. -/
theorem lines_scene_given :
    (scene given).lines = [1, 77] ∧
      ¬∀ calls : List Call, ∃ count, (scene calls).lines = List.range' 1 count := by
  have hLines : (scene given).lines = [1, 77] := by decide
  refine ⟨hLines, fun hAll => ?_⟩
  obtain ⟨count, hCount⟩ := hAll given
  rw [hLines] at hCount
  have hLength : count = 2 := by simpa using (congrArg List.length hCount).symm
  rw [hLength] at hCount
  exact absurd hCount (by decide)

end Call

end PathTracer
