import PathTracer.Scene.Node

/-! Scenes described by calls. Lines are given out in the order of the calls,
one for every node and one for every statement of a material. -/
namespace PathTracer

/-- A call that adds a node to the scope it is made in. -/
inductive Call where
  /-- A material with the targets and sources of its statements. -/
  | material (name : String) (body : List (String × String))
  | environment (body : List (String × String))
  /-- A reference to a material, which makes it active for what follows. -/
  | use (name : String)
  | node (kind : NodeKind) (options : Options) (inner : List Call)
  deriving Inhabited

namespace Call

/-- Options that hold names, in lower case. -/
def nameOptions : List String := ["name", "material"]

/-- Options written as pairs of a key and a text. -/
def optionsOf (pairs : List (String × String)) : Options :=
  pairs.foldl
    (fun o pair =>
      if nameOptions.contains (Text.lower pair.1) then o.setText pair.1 pair.2
      else o.set pair.1 (.source pair.2))
    .empty

/-- Options that consist of a name. -/
def named (name : String) : Options :=
  Options.empty.setText "Name" name

/-- Statements on the lines that follow a given one. -/
def statementsAfter (line : Nat) : List (String × String) → List Statement
  | [] => []
  | (target, source) :: rest =>
    ⟨target, source, line + 1⟩ :: statementsAfter (line + 1) rest

mutual

/-- The node that a call adds after a line, and the last line it used. -/
def build (line : Nat) : Call → Node × Nat
  | material name body =>
    (.new (.material .surface (statementsAfter (line + 1) body)) (named name) (line + 1) [],
      line + 1 + body.length)
  | environment body =>
    (.new (.material .environment (statementsAfter (line + 1) body)) (named "Environment")
      (line + 1) [], line + 1 + body.length)
  | use name => (.new (.material .surface []) (named name) (line + 1) [], line + 1)
  | node kind options inner =>
    let (leaves, last) := buildAll (line + 1) inner
    (.new kind options (line + 1) leaves, last)

/-- The nodes of a scope, and the last line used in it. -/
def buildAll (line : Nat) : List Call → List Node × Nat
  | [] => ([], line)
  | call :: rest =>
    let (first, last) := build line call
    let (more, final) := buildAll last rest
    (first :: more, final)

end

/-- The scene that calls at its root describe. -/
def scene (calls : List Call) : SceneGraph :=
  ⟨(buildAll 0 calls).1⟩

end Call

end PathTracer
