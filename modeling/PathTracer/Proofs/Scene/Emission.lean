import PathTracer.Proofs.Scene.Refresh
import PathTracer.Scene.Shapes

/-! The shapes of a scene in the order in which a walk comes to them. The walk
emits one statement for each of them into the scene function, and records each
in the list of its kind, so that the lists forget how the kinds alternate. -/
namespace PathTracer

/-- What a ray can meet: a primitive, or the sphere of a light. -/
inductive Shape where
  | primitive (p : Primitive)
  | lamp (l : Lamp)
  deriving Repr, DecidableEq

namespace Shape

/-- The statement of a shape in the scene function. -/
def statement : Shape → Shader.Stmt
  | primitive p =>
    Node.hitStatement (Node.primitiveFunction p.kind) [.uint p.object, .uint p.data, .int p.material]
  | lamp l => Node.hitStatement "prim_light_sphere" [.uint l.data, .int l.material]

def primitive? : Shape → Option Primitive
  | primitive p => some p
  | lamp _ => none

def lamp? : Shape → Option Lamp
  | primitive _ => none
  | lamp l => some l

end Shape

namespace Shapes

/-- The shapes of an order, each in the list of its kind. -/
def ofOrder (order : List Shape) : Shapes :=
  ⟨order.filterMap Shape.primitive?, order.filterMap Shape.lamp?⟩

instance : Append Shapes :=
  ⟨fun s t => ⟨s.primitives ++ t.primitives, s.lamps ++ t.lamps⟩⟩

theorem append_def (s t : Shapes) : s ++ t = ⟨s.primitives ++ t.primitives, s.lamps ++ t.lamps⟩ :=
  rfl

theorem append_assoc (s t u : Shapes) : s ++ t ++ u = s ++ (t ++ u) := by
  simp [append_def]

theorem append_ofOrder_nil (s : Shapes) : s ++ ofOrder [] = s := by
  simp [append_def, ofOrder]

theorem ofOrder_append (a b : List Shape) : ofOrder (a ++ b) = ofOrder a ++ ofOrder b := by
  simp [append_def, ofOrder]

end Shapes

/-- Statements that place shapes in an order, with comments between them. -/
inductive Places : List Shader.Stmt → List Shape → Prop where
  | nil : Places [] []
  | comment {statements : List Shader.Stmt} {order : List Shape} (text : String)
      (rest : Places statements order) : Places (.comment text :: statements) order
  | shape {statements : List Shader.Stmt} {order : List Shape} (s : Shape)
      (rest : Places statements order) : Places (s.statement :: statements) (s :: order)

theorem Places.append {first second : List Shader.Stmt} {a b : List Shape}
    (hFirst : Places first a) (hSecond : Places second b) :
    Places (first ++ second) (a ++ b) := by
  induction hFirst with
  | nil => exact hSecond
  | comment text _ ih => exact .comment text ih
  | shape s _ ih => exact .shape s ih

/-- The scene function is the last function of a program. So the program of a scene tells
its shapes. -/
theorem Shader.Program.generate_last {materials : List Material.Program}
    {environment : Option Material.Program} {scene : List Stmt} {p : Program}
    (h : generate materials environment scene = .ok p) :
    p.functions.getLast? = some (sceneFunction scene) := by
  rw [generate, generatedFunctions] at h
  split at h
  · cases h
  · split at h
    · cases h
    · cases h
      simp

/-! ### Steps that place shapes -/

/-- The shapes that a walk has recorded so far. -/
def Context.shapes (c : Context) : Shapes :=
  .ofEntities c.entities

/-- Two contexts with the same recorded shapes. -/
def Context.SameShapes (c d : Context) : Prop :=
  d.shapes = c.shapes

instance : Recording Context.SameShapes where
  refl _ := rfl
  trans hFirst hSecond := hSecond.trans hFirst
  report _ _ _ := rfl
  scope _ _ := rfl
  slot _ _ := rfl
  object _ _ := rfl
  sun c _ _ := by
    simp [Context.SameShapes, Context.shapes, Shapes.ofEntities, Light.lamp?]

/-- A step that adds statements to those before it and records exactly the
shapes that they place. -/
def Emits (before : List Shader.Stmt) (m : StateM Context Output) : Prop :=
  ∀ c, ∃ more order, Places more order ∧ (m.run c).1 = some (before ++ more) ∧
    (m.run c).2.shapes = c.shapes ++ .ofOrder order

namespace Emits

variable {α : Type} {before : List Shader.Stmt}

/-- Writing nothing places nothing. -/
theorem skip (before : List Shader.Stmt) : Emits before (pure (some before)) :=
  fun c => ⟨[], [], .nil, by rw [List.append_nil]; rfl, (Shapes.append_ofOrder_nil _).symm⟩

/-- What is read before a statement is written places nothing. -/
theorem after {m : StateM Context α} {f : α → StateM Context Output}
    (h : Moves Context.SameShapes m) (hNext : ∀ x, Emits before (f x)) : Emits before (m >>= f) := by
  intro c
  obtain ⟨more, order, hPlaces, hOut, hShapes⟩ := hNext (m.run c).1 (m.run c).2
  refine ⟨more, order, hPlaces, hOut, hShapes.trans ?_⟩
  rw [show (m.run c).2.shapes = c.shapes from h c]

theorem bind {m : StateM Context Output} {f : Output → StateM Context Output}
    (h : Emits before m) (hNext : ∀ statements, Emits statements (f (some statements))) :
    Emits before (m >>= f) := by
  intro c
  obtain ⟨first, a, hFirst, hOut, hShapes⟩ := h c
  obtain ⟨second, b, hSecond, hLast, hEnd⟩ := hNext (before ++ first) (m.run c).2
  rw [← hOut] at hLast hEnd
  refine ⟨first ++ second, a ++ b, hFirst.append hSecond, hLast.trans ?_, hEnd.trans ?_⟩
  · rw [List.append_assoc]
  · rw [hShapes, Shapes.append_assoc, Shapes.ofOrder_append]

/-- A comment places nothing. -/
theorem of_comment {text : String} {m : StateM Context Output}
    (h : Emits (before ++ [Shader.Stmt.comment text]) m) : Emits before m := by
  intro c
  obtain ⟨more, order, hPlaces, hOut, hShapes⟩ := h c
  refine ⟨.comment text :: more, order, .comment text hPlaces, hOut.trans ?_, hShapes⟩
  rw [List.append_assoc, List.singleton_append]

theorem shape (before : List Shader.Stmt) (s : Shape) {f : Entities → Entities}
    (h : ∀ e, Shapes.ofEntities (f e) = .ofEntities e ++ .ofOrder [s]) :
    Emits before (Node.addEntities f >>= fun _ => pure (some (before ++ [s.statement]))) :=
  fun c => ⟨[s.statement], [s], .shape s .nil, rfl, h c.entities⟩

end Emits

namespace Node

/-- A sphere light places the lamp that it records, or neither. -/
theorem visitSphereLight_emits (n : Node) (before : List Shader.Stmt) :
    Emits before (n.visitSphereLight (some before)) := by
  refine .after (n.moves_readFloat3 _ _) fun position => ?_
  refine .after (n.moves_readFloat1 _ _) fun radius => ?_
  refine .after n.moves_lightMaterial fun found => ?_
  cases found with
  | none => exact .skip before
  | some index =>
      refine .after Moves.get fun c => .after (moves_allocate _) fun data => ?_
      -- A reduced index would be compared digit by digit.
      generalize Context.wrapIndex index = material
      exact .shape before (.lamp ⟨data, material⟩) fun e => by
        simp [Shapes.ofEntities, Shapes.ofOrder, Shapes.append_def, Light.lamp?, Shape.primitive?,
          Shape.lamp?]

/-- A primitive places the shape that it records, or neither. -/
theorem visitPrimitive_emits (n : Node) (kind : PrimitiveKind) (before : List Shader.Stmt) :
    Emits before (n.visitPrimitive kind (some before)) := by
  refine .after Moves.get fun c => .after (n.moves_allocatePrimitive kind) fun data => ?_
  exact .shape before (.primitive ⟨kind, c.scope.object, data, c.activeMaterial⟩) fun e => by
    simp [Shapes.ofEntities, Shapes.ofOrder, Shapes.append_def, Shape.primitive?, Shape.lamp?]

mutual

/-- A walk emits exactly the shapes that it records, in the order in which it
comes to them. -/
theorem visit_emits :
    (n : Node) → (before : List Shader.Stmt) → Emits before (n.visit (some before))
  | ⟨.object kind, options, name, line, leaves⟩, before => by
      rw [visit]
      refine .after (moves_enterObject _ kind) fun saved => ?_
      refine Emits.of_comment ((visitAll_emits leaves _).bind fun statements => ?_)
      exact .after (moves_checkOut saved) fun _ => .skip statements
  | ⟨.material .surface body, options, name, line, leaves⟩, before => by
      rw [visit]
      exact .after (moves_visitMaterial _) fun _ => .skip before
  | ⟨.material .environment _, _, _, _, _⟩, before => by
      rw [visit]
      exact .skip before
  | ⟨.render, _, _, _, leaves⟩, before => by
      rw [visit]
      exact visitAll_emits leaves before
  | ⟨.light .sun, options, name, line, leaves⟩, before => by
      rw [visit]
      exact .after (moves_visitSun _) fun _ => .skip before
  | ⟨.light .sphere, options, name, line, leaves⟩, before => by
      rw [visit]
      exact visitSphereLight_emits _ before
  | ⟨.camera kind, options, name, line, leaves⟩, before => by
      rw [visit]
      exact .after (moves_visitCamera _ kind fun _ _ => rfl) fun _ => .skip before
  | ⟨.primitive kind, options, name, line, leaves⟩, before => by
      rw [visit]
      exact visitPrimitive_emits _ kind before

/-- Visiting siblings writes statements that place exactly the shapes it records, in the
same order. -/
theorem visitAll_emits :
    (nodes : List Node) → (before : List Shader.Stmt) → Emits before (visitAll nodes (some before))
  | [], before => by
      rw [visitAll]
      exact .skip before
  | n :: rest, before => by
      rw [visitAll]
      exact (visit_emits n before).bind fun statements => visitAll_emits rest statements

end

/-- Compiling a render node writes statements that place the shapes of the scene. -/
theorem compile_places (n : Node) {c : Context} (h : c.entities = .empty) :
    ∃ order, Places (n.compile c).1 order ∧ (n.compile c).2.shapes = .ofOrder order := by
  obtain ⟨more, order, hPlaces, hOut, hShapes⟩ := n.visit_emits [] c
  have hStatements : (n.compile c).1 = more := congrArg (Option.getD · []) hOut
  refine ⟨order, hStatements ▸ hPlaces, hShapes.trans ?_⟩
  rw [Context.shapes, h]
  simp [Shapes.ofEntities, Entities.empty, Shapes.append_def]

end Node

/-- The scene function of a compiled scene places its shapes in the order of
the walk. -/
theorem SceneGraph.compileAt_places {g : SceneGraph} {time : Float32} {s : Scene}
    (h : g.compileAt time = .ok s) :
    ∃ statements order, s.program.functions.getLast? = some (Shader.sceneFunction statements) ∧
      Places statements order ∧ Shapes.ofEntities s.entities = .ofOrder order := by
  obtain ⟨render, definitions, environmentNode, hRender, hDefinitions, hEnvironment⟩ :=
    compileAt_parts h
  obtain ⟨programs, environment, errors, hCompile⟩ :=
    compileAt_eq hRender hDefinitions hEnvironment
  rw [hCompile time, Context.finish_eq_ok] at h
  obtain ⟨_, _, options, program, _, hProgram, rfl⟩ := h
  have hStart : { (Context.start time).registerAll definitions with errors := errors }.entities =
      .empty := by
    rw [Context.registerAll_eq]
    rfl
  obtain ⟨order, hPlaces, hShapes⟩ := render.compile_places hStart
  exact ⟨_, order, Shader.Program.generate_last hProgram, hPlaces, hShapes⟩

end PathTracer
