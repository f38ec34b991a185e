import PathTracer.Proofs.Scene.Freezing
import PathTracer.Proofs.Scene.Verdict

/-! Graphs without animations. Nothing that a walk reads changes with the time, so
that such a graph is compiled at all times to one scene or to one error. -/
namespace PathTracer

/-! ### Options that stand still -/

namespace Options

variable {o : Options}

/-- Without animations every option has one value. -/
theorem value_of_still (h : o.isAnimated = false) (name : String) (s t : Float32) :
    o.value name t = o.value name s := by
  unfold value
  split
  · rfl
  · rfl
  · rfl
  · rename_i keys hFound
    obtain ⟨before, after, hEntries, _⟩ := List.lookup_eq_some_iff.mp hFound
    have hAnimated : o.isAnimated = true := by
      rw [isAnimated, hEntries]
      simp
    rw [h] at hAnimated
    cases hAnimated

/-- Without animations a number is the same at all times. -/
theorem float1_of_still (h : o.isAnimated = false) (name : String) (default s t : Float32) :
    o.float1 name default t = o.float1 name default s :=
  float1_congr (value_of_still h name s t) default

/-- Without animations a vector is the same at all times. -/
theorem float3_of_still (h : o.isAnimated = false) (name : String) (default : Vec3 Float32)
    (s t : Float32) : o.float3 name default t = o.float3 name default s :=
  float3_congr (value_of_still h name s t) default

end Options

/-! ### Steps that do not look at the time -/

/-- A step that gives the same at all times, and records the same. -/
def Timeless {α : Type} (m : StateM Context α) : Prop :=
  ∀ (c : Context) (time : Float32),
    m.run (c.atTime time) = ((m.run c).1, (m.run c).2.atTime time)

namespace Timeless

variable {α β : Type}

/-- Returning a value takes no notice of the time. -/
theorem pure (x : α) : Timeless (Pure.pure x : StateM Context α) :=
  fun _ _ => rfl

/-- Parts that take no notice of the time take none together. -/
theorem bind {m : StateM Context α} {f : α → StateM Context β} (h : Timeless m)
    (hNext : ∀ x, Timeless (f x)) : Timeless (m >>= f) := by
  intro c time
  change (f (m.run (c.atTime time)).1).run (m.run (c.atTime time)).2 = _
  rw [h c time]
  exact hNext _ _ _

/-- What follows a look at the context may use all of it but the time. -/
theorem get_bind {f : Context → StateM Context β} (h : ∀ c, Timeless (f c))
    (hSame : ∀ c time, f (c.atTime time) = f c) : Timeless (MonadState.get >>= f) := by
  intro c time
  change (f (c.atTime time)).run (c.atTime time) = _
  rw [hSame]
  exact h c c time

/-- A change that commutes with setting the time takes no notice of it. -/
theorem modify {f : Context → Context} (h : ∀ c time, f (c.atTime time) = (f c).atTime time) :
    Timeless (modify f : StateM Context PUnit) :=
  fun c time => congrArg (PUnit.unit, ·) (h c time)

end Timeless

namespace Node

variable {n : Node}

/-- Numbers that are not animated are read without notice of the time. -/
theorem readFloat1_timeless (h : n.options.isAnimated = false) (name : String)
    (default : Float32) : Timeless (n.readFloat1 name default) := by
  intro c time
  change n.readFloat1 name default (c.atTime time) =
    ((n.readFloat1 name default c).1, (n.readFloat1 name default c).2.atTime time)
  unfold readFloat1
  rw [Options.float1_of_still h name default c.time (c.atTime time).time]
  split <;> rfl

/-- Vectors that are not animated are read without notice of the time. -/
theorem readFloat3_timeless (h : n.options.isAnimated = false) (name : String)
    (default : Vec3 Float32) : Timeless (n.readFloat3 name default) := by
  intro c time
  change n.readFloat3 name default (c.atTime time) =
    ((n.readFloat3 name default c).1, (n.readFloat3 name default c).2.atTime time)
  unfold readFloat3
  rw [Options.float3_of_still h name default c.time (c.atTime time).time]
  split <;> rfl

/-- Bounds that are not animated are read without notice of the time. -/
theorem readBounds_timeless (h : n.options.isAnimated = false) : Timeless n.readBounds := by
  intro c time
  change n.readBounds (c.atTime time) = ((n.readBounds c).1, (n.readBounds c).2.atTime time)
  unfold readBounds
  rw [Options.float3_of_still h "MaxBox" .zero c.time (c.atTime time).time]
  split <;> rfl

/-- A placement that is not animated is read without notice of the time. -/
theorem readPlacement_timeless (h : n.options.isAnimated = false) : Timeless n.readPlacement :=
  (readFloat3_timeless h _ _).bind fun _ => (readFloat3_timeless h _ _).bind fun _ =>
    (readFloat1_timeless h _ _).bind fun _ => .pure _

/-- Taking a slot takes no notice of the time. -/
theorem allocate_timeless (v : Vec4 Float32) : Timeless (allocate v) :=
  fun _ _ => rfl

/-- Recording takes no notice of the time. -/
theorem addEntities_timeless (f : Entities → Entities) : Timeless (addEntities f) :=
  .modify fun _ _ => rfl

/-- Reporting takes no notice of the time. -/
theorem report_timeless (n : Node) (defect : Defect) : Timeless (n.report defect) :=
  .modify fun _ _ => rfl

/-- Names of materials are resolved without notice of the time. -/
theorem activate_timeless (n : Node) (name : String) : Timeless (n.activate name) := by
  intro c time
  change n.activate name (c.atTime time) =
    ((n.activate name c).1, (n.activate name c).2.atTime time)
  unfold activate
  rw [c.resolve_atTime]
  generalize c.resolve name n.line = found
  obtain ⟨index, d⟩ := found
  cases index <;> rfl

/-- The material of an object has a name, which is never animated. -/
theorem activateOption_timeless (n : Node) : Timeless n.activateOption := by
  unfold activateOption
  split
  · exact n.activate_timeless _
  · exact .pure _

/-- A definition of a material takes no notice of the time. -/
theorem visitMaterial_timeless (n : Node) : Timeless n.visitMaterial := by
  unfold visitMaterial
  split
  · exact n.activate_timeless _
  · exact .pure _

/-- A raymarched object that is not animated is recorded without notice of the time. -/
theorem addMarched_timeless (h : n.options.isAnimated = false) : Timeless n.addMarched := by
  unfold addMarched
  refine (readFloat1_timeless h _ _).bind fun steps => ?_
  refine (readFloat1_timeless h _ _).bind fun stepSize => ?_
  refine (readBounds_timeless h).bind fun bounds => ?_
  exact .get_bind (fun _ => addEntities_timeless _) fun _ _ => rfl

/-- Entering an object takes no notice of the time. -/
theorem checkIn_timeless (placement : Placement Float32) :
    Timeless (modify fun c => c.checkIn placement : StateM Context PUnit) := by
  refine .modify fun c time => ?_
  unfold Context.checkIn Context.pushObject Context.pushSlot Context.atTime
  rfl

/-- An object that is not animated is entered without notice of the time. -/
theorem enterObject_timeless (h : n.options.isAnimated = false) (kind : ObjectKind) :
    Timeless (n.enterObject kind) := by
  unfold enterObject
  refine (readPlacement_timeless h).bind fun placement => .get_bind (fun c => ?_) fun _ _ => rfl
  refine (checkIn_timeless placement).bind fun _ => ?_
  refine n.activateOption_timeless.bind fun _ => ?_
  split
  · exact (addMarched_timeless h).bind fun _ => .pure _
  · exact .pure _

/-- A direction that is not animated is read without notice of the time. -/
theorem readDirection_timeless (h : n.options.isAnimated = false) : Timeless n.readDirection := by
  unfold readDirection
  refine (readFloat3_timeless h _ _).bind fun given => ?_
  split
  · exact .pure _
  · exact (n.report_timeless _).bind fun _ => .pure _

/-- A sun that is not animated takes no notice of the time. -/
theorem visitSun_timeless (h : n.options.isAnimated = false) : Timeless n.visitSun :=
  (readDirection_timeless h).bind fun _ => (readFloat3_timeless h _ _).bind fun _ =>
    (allocate_timeless _).bind fun _ => addEntities_timeless _

/-- The material of a light is found without notice of the time. -/
theorem lightMaterial_timeless (n : Node) : Timeless n.lightMaterial := by
  unfold lightMaterial
  split
  · exact fun c time => c.resolve_atTime time _ _
  · exact (n.report_timeless _).bind fun _ => .pure _

/-- A sphere light that is not animated takes no notice of the time. -/
theorem visitSphereLight_timeless (h : n.options.isAnimated = false) (out : Output) :
    Timeless (n.visitSphereLight out) := by
  unfold visitSphereLight
  refine (readFloat3_timeless h _ _).bind fun position => ?_
  refine (readFloat1_timeless h _ _).bind fun radius => ?_
  refine n.lightMaterial_timeless.bind fun found => ?_
  cases found with
  | none => exact .pure _
  | some index =>
      refine .get_bind (fun c => (allocate_timeless _).bind fun data => ?_) fun _ _ => rfl
      exact (addEntities_timeless _).bind fun _ => .pure _

/-- A camera that is not animated takes no notice of the time. -/
theorem visitCamera_timeless (h : n.options.isAnimated = false) (kind : CameraKind) :
    Timeless (n.visitCamera kind) := by
  unfold visitCamera
  refine (readFloat3_timeless h _ _).bind fun origin => ?_
  refine (readFloat3_timeless h _ _).bind fun lookAt => ?_
  refine (readFloat1_timeless h _ _).bind fun fieldOfView => ?_
  exact addEntities_timeless _

/-- The slots of a primitive that is not animated take no notice of the time. -/
theorem allocatePrimitive_timeless (h : n.options.isAnimated = false) (kind : PrimitiveKind) :
    Timeless (n.allocatePrimitive kind) := by
  cases kind with
  | sphere =>
      exact (readFloat3_timeless h _ _).bind fun _ => (readFloat1_timeless h _ _).bind fun _ =>
        allocate_timeless _
  | box =>
      exact (readFloat3_timeless h _ _).bind fun _ => (readFloat3_timeless h _ _).bind fun _ =>
        (allocate_timeless _).bind fun _ => (allocate_timeless _).bind fun _ => .pure _
  | plane =>
      exact (readFloat3_timeless h _ _).bind fun _ => (readFloat1_timeless h _ _).bind fun _ =>
        allocate_timeless _

/-- A primitive that is not animated takes no notice of the time. -/
theorem visitPrimitive_timeless (h : n.options.isAnimated = false) (kind : PrimitiveKind)
    (out : Output) : Timeless (n.visitPrimitive kind out) := by
  unfold visitPrimitive
  refine .get_bind (fun c => ?_) fun _ _ => rfl
  refine (allocatePrimitive_timeless h kind).bind fun data => ?_
  exact (addEntities_timeless _).bind fun _ => .pure _

mutual

/-- A walk through a tree without animations does not look at the time. -/
theorem visit_timeless : (n : Node) → (∀ m ∈ walk n, m.options.isAnimated = false) →
    (out : Output) → Timeless (n.visit out)
  | ⟨.object kind, options, name, line, leaves⟩, h, out => by
      rw [walk, List.forall_mem_cons] at h
      rw [visit]
      refine (enterObject_timeless h.1 kind).bind fun saved => ?_
      refine (visitAll_timeless leaves h.2 _).bind fun found => ?_
      exact Timeless.bind (.modify fun _ _ => rfl) fun _ => .pure _
  | ⟨.material .surface body, _, _, _, _⟩, _, out => by
      rw [visit]
      exact (visitMaterial_timeless _).bind fun _ => .pure _
  | ⟨.material .environment _, _, _, _, _⟩, _, out => by
      rw [visit]
      exact .pure _
  | ⟨.render, _, _, _, leaves⟩, h, out => by
      rw [walk, List.forall_mem_cons] at h
      rw [visit]
      exact visitAll_timeless leaves h.2 out
  | ⟨.light .sun, _, _, _, _⟩, h, out => by
      rw [walk, List.forall_mem_cons] at h
      rw [visit]
      exact (visitSun_timeless h.1).bind fun _ => .pure _
  | ⟨.light .sphere, _, _, _, _⟩, h, out => by
      rw [walk, List.forall_mem_cons] at h
      rw [visit]
      exact visitSphereLight_timeless h.1 out
  | ⟨.camera kind, _, _, _, _⟩, h, out => by
      rw [walk, List.forall_mem_cons] at h
      rw [visit]
      exact (visitCamera_timeless h.1 kind).bind fun _ => .pure _
  | ⟨.primitive kind, _, _, _, _⟩, h, out => by
      rw [walk, List.forall_mem_cons] at h
      rw [visit]
      exact visitPrimitive_timeless h.1 kind out

/-- Siblings without animations, in all their walks, take no notice of the time. -/
theorem visitAll_timeless : (nodes : List Node) →
    (∀ m ∈ walkAll nodes, m.options.isAnimated = false) → (out : Output) →
    Timeless (visitAll nodes out)
  | [], _, out => by
      rw [visitAll]
      exact .pure _
  | n :: rest, h, out => by
      rw [walkAll, List.forall_mem_append] at h
      rw [visitAll]
      exact (visit_timeless n h.1 out).bind fun found => visitAll_timeless rest h.2 found

end

/-- Compiled at another time, a render node without animations does the same to a context
that differs in its time only. -/
theorem compile_atTime (h : ∀ m ∈ walk n, m.options.isAnimated = false) (c : Context)
    (time : Float32) :
    n.compile (c.atTime time) = ((n.compile c).1, (n.compile c).2.atTime time) := by
  unfold compile
  rw [visit_timeless n h (some []) c time]
  rfl

end Node

/-! ### Graphs that stand still -/

/-- The time of a walk is in its scene and nowhere else. Nothing that was recorded during a
walk has the time in it. -/
theorem Context.finish_atTime (c : Context) (time : Float32) (render : Node)
    (materials : List Material.Program) (environment : Option Material.Program)
    (statements : List Shader.Stmt) :
    (c.atTime time).finish render materials environment statements =
      (c.finish render materials environment statements).map fun s => { s with time := time } := by
  unfold finish atTime
  dsimp only
  split
  · rfl
  · split
    · rfl
    · split
      · rfl
      · split <;> rfl

namespace SceneGraph

variable {g : SceneGraph}

/-- Without animations in the graph there are none below its render node. -/
theorem still_of_findRender (h : g.isAnimated = false) {render : Node}
    (hRender : g.findRender = .ok render) :
    ∀ m ∈ render.walk, m.options.isAnimated = false := by
  intro m hMember
  have hRenders : render ∈ g.renders := by
    rw [findRender_eq_ok_iff.mp hRender]
    exact List.mem_singleton_self render
  have hWalk : m ∈ g.walk := Node.mem_walkAll (List.mem_of_mem_filter hRenders) hMember
  exact Bool.not_eq_true _ ▸ List.any_eq_false.mp h m hWalk

/-- Compiling a graph without animations has to do with the time only in what the
scene notes of it. -/
theorem compileAt_eq_map_of_still (h : g.isAnimated = false) (s t : Float32) :
    g.compileAt t = (g.compileAt s).map fun scene => { scene with time := t } := by
  cases hRender : g.findRender with
  | error e => simp only [compileAt, hRender, Except.map]
  | ok render =>
      cases hDefinitions : g.definitions with
      | error e => simp only [compileAt, hRender, hDefinitions, Except.map]
      | ok definitions =>
          cases hEnvironment : g.findEnvironment with
          | error e => simp only [compileAt, hRender, hDefinitions, hEnvironment, Except.map]
          | ok environmentNode =>
              obtain ⟨programs, environment, errors, hCompile⟩ :=
                compileAt_eq hRender hDefinitions hEnvironment
              let begun (time : Float32) : Context :=
                { (Context.start time).registerAll definitions with errors := errors }
              have hBegun : ∀ time, g.compileAt time = (render.compile (begun time)).2.finish
                  render programs environment (render.compile (begun time)).1 := hCompile
              have hStart : begun t = (begun s).atTime t := by
                simp only [begun, Context.registerAll_eq]
                rfl
              rw [hBegun t, hBegun s, hStart,
                Node.compile_atTime (still_of_findRender h hRender)]
              exact Context.finish_atTime _ t render programs environment _

/-- A graph without animations has one scene for all times, but for the time that the scene
notes, or it has one error. Refreshing the scene of one time gives that of any other. An
option with keys is animated in this sense even if all of them have one value. -/
theorem compileAt_of_still (h : g.isAnimated = false) (s t : Float32) :
    g.compileAt t = (g.compileAt s).map (fun scene => { scene with time := t }) ∧
      ∀ scene, g.compileAt s = .ok scene →
        scene.refresh g t = .ok { scene with time := t } ∧
          g.compileAt t = .ok { scene with time := t } := by
  have hOther := compileAt_eq_map_of_still h s t
  refine ⟨hOther, fun scene hScene => ?_⟩
  rw [hScene] at hOther
  exact ⟨(Scene.refresh_of_compileAt hScene t).trans hOther, hOther⟩

/-- A sphere before a camera, at two times. -/
theorem compileAt_of_still_sphere :
    let g : SceneGraph := ⟨[.new .render .empty 1 [.new (.camera .perspective) .empty 2 [],
      .new (.object .analytical) .empty 3 [.new (.primitive .sphere) .empty 4 []]]]⟩
    g.isAnimated = false ∧ ∃ scene, g.compileAt 0.0 = .ok scene ∧
      scene.refresh g 2.0 = .ok { scene with time := 2.0 } ∧
      g.compileAt 2.0 = .ok { scene with time := 2.0 } := by
  intro g
  have hStill : g.isAnimated = false := by decide
  obtain ⟨scene, hScene⟩ := (compileAt_ok_iff (g := g) rfl rfl rfl 0.0).mpr ⟨rfl, rfl, rfl, _, rfl⟩
  exact ⟨hStill, scene, hScene, (compileAt_of_still hStill 0.0 2.0).2 scene hScene⟩

end SceneGraph

end PathTracer
