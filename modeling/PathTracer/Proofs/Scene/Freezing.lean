import Mathlib.Data.List.Forall2
import PathTracer.Proofs.Scene.Acceptance
import PathTracer.Scene.Builder

/-! Scenes that stand still: animations replaced by expressions with the values
that they have at a time. A walk reads all of its options at the time of its
context, so that compiling a frozen graph at time zero gives what compiling the
animated one gives at the time. The options of the render node are read at time
zero in both. -/
namespace PathTracer

/-! ### Frozen options -/

/-- What an option becomes when animations stand still at a time. An animation
that has a value then becomes an expression of that value. Options that hold
names, and animations without a value, stay as they are. -/
inductive OptionValue.Frozen (time : Float32) (key : String) : OptionValue → OptionValue → Prop where
  | fixed {v : OptionValue} (h : ∀ keys, v = .animated keys →
      key ∈ Call.nameOptions ∨ ∀ x, Options.animatedValue key time keys ≠ .ok x) : Frozen time key v v
  | still {keys : List Keyframe} {source : String} {x : Value} (hKey : key ∉ Call.nameOptions)
      (hAnimated : Options.animatedValue key time keys = .ok x)
      (hSource : Options.evalSource key source = .ok x) : Frozen time key (.animated keys) (.source source)

namespace Options

/-- Options of the same names, each frozen at a time. -/
def Frozen (time : Float32) (o o' : Options) : Prop :=
  List.Forall₂ (fun e e' => e'.1 = e.1 ∧ OptionValue.Frozen time e.1 e.2 e'.2) o.entries o'.entries

/-- A value does not depend on the name of its option. Only faults quote it. -/
theorem evalSource_eq_ok {source : String} {x : Value} (name other : String)
    (h : evalSource name source = .ok x) : evalSource other source = .ok x := by
  unfold evalSource at h ⊢
  split at h
  · cases h
  · split at h
    · cases h
    · exact h

/-- The name of an option is only in its errors: what is read between two keys of one option
is read between the same keys of another. -/
theorem valueBetween_eq_ok {time : Float32} {a b : Keyframe} {x : Value} (name other : String)
    (h : valueBetween name time a b = .ok x) : valueBetween other time a b = .ok x := by
  unfold valueBetween at h ⊢
  split at h
  · cases h
  · rename_i va hFirst
    split at h
    · cases h
    · rename_i vb hSecond
      rw [evalSource_eq_ok name other hFirst, evalSource_eq_ok name other hSecond]
      dsimp only
      split at h
      · cases h
      · rename_i hTypes
        rw [if_neg hTypes]
        exact h

/-- The value of keys does not depend on the option they are written in, as long as there is
one. -/
theorem animatedValue_eq_ok {time : Float32} {keys : List Keyframe} {x : Value}
    (name other : String) (h : animatedValue name time keys = .ok x) :
    animatedValue other time keys = .ok x := by
  unfold animatedValue at h ⊢
  dsimp only at h ⊢
  split at h
  · split at h
    · rename_i hEarly
      rw [if_pos hEarly]
      exact evalSource_eq_ok name other h
    · rename_i hEarly
      rw [if_neg hEarly]
      split at h
      · rename_i hLate
        rw [if_pos hLate]
        exact evalSource_eq_ok name other h
      · rename_i hLate
        rw [if_neg hLate]
        split at h
        · exact valueBetween_eq_ok name other h
        · exact evalSource_eq_ok name other h
  · cases h

namespace Frozen

variable {time : Float32} {o o' : Options}

/-- An option is absent from both, or in both and frozen. -/
theorem get? (h : o.Frozen time o') (name : String) :
    (o.get? name = none ∧ o'.get? name = none) ∨ ∃ v v', o.get? name = some v ∧
      o'.get? name = some v' ∧ OptionValue.Frozen time (Text.lower name) v v' := by
  obtain ⟨entries⟩ := o
  obtain ⟨entries'⟩ := o'
  unfold Options.get?
  change List.Forall₂ _ entries entries' at h
  induction h with
  | nil => exact .inl ⟨rfl, rfl⟩
  | @cons e e' rest rest' hEntry _ ih =>
      obtain ⟨key, v⟩ := e
      obtain ⟨key', v'⟩ := e'
      obtain ⟨rfl, hValue⟩ := hEntry
      by_cases hKey : Text.lower name = key'
      · subst hKey
        exact .inr ⟨v, v', by simp, by simp, hValue⟩
      · simpa only [List.lookup_cons, beq_false_of_ne hKey] using ih

/-- Freezing an option leaves it set, and no other one appears. -/
theorem contains (h : o.Frozen time o') (name : String) : o'.contains name = o.contains name := by
  unfold Options.contains
  obtain ⟨hNone, hNone'⟩ | ⟨v, v', hSome, hSome', _⟩ := h.get? name
  · rw [hNone, hNone']
  · rw [hSome, hSome']
    rfl

/-- Names stay as they are. -/
theorem text? (h : o.Frozen time o') {name : String} (hName : Text.lower name ∈ Call.nameOptions) :
    o'.text? name = o.text? name := by
  unfold Options.text?
  obtain ⟨hNone, hNone'⟩ | ⟨v, v', hSome, hSome', hValue⟩ := h.get? name
  · rw [hNone, hNone']
  · rw [hSome, hSome']
    cases hValue with
    | fixed _ => rfl
    | still hKey _ _ => exact absurd hName hKey

/-- A value at the time is the value of the frozen option at any time. -/
theorem value_eq_ok (h : o.Frozen time o') {name : String}
    (hName : Text.lower name ∉ Call.nameOptions) {x : Option Value}
    (hValue : o.value name time = .ok x) (other : Float32) : o'.value name other = .ok x := by
  unfold value at hValue ⊢
  obtain ⟨hNone, hNone'⟩ | ⟨v, v', hSome, hSome', hFrozen⟩ := h.get? name
  · rw [hNone] at hValue
    rw [hNone']
    exact hValue
  · rw [hSome] at hValue
    rw [hSome']
    cases hFrozen with
    | fixed hFixed =>
        cases v with
        | text s => exact hValue
        | source s => exact hValue
        | animated keys =>
            obtain hKey | hWithout := hFixed keys rfl
            · exact absurd hKey hName
            · cases hAnimated : animatedValue name time keys with
              | error d => simp [hAnimated, Except.map] at hValue
              | ok y => exact absurd (animatedValue_eq_ok name _ hAnimated) (hWithout y)
    | still _ hAnimated hSource =>
        have hSame := animatedValue_eq_ok _ name hAnimated
        simp only [hSame] at hValue
        simp only [evalSource_eq_ok _ name hSource]
        exact hValue

/-- An option without a value at the time is not changed. -/
theorem get?_of_error (h : o.Frozen time o') {name : String} {d : Defect}
    (hValue : o.value name time = .error d) : o'.get? name = o.get? name := by
  obtain ⟨hNone, hNone'⟩ | ⟨v, v', hSome, hSome', hFrozen⟩ := h.get? name
  · rw [hNone, hNone']
  · rw [hSome, hSome']
    cases hFrozen with
    | fixed _ => rfl
    | still _ hAnimated _ =>
        simp [value, hSome, animatedValue_eq_ok _ name hAnimated, Except.map] at hValue

/-- An option that could be read at the frozen time reads the same at every time after
freezing. Names are left out, since they keep their text. -/
theorem typed_eq_ok (h : o.Frozen time o') {name : String}
    (hName : Text.lower name ∉ Call.nameOptions) {want : ValueType} {x : Option Value}
    (hTyped : o.typed name want time = .ok x) (other : Float32) :
    o'.typed name want other = .ok x := by
  unfold typed at hTyped ⊢
  cases hValue : o.value name time with
  | error d =>
      rw [hValue] at hTyped
      cases hTyped
  | ok v =>
      rw [hValue] at hTyped
      rw [h.value_eq_ok hName hValue other]
      exact hTyped

/-- Numbers that could be read at the frozen time are read at every time after freezing,
defaults included. -/
theorem float1_eq_ok (h : o.Frozen time o') {name : String}
    (hName : Text.lower name ∉ Call.nameOptions) {default x : Float32}
    (hRead : o.float1 name default time = .ok x) (other : Float32) :
    o'.float1 name default other = .ok x := by
  unfold float1 at hRead ⊢
  cases hTyped : o.typed name .float1 time with
  | error d =>
      rw [hTyped] at hRead
      cases hRead
  | ok v =>
      rw [hTyped] at hRead
      rw [h.typed_eq_ok hName hTyped other]
      exact hRead

/-- Vectors that could be read at the frozen time are read at every time after freezing,
defaults included. -/
theorem float3_eq_ok (h : o.Frozen time o') {name : String}
    (hName : Text.lower name ∉ Call.nameOptions) {default x : Vec3 Float32}
    (hRead : o.float3 name default time = .ok x) (other : Float32) :
    o'.float3 name default other = .ok x := by
  unfold float3 at hRead ⊢
  cases hTyped : o.typed name .float3 time with
  | error d =>
      rw [hTyped] at hRead
      cases hRead
  | ok v =>
      rw [hTyped] at hRead
      rw [h.typed_eq_ok hName hTyped other]
      exact hRead

end Frozen

end Options

/-! ### Frozen nodes -/

namespace Node

/-- Two nodes that differ in their leaves and in animations that stand still. -/
structure Pinned (time : Float32) (n n' : Node) : Prop where
  kind : n'.kind = n.kind
  givenName : n'.givenName = n.givenName
  line : n'.line = n.line
  options : n.options.Frozen time n'.options

mutual

/-- The same tree with all its options frozen at a time. -/
inductive Frozen (time : Float32) : Node → Node → Prop where
  | node {kind : NodeKind} {options options' : Options} {name : String} {line : Nat}
      {leaves leaves' : List Node} (hOptions : options.Frozen time options') (hLeaves : AllFrozen time leaves leaves') :
      Frozen time ⟨kind, options, name, line, leaves⟩ ⟨kind, options', name, line, leaves'⟩

inductive AllFrozen (time : Float32) : List Node → List Node → Prop where
  | nil : AllFrozen time [] []
  | cons {n n' : Node} {rest rest' : List Node} (hFirst : Frozen time n n')
      (hRest : AllFrozen time rest rest') : AllFrozen time (n :: rest) (n' :: rest')

end

/-- The options of a frozen node are pinned to the time, as are those of its children. -/
theorem Frozen.pinned {time : Float32} {n n' : Node} (h : n.Frozen time n') : n.Pinned time n' := by
  cases h with
  | node hOptions _ => exact ⟨rfl, rfl, rfl, hOptions⟩

/-- A name is never animated, so that freezing does not change it. -/
theorem Pinned.explicitName? {time : Float32} {n n' : Node} (h : n.Pinned time n') :
    n'.explicitName? = n.explicitName? :=
  h.options.text? (by decide)

end Node

/-! ### Steps at two times -/

namespace Context

/-- A context at another time. -/
def atTime (c : Context) (time : Float32) : Context :=
  { c with time := time }

/-- What two contexts have recorded is the same where only their times differ. -/
theorem checkIn_atTime (c : Context) (inner : Placement Float32) (time : Float32) :
    (c.atTime time).checkIn inner = (c.checkIn inner).atTime time := by
  simp only [atTime, checkIn, pushObject, pushSlot, nextSlot]

/-- Looking up a material neither reads the time nor moves it. -/
theorem resolve_atTime (c : Context) (time : Float32) (name : String) (line : Nat) :
    (c.atTime time).resolve name line =
      ((c.resolve name line).1, (c.resolve name line).2.atTime time) := by
  unfold resolve materialIndex? atTime
  dsimp only
  split
  · rfl
  · rfl

end Context

open Context (Extends)

/-- A step at time zero follows one at another time: wherever the second reports
nothing, the first gives the same and records the same. -/
structure Follows {α : Type} (time : Float32) (m m' : StateM Context α) : Prop where
  extends_ : Moves Extends m
  same : ∀ c : Context, c.time = time → (m.run c).2.errors = [] →
    m'.run (c.atTime 0.0) = ((m.run c).1, (m.run c).2.atTime 0.0)

namespace Follows

variable {α β : Type} {time : Float32}

/-- Followers compose: what the first parts find alike the second parts may depend on. -/
theorem bind {m m' : StateM Context α} {f f' : α → StateM Context β} (h : Follows time m m')
    (hNext : ∀ x, Follows time (f x) (f' x)) : Follows time (m >>= f) (m' >>= f') where
  extends_ := h.extends_.bind fun x => (hNext x).extends_
  same := by
    intro c hTime hErrors
    have hFirst := h.extends_ c
    have hSecond := (hNext (m.run c).1).extends_ (m.run c).2
    -- Errors are only added, so that the first step has reported none either.
    have hNone : (m.run c).2.errors = [] := by
      have hPrefix := hSecond.errors
      rw [show ((f (m.run c).1).run (m.run c).2).2.errors = [] from hErrors] at hPrefix
      exact List.prefix_nil.mp hPrefix
    have hStep := h.same c hTime hNone
    change (f' (m'.run (c.atTime 0.0)).1).run (m'.run (c.atTime 0.0)).2 = _
    rw [hStep]
    exact (hNext _).same _ (hFirst.time.trans hTime) hErrors

/-- A step that does not look at the time follows itself. -/
theorem of_timeless {m : StateM Context α} (hExtends : Moves Extends m)
    (h : ∀ c : Context, m.run (c.atTime 0.0) = ((m.run c).1, (m.run c).2.atTime 0.0)) :
    Follows time m m :=
  ⟨hExtends, fun c _ _ => h c⟩

/-- Returning a value follows itself at any time. -/
theorem pure (x : α) : Follows time (Pure.pure x : StateM Context α) (Pure.pure x) :=
  of_timeless (Moves.pure x) fun _ => rfl

/-- What follows a look at the context may use all of it but the time. -/
theorem get_bind {f f' : Context → StateM Context β}
    (h : ∀ c, Follows time (f c) (f' (c.atTime 0.0))) :
    Follows time (MonadState.get >>= f) (MonadState.get >>= f') where
  extends_ := Moves.get.bind fun c => (h c).extends_
  same := fun c => (h c).same c

end Follows

namespace Node

variable {time : Float32} {n n' : Node}

/-- Reading a number of a node at its time is followed by reading it of the pinned node at
any time. -/
theorem readFloat1_follows (h : n.Pinned time n') {name : String}
    (hName : Text.lower name ∉ Call.nameOptions) (default : Float32) :
    Follows time (n.readFloat1 name default) (n'.readFloat1 name default) where
  extends_ := n.moves_readFloat1 name default
  same := by
    intro c hTime hErrors
    change n'.readFloat1 name default (c.atTime 0.0) =
      ((n.readFloat1 name default c).1, (n.readFloat1 name default c).2.atTime 0.0)
    change (n.readFloat1 name default c).2.errors = [] at hErrors
    unfold readFloat1 at hErrors ⊢
    cases hRead : n.options.float1 name default c.time with
    | error d =>
        rw [hRead] at hErrors
        simp [Context.report] at hErrors
    | ok x =>
        rw [hTime] at hRead
        rw [h.options.float1_eq_ok hName hRead]

/-- Reading a vector of a node at its time is followed by reading it of the pinned node at
any time. -/
theorem readFloat3_follows (h : n.Pinned time n') {name : String}
    (hName : Text.lower name ∉ Call.nameOptions) (default : Vec3 Float32) :
    Follows time (n.readFloat3 name default) (n'.readFloat3 name default) where
  extends_ := n.moves_readFloat3 name default
  same := by
    intro c hTime hErrors
    change n'.readFloat3 name default (c.atTime 0.0) =
      ((n.readFloat3 name default c).1, (n.readFloat3 name default c).2.atTime 0.0)
    change (n.readFloat3 name default c).2.errors = [] at hErrors
    unfold readFloat3 at hErrors ⊢
    cases hRead : n.options.float3 name default c.time with
    | error d =>
        rw [hRead] at hErrors
        simp [Context.report] at hErrors
    | ok x =>
        rw [hTime] at hRead
        rw [h.options.float3_eq_ok hName hRead]

/-- The two corners of bounds are read alike, and checked alike. -/
theorem readBounds_follows (h : n.Pinned time n') : Follows time n.readBounds n'.readBounds where
  extends_ := n.moves_readBounds
  same := by
    intro c hTime hErrors
    change n'.readBounds (c.atTime 0.0) = ((n.readBounds c).1, (n.readBounds c).2.atTime 0.0)
    change (n.readBounds c).2.errors = [] at hErrors
    unfold readBounds at hErrors ⊢
    cases hRead : n.options.float3 "MaxBox" .zero c.time with
    | error d =>
        rw [hRead] at hErrors
        simp [Context.report] at hErrors
    | ok x =>
        rw [hTime] at hRead
        rw [h.options.float3_eq_ok (by decide) hRead, h.options.contains]

/-- Position, rotation and scale of an object are read alike. -/
theorem readPlacement_follows (h : n.Pinned time n') :
    Follows time n.readPlacement n'.readPlacement :=
  (readFloat3_follows h (by decide) _).bind fun _ => (readFloat3_follows h (by decide) _).bind
    fun _ => (readFloat1_follows h (by decide) _).bind fun _ => .pure _

/-- A slot of the data is taken without regard to the time. -/
theorem allocate_follows (v : Vec4 Float32) : Follows time (allocate v) (allocate v) :=
  .of_timeless (moves_allocate v) fun _ => rfl

/-- A record that is added to those of the scene is added to those of the frozen one. -/
theorem addEntities_follows {f : Entities → Entities} (h : ∀ e : Entities, e.Extends (f e)) :
    Follows time (addEntities f) (addEntities f) :=
  .of_timeless (fun c => .ofEntities c (h c.entities)) fun _ => rfl

/-- A defect is reported on the line of the node, which freezing keeps. -/
theorem report_follows (h : n.Pinned time n') (defect : Defect) :
    Follows time (n.report defect) (n'.report defect) := by
  rw [report, report, h.line]
  exact .of_timeless (n.moves_report defect) fun _ => rfl

/-- The material of a name is made the one in use, or the same fault is reported. -/
theorem activate_follows (h : n.Pinned time n') (name : String) :
    Follows time (n.activate name) (n'.activate name) := by
  have hSame : n'.activate name = n.activate name := by
    unfold activate
    rw [h.line]
  rw [hSame]
  refine .of_timeless (n.moves_activate name) fun c => ?_
  change n.activate name (c.atTime 0.0) = ((n.activate name c).1, (n.activate name c).2.atTime 0.0)
  unfold activate
  rw [c.resolve_atTime]
  generalize c.resolve name n.line = found
  obtain ⟨index, d⟩ := found
  cases index <;> rfl

/-- The material option of a node has the same effect, since it is not frozen. -/
theorem activateOption_follows (h : n.Pinned time n') :
    Follows time n.activateOption n'.activateOption := by
  unfold activateOption
  rw [h.options.text? (by decide)]
  split
  · exact activate_follows h _
  · exact .pure _

/-- Visiting a definition of a material activates it alike. -/
theorem visitMaterial_follows (h : n.Pinned time n') :
    Follows time n.visitMaterial n'.visitMaterial := by
  unfold visitMaterial
  rw [h.explicitName?]
  split
  · exact activate_follows h _
  · exact .pure _

/-- A raymarched object is recorded alike. -/
theorem addMarched_follows (h : n.Pinned time n') : Follows time n.addMarched n'.addMarched := by
  unfold addMarched
  refine (readFloat1_follows h (by decide) _).bind fun steps => ?_
  refine (readFloat1_follows h (by decide) _).bind fun stepSize => ?_
  refine (readBounds_follows h).bind fun bounds => .get_bind fun c => ?_
  rw [h.givenName]
  exact addEntities_follows fun e =>
    ⟨List.prefix_append _ _, List.prefix_refl _, List.prefix_refl _, id⟩

/-- The direction of a sun is read, and normalized, alike. -/
theorem readDirection_follows (h : n.Pinned time n') :
    Follows time n.readDirection n'.readDirection := by
  have hOption : n'.directionOption = n.directionOption := by
    unfold directionOption
    rw [h.options.contains]
  have hName : Text.lower n.directionOption ∉ Call.nameOptions := by
    unfold directionOption
    split
    · decide
    · decide
  unfold readDirection
  rw [hOption]
  refine (readFloat3_follows h hName _).bind fun given => ?_
  split
  · exact .pure _
  · exact (report_follows h _).bind fun _ => .pure _

/-- A sun is recorded alike, with its direction at the frozen time. -/
theorem visitSun_follows (h : n.Pinned time n') : Follows time n.visitSun n'.visitSun :=
  (readDirection_follows h).bind fun _ => (readFloat3_follows h (by decide) _).bind fun _ =>
    (allocate_follows _).bind fun _ => addEntities_follows fun e => .light e _

/-- The material of a light is found by its name, which freezing keeps. -/
theorem lightMaterial_follows (h : n.Pinned time n') :
    Follows time n.lightMaterial n'.lightMaterial := by
  unfold lightMaterial
  rw [h.options.text? (by decide), h.line]
  split
  · exact .of_timeless (fun c => c.moves_resolve _ n.line) fun c => c.resolve_atTime _ _ _
  · exact (report_follows h _).bind fun _ => .pure _

/-- A sphere light is recorded alike, in the slots it has taken. -/
theorem visitSphereLight_follows (h : n.Pinned time n') (out : Output) :
    Follows time (n.visitSphereLight out) (n'.visitSphereLight out) := by
  unfold visitSphereLight
  refine (readFloat3_follows h (by decide) _).bind fun position => ?_
  refine (readFloat1_follows h (by decide) _).bind fun radius => ?_
  refine (lightMaterial_follows h).bind fun found => ?_
  cases found with
  | none => exact .pure _
  | some index =>
      refine .get_bind fun c => (allocate_follows _).bind fun data => ?_
      exact (addEntities_follows fun e => .light e _).bind fun _ => .pure _

/-- A camera is recorded alike, or the same defect is reported. -/
theorem visitCamera_follows (h : n.Pinned time n') (kind : CameraKind) :
    Follows time (n.visitCamera kind) (n'.visitCamera kind) := by
  unfold visitCamera
  refine (readFloat3_follows h (by decide) _).bind fun origin => ?_
  refine (readFloat3_follows h (by decide) _).bind fun lookAt => ?_
  refine (readFloat1_follows h (by decide) _).bind fun fieldOfView => ?_
  exact addEntities_follows fun e =>
    ⟨List.prefix_refl _, List.prefix_refl _, List.prefix_refl _, fun _ => rfl⟩

/-- The slots of a primitive are filled alike. -/
theorem allocatePrimitive_follows (h : n.Pinned time n') (kind : PrimitiveKind) :
    Follows time (n.allocatePrimitive kind) (n'.allocatePrimitive kind) := by
  cases kind with
  | sphere =>
      exact (readFloat3_follows h (by decide) _).bind fun _ =>
        (readFloat1_follows h (by decide) _).bind fun _ => allocate_follows _
  | box =>
      exact (readFloat3_follows h (by decide) _).bind fun _ =>
        (readFloat3_follows h (by decide) _).bind fun _ => (allocate_follows _).bind fun _ =>
          (allocate_follows _).bind fun _ => .pure _
  | plane =>
      exact (readFloat3_follows h (by decide) _).bind fun _ =>
        (readFloat1_follows h (by decide) _).bind fun _ => allocate_follows _

/-- A primitive is recorded alike and writes the same statement. -/
theorem visitPrimitive_follows (h : n.Pinned time n') (kind : PrimitiveKind) (out : Output) :
    Follows time (n.visitPrimitive kind out) (n'.visitPrimitive kind out) := by
  unfold visitPrimitive
  refine .get_bind fun c => (allocatePrimitive_follows h kind).bind fun data => ?_
  refine (addEntities_follows fun e => ?_).bind fun _ => .pure _
  exact ⟨List.prefix_refl _, List.prefix_append _ _, List.prefix_refl _, id⟩

/-- An object is entered alike: the frame it leaves for its children is the one at the
frozen time. -/
theorem enterObject_follows (h : n.Pinned time n') (kind : ObjectKind) :
    Follows time (n.enterObject kind) (n'.enterObject kind) := by
  unfold enterObject
  refine (readPlacement_follows h).bind fun placement => .get_bind fun c => ?_
  have hCheckIn : Follows time (modify fun c => c.checkIn placement : StateM Context PUnit)
      (modify fun c => c.checkIn placement) :=
    .of_timeless (fun c => Entering.checkIn c placement) fun c =>
      congrArg (Prod.mk _) (c.checkIn_atTime placement 0.0)
  refine hCheckIn.bind fun _ => ?_
  refine (activateOption_follows h).bind fun _ => ?_
  split
  · exact (addMarched_follows h).bind fun _ => .pure _
  · exact .pure _

/-- The comment before an object is made of names and bounds being there, and neither is
frozen. -/
theorem objectComment_eq (h : n.Pinned time n') : n'.objectComment = n.objectComment := by
  rw [objectComment, objectComment, h.kind, h.givenName]

mutual

/-- A walk through a frozen tree at time zero follows the walk through the animated
tree at the time. -/
theorem visit_follows : (n n' : Node) → n.Frozen time n' → (out : Output) →
    Follows time (n.visit out) (n'.visit out)
  | ⟨.object kind, _, _, _, _⟩, _, h, out => by
      have hPinned := h.pinned
      obtain ⟨_, hLeaves⟩ := h
      rw [visit, visit]
      refine (enterObject_follows hPinned kind).bind fun saved => ?_
      rw [objectComment_eq hPinned]
      refine (visitAll_follows _ _ hLeaves _).bind fun found => ?_
      exact Follows.bind (.of_timeless (moves_checkOut saved) fun _ => rfl) fun _ => .pure _
  | ⟨.material .surface body, _, _, _, _⟩, _, h, out => by
      have hPinned := h.pinned
      obtain ⟨_, _⟩ := h
      rw [visit, visit]
      exact (visitMaterial_follows hPinned).bind fun _ => .pure _
  | ⟨.material .environment _, _, _, _, _⟩, _, h, out => by
      obtain ⟨_, _⟩ := h
      rw [visit, visit]
      exact .pure _
  | ⟨.render, _, _, _, _⟩, _, h, out => by
      obtain ⟨_, hLeaves⟩ := h
      rw [visit, visit]
      exact visitAll_follows _ _ hLeaves out
  | ⟨.light .sun, _, _, _, _⟩, _, h, out => by
      have hPinned := h.pinned
      obtain ⟨_, _⟩ := h
      rw [visit, visit]
      exact (visitSun_follows hPinned).bind fun _ => .pure _
  | ⟨.light .sphere, _, _, _, _⟩, _, h, out => by
      have hPinned := h.pinned
      obtain ⟨_, _⟩ := h
      rw [visit, visit]
      exact visitSphereLight_follows hPinned out
  | ⟨.camera kind, _, _, _, _⟩, _, h, out => by
      have hPinned := h.pinned
      obtain ⟨_, _⟩ := h
      rw [visit, visit]
      exact (visitCamera_follows hPinned kind).bind fun _ => .pure _
  | ⟨.primitive kind, _, _, _, _⟩, _, h, out => by
      have hPinned := h.pinned
      obtain ⟨_, _⟩ := h
      rw [visit, visit]
      exact visitPrimitive_follows hPinned kind out

/-- Siblings are followed one by one, each from where the one before it has led. -/
theorem visitAll_follows : (nodes nodes' : List Node) → AllFrozen time nodes nodes' →
    (out : Output) → Follows time (visitAll nodes out) (visitAll nodes' out)
  | [], _, h, out => by
      cases h
      rw [visitAll]
      exact .pure _
  | n :: rest, _, h, out => by
      obtain _ | ⟨hFirst, hRest⟩ := h
      rw [visitAll, visitAll]
      exact (visit_follows n _ hFirst out).bind fun found => visitAll_follows rest _ hRest found

end

end Node

/-! ### Frozen graphs -/

namespace Node

variable {time : Float32}

/-- Frozen siblings correspond one to one. -/
theorem AllFrozen.forall₂ : {nodes nodes' : List Node} → AllFrozen time nodes nodes' →
    List.Forall₂ (Frozen time) nodes nodes'
  | [], _, h => by
      cases h
      exact .nil
  | _ :: _, _, h => by
      obtain _ | ⟨hFirst, hRest⟩ := h
      exact .cons hFirst hRest.forall₂

mutual

/-- The walk of a frozen node is the walk of the node, frozen place by place. The induction
is on the node, with its children. -/
theorem Frozen.walk : (n n' : Node) → n.Frozen time n' →
    List.Forall₂ (Pinned time) (walk n) (walk n')
  | ⟨_, _, _, _, _⟩, _, h => by
      have hPinned := h.pinned
      obtain ⟨_, hLeaves⟩ := h
      rw [Node.walk, Node.walk]
      exact .cons hPinned (AllFrozen.walkAll _ _ hLeaves)

/-- The walks of frozen siblings correspond place by place. -/
theorem AllFrozen.walkAll : (nodes nodes' : List Node) → AllFrozen time nodes nodes' →
    List.Forall₂ (Pinned time) (walkAll nodes) (walkAll nodes')
  | [], _, h => by
      cases h
      rw [Node.walkAll]
      exact .nil
  | n :: rest, _, h => by
      obtain _ | ⟨hFirst, hRest⟩ := h
      rw [Node.walkAll, Node.walkAll]
      exact List.rel_append (Frozen.walk n _ hFirst) (AllFrozen.walkAll rest _ hRest)

end

/-- Statements of materials have no options, so that freezing does not touch them. -/
theorem Pinned.surfaceBody? {n n' : Node} (h : n.Pinned time n') :
    n'.surfaceBody? = n.surfaceBody? := by
  rw [Node.surfaceBody?, Node.surfaceBody?, h.kind]

/-- The nodes that define materials are the same ones, in the same order. -/
theorem Frozen.definers {n n' : Node} (h : n.Frozen time n') :
    List.Forall₂ (Pinned time) n.definers n'.definers := by
  have hBody := h.pinned.surfaceBody?
  have hPinned := h.pinned
  obtain ⟨_, hLeaves⟩ := h
  unfold Node.definers
  refine List.rel_append ?_ ?_
  · rw [hBody]
    split
    · exact .cons hPinned .nil
    · exact .nil
  · refine forall₂_filter (fun a b hNode => ?_) (AllFrozen.walkAll _ _ hLeaves)
    rw [hasSurfaceBody, hasSurfaceBody, hNode.surfaceBody?]

end Node

namespace SceneGraph

variable {time : Float32} {g g' : SceneGraph}

/-- The same graph with all its options frozen at a time. -/
def Frozen (time : Float32) (g g' : SceneGraph) : Prop :=
  Node.AllFrozen time g.nodes g'.nodes

/-- The definitions of materials depend on names and statements only, which freezing keeps.
-/
theorem definitionsAfter_eq {nodes nodes' : List Node}
    (h : List.Forall₂ (Node.Pinned time) nodes nodes') (taken : List String) :
    definitionsAfter taken nodes' = definitionsAfter taken nodes := by
  induction h generalizing taken with
  | nil => rfl
  | cons hFirst _ ih =>
      unfold definitionsAfter
      rw [hFirst.explicitName?, hFirst.givenName, hFirst.line, hFirst.surfaceBody?]
      simp only [ih]

/-- A frozen graph defines the same materials. -/
theorem Frozen.definitions (h : g.Frozen time g') : g'.definitions = g.definitions := by
  have hDefiners : List.Forall₂ (Node.Pinned time) (g.nodes.flatMap Node.definers)
      (g'.nodes.flatMap Node.definers) :=
    List.rel_flatMap (Node.AllFrozen.forall₂ h) fun _ _ hNode => hNode.definers
  exact definitionsAfter_eq hDefiners []

/-- A frozen graph has its render node where the graph has it. -/
theorem Frozen.findRender (h : g.Frozen time g') {render : Node}
    (hRender : g.findRender = .ok render) :
    ∃ render', g'.findRender = .ok render' ∧ render.Frozen time render' := by
  have hFilter : List.Forall₂ (Node.Frozen time) (g.nodes.filter fun n => n.kind = .render)
      (g'.nodes.filter fun n => n.kind = .render) := by
    refine Node.forall₂_filter (fun n n' hNode => ?_) (Node.AllFrozen.forall₂ h)
    rw [hNode.pinned.kind]
  unfold SceneGraph.findRender at hRender ⊢
  split at hRender
  · cases hRender
  · rename_i found hFound
    cases hRender
    rw [hFound] at hFilter
    obtain ⟨render', _, hNode, hNone, hFound'⟩ := List.forall₂_cons_left_iff.mp hFilter
    cases hNone
    rw [hFound']
    exact ⟨render', rfl, hNode⟩
  · cases hRender

/-- The environments of both graphs have one body and one name. Its statements have no
options and are the same ones. -/
theorem Frozen.findEnvironment (h : g.Frozen time g') {node : Option Node}
    (hNode : g.findEnvironment = .ok node) :
    ∃ node', g'.findEnvironment = .ok node' ∧
      ∀ c : Context, c.buildEnvironment node' = c.buildEnvironment node := by
  have hFilter : List.Forall₂ (Node.Pinned time)
      (g.walk.filter fun n => n.environmentBody?.isSome)
      (g'.walk.filter fun n => n.environmentBody?.isSome) := by
    refine Node.forall₂_filter (fun n n' hPinned => ?_) (Node.AllFrozen.walkAll _ _ h)
    rw [Node.environmentBody?, Node.environmentBody?, hPinned.kind]
  unfold SceneGraph.findEnvironment at hNode ⊢
  split at hNode
  · rename_i hFound
    cases hNode
    rw [hFound] at hFilter
    rw [List.forall₂_nil_left_iff.mp hFilter]
    exact ⟨none, rfl, fun _ => rfl⟩
  · rename_i found hFound
    cases hNode
    rw [hFound] at hFilter
    obtain ⟨found', _, hPinned, hNone, hFound'⟩ := List.forall₂_cons_left_iff.mp hFilter
    cases hNone
    rw [hFound']
    refine ⟨some found', rfl, fun c => ?_⟩
    have hBody : found'.environmentBody? = found.environmentBody? := by
      rw [Node.environmentBody?, Node.environmentBody?, hPinned.kind]
    rw [Context.buildEnvironment, Context.buildEnvironment, hPinned.givenName, hBody]
  · cases hNode

end SceneGraph

/-! ### Render options -/

namespace Options

variable {o o' : Options} {name : String} {time other : Float32}

/-- A number is read alike wherever the value of its option is. -/
theorem float1_congr (h : o'.value name other = o.value name time) (default : Float32) :
    o'.float1 name default other = o.float1 name default time := by
  unfold float1 typed
  rw [h]

/-- A vector is read alike wherever the value of its option is. -/
theorem float3_congr (h : o'.value name other = o.value name time) (default : Vec3 Float32) :
    o'.float3 name default other = o.float3 name default time := by
  unfold float3 typed
  rw [h]

end Options

namespace Node

variable {time : Float32} {n n' : Node}

/-- A count option of a render node as it would be read at another time. -/
def countOptionAt (n : Node) (name : String) (time : Float32) : Except CompileError (Option Nat) :=
  if n.options.contains name then
    match n.options.float1 name 0.0 time with
    | .error d => .error ⟨d, n.line⟩
    | .ok x => .ok (some (Binary32.toNat32 (Scalar.max x 1.0)))
  else .ok none

/-- The color option of a render node as it would be read at another time. -/
def backgroundOptionAt (n : Node) (time : Float32) : Except CompileError (Option (Vec3 Float32)) :=
  if n.options.contains "Background" then
    match n.options.float3 "Background" .zero time with
    | .error d => .error ⟨d, n.line⟩
    | .ok v => .ok (some v)
  else .ok none

/-- The options of a render node that have a value at a time read there as they
do at time zero. -/
structure Steady (time : Float32) (n : Node) : Prop where
  background : ∀ x, n.options.value "Background" time = .ok x →
    n.backgroundOptionAt time = n.backgroundOption
  samples : ∀ x, n.options.value "Samples" time = .ok x →
    n.countOptionAt "Samples" time = n.countOption "Samples"
  depth : ∀ x, n.options.value "Depth" time = .ok x →
    n.countOptionAt "Depth" time = n.countOption "Depth"

/-- The value of a frozen option is that at the time, or else that of the option
as it was. -/
theorem Pinned.value_eq (h : n.Pinned time n') {name : String}
    (hName : Text.lower name ∉ Call.nameOptions) (other : Float32) :
    (∃ x, n.options.value name time = .ok x ∧
        n'.options.value name other = n.options.value name time) ∨
      (∃ d, n.options.value name time = .error d) ∧
        n'.options.value name other = n.options.value name other := by
  cases hValue : n.options.value name time with
  | ok x => exact .inl ⟨x, rfl, h.options.value_eq_ok hName hValue other⟩
  | error d =>
      refine .inr ⟨⟨d, rfl⟩, ?_⟩
      unfold Options.value
      rw [h.options.get?_of_error hValue]

/-- A frozen count reads as the count at time zero if and only if the count is
steady. -/
theorem countOption_eq_iff (h : n.Pinned time n') {name : String}
    (hName : Text.lower name ∉ Call.nameOptions) :
    n'.countOption name = n.countOption name ↔ ∀ x, n.options.value name time = .ok x →
      n.countOptionAt name time = n.countOption name := by
  obtain ⟨x, hValue, hSame⟩ | ⟨⟨d, hValue⟩, hSame⟩ := h.value_eq hName 0.0
  · have hRead : n'.countOption name = n.countOptionAt name time := by
      rewrite [countOption, countOptionAt, h.options.contains, Options.float1_congr hSame, h.line]
      rfl
    rw [hRead]
    exact ⟨fun hSteady _ _ => hSteady, fun hSteady => hSteady x hValue⟩
  · have hRead : n'.countOption name = n.countOption name := by
      rw [countOption, countOption, h.options.contains, Options.float1_congr hSame, h.line]
    exact iff_of_true hRead fun x hOther => by rw [hValue] at hOther; cases hOther

/-- The background of the render options is read at time zero. Freezing keeps it exactly if
the option has there the value that it has at the frozen time, where it has one. -/
theorem backgroundOption_eq_iff (h : n.Pinned time n') :
    n'.backgroundOption = n.backgroundOption ↔
      ∀ x, n.options.value "Background" time = .ok x →
        n.backgroundOptionAt time = n.backgroundOption := by
  have hName : Text.lower "Background" ∉ Call.nameOptions := by decide
  obtain ⟨x, hValue, hSame⟩ | ⟨⟨d, hValue⟩, hSame⟩ := h.value_eq hName 0.0
  · have hRead : n'.backgroundOption = n.backgroundOptionAt time := by
      rewrite [backgroundOption, backgroundOptionAt, h.options.contains, Options.float3_congr hSame, h.line]
      rfl
    rw [hRead]
    exact ⟨fun hSteady _ _ => hSteady, fun hSteady => hSteady x hValue⟩
  · have hRead : n'.backgroundOption = n.backgroundOption := by
      rw [backgroundOption, backgroundOption, h.options.contains, Options.float3_congr hSame, h.line]
    exact iff_of_true hRead fun x hOther => by rw [hValue] at hOther; cases hOther

/-- The render options are read one by one, and they are there if all of them are. -/
theorem renderOptions_eq_ok {options : RenderOptions} :
    n.renderOptions = .ok options ↔ n.givenName = options.name ∧
      n.backgroundOption = .ok options.background ∧ n.countOption "Samples" = .ok options.samples ∧
      n.countOption "Depth" = .ok options.depth := by
  obtain ⟨name, samples, depth, background⟩ := options
  unfold renderOptions
  cases n.backgroundOption with
  | error e => simp
  | ok x =>
      cases n.countOption "Samples" with
      | error e => simp
      | ok y =>
          cases n.countOption "Depth" with
          | error e => simp
          | ok z =>
              simp only [Except.ok.injEq, RenderOptions.mk.injEq]
              exact ⟨fun ⟨hName, hSamples, hDepth, hBackground⟩ =>
                  ⟨hName, hBackground, hSamples, hDepth⟩,
                fun ⟨hName, hBackground, hSamples, hDepth⟩ =>
                  ⟨hName, hSamples, hDepth, hBackground⟩⟩

/-- A frozen render node has the options of the animated one if and only if those
are steady. -/
theorem renderOptions_eq_ok_iff_steady (h : n.Pinned time n') {options : RenderOptions}
    (hOptions : n.renderOptions = .ok options) :
    n'.renderOptions = .ok options ↔ n.Steady time := by
  obtain ⟨hName, hBackground, hSamples, hDepth⟩ := renderOptions_eq_ok.mp hOptions
  rw [renderOptions_eq_ok, ← hBackground, ← hSamples, ← hDepth, backgroundOption_eq_iff h,
    countOption_eq_iff h (by decide), countOption_eq_iff h (by decide), h.givenName]
  exact ⟨fun ⟨_, hFirst, hSecond, hThird⟩ => ⟨hFirst, hSecond, hThird⟩,
    fun hSteady => ⟨hName, hSteady.background, hSteady.samples, hSteady.depth⟩⟩

end Node

namespace SceneGraph

/-- A frozen graph compiles at time zero to the scene of the animated one at the
time, but for the render options and their faults. -/
theorem Frozen.compileAt {g g' : SceneGraph} {time : Float32} {s : Scene}
    (hFrozen : g.Frozen time g') (h : g.compileAt time = .ok s) :
    ∃ render render', g.findRender = .ok render ∧ g'.findRender = .ok render' ∧
      render.Frozen time render' ∧ g'.compileAt 0.0 =
        render'.renderOptions.map fun options => { s with render := options, time := 0.0 } := by
  obtain ⟨render, definitions, node, hRender, hDefinitions, hEnvironment⟩ := compileAt_parts h
  obtain ⟨render', hRender', hNode⟩ := hFrozen.findRender hRender
  obtain ⟨node', hEnvironment', hSameNode⟩ := hFrozen.findEnvironment hEnvironment
  obtain ⟨programs, faults, hPrograms⟩ := Context.buildMaterials_eq [] definitions
  obtain ⟨environment, more, hProgram⟩ := Context.buildEnvironment_eq node
  let start : Context :=
    { (Context.start time).registerAll definitions with errors := faults ++ more }
  have hTime : start.time = time := by
    simp only [start, Context.registerAll_eq]
    rfl
  have hCompile : g.compileAt time = (render.compile start).2.finish render programs environment
      (render.compile start).1 := by
    simp only [SceneGraph.compileAt, hRender, hDefinitions, hEnvironment,
      hPrograms (.start time) rfl, hProgram]
    simp only [start, Context.registerAll_eq]
    rfl
  have hCompile' : g'.compileAt 0.0 = (render'.compile (start.atTime 0.0)).2.finish render' programs
      environment (render'.compile (start.atTime 0.0)).1 := by
    simp only [SceneGraph.compileAt, hRender', hFrozen.definitions, hDefinitions, hEnvironment',
      hPrograms (.start 0.0) rfl, hSameNode, hProgram]
    simp only [start, Context.registerAll_eq]
    rfl
  rw [hCompile, Context.finish_eq_ok] at h
  obtain ⟨hErrors, hCamera, options, program, hOptions, hGenerate, rfl⟩ := h
  have hWalk : render'.compile (start.atTime 0.0) =
      ((render.compile start).1, (render.compile start).2.atTime 0.0) := by
    have hRun := (Node.visit_follows render render' hNode (some [])).same start hTime hErrors
    simp only [Node.compile, hRun]
    rfl
  refine ⟨render, render', hRender, hRender', hNode, ?_⟩
  rw [hCompile', hWalk]
  cases hFound : render'.renderOptions with
  | error e =>
      simp [Context.finish, Context.atTime, hErrors, Option.isSome_iff_ne_none.mp hCamera, hFound,
        Except.map]
  | ok found =>
      exact Context.finish_eq_ok.mpr ⟨hErrors, hCamera, found, program, hFound, hGenerate, rfl⟩

/-- The render options of a scene are those of the only render node. -/
theorem renderOptions_of_compileAt {g : SceneGraph} {time : Float32} {s : Scene} {render : Node}
    (h : g.compileAt time = .ok s) (hRender : g.findRender = .ok render) :
    render.renderOptions = .ok s.render := by
  obtain ⟨found, _, _, hFound, hDefinitions, hEnvironment⟩ := compileAt_parts h
  obtain rfl := Except.ok.inj (hRender.symm.trans hFound)
  obtain ⟨programs, environment, errors, hCompile⟩ :=
    compileAt_eq hRender hDefinitions hEnvironment
  rw [hCompile time, Context.finish_eq_ok] at h
  obtain ⟨_, _, options, _, hOptions, _, rfl⟩ := h
  exact hOptions

/-- A graph that compiles at a time, frozen there, compiles at time zero to the same
program, records and data. It fails there only where its render options do, and it has the
same render options if and only if those are steady. Freezing puts the text of its value in
the place of each animated option that has one. Names, and animations without a value, stay
as they are. -/
theorem compileAt_frozen_iff_steady {g g' : SceneGraph} {time : Float32} {s : Scene}
    (h : g.compileAt time = .ok s) (hFrozen : g.Frozen time g') :
    ∃ render render', g.findRender = .ok render ∧ g'.findRender = .ok render' ∧
      g'.compileAt 0.0 =
        render'.renderOptions.map (fun options => { s with render := options, time := 0.0 }) ∧
      (g'.compileAt 0.0 = .ok { s with time := 0.0 } ↔ render.Steady time) := by
  obtain ⟨render, render', hRender, hRender', hNode, hFresh⟩ := hFrozen.compileAt h
  refine ⟨render, render', hRender, hRender', hFresh, ?_⟩
  rw [hFresh, ← Node.renderOptions_eq_ok_iff_steady hNode.pinned
    (renderOptions_of_compileAt h hRender)]
  cases hFound : render'.renderOptions with
  | error e => simp [Except.map]
  | ok found =>
      constructor
      · intro hSame
        exact congrArg (Except.map Scene.render) hSame
      · rintro hSame
        cases hSame
        rfl

end SceneGraph

/-! ### A count of samples that is animated -/

/-- An animation from one number to another holds each of them from its end on. -/
theorem Options.animatedValue_ends (name : String) {a b : Keyframe}
    (hOrder : a.rank ≤ b.rank) (time : Float32) :
    (time ≤ a.time → animatedValue name time [a, b] = evalSource name a.source) ∧
      (¬time ≤ a.time → b.time ≤ time →
        animatedValue name time [a, b] = evalSource name b.source) := by
  have hSorted : Animation.sorted [a, b] = [a, b] :=
    List.mergeSort_of_pairwise (by simpa using hOrder)
  unfold animatedValue
  rw [hSorted]
  simp only [List.head?_cons, List.getLast?_cons_cons, List.getLast?_singleton]
  exact ⟨fun hEarly => if_pos hEarly, fun hEarly hLate => by rw [if_neg hEarly, if_pos hLate]⟩

namespace SceneGraph

/-- A camera below a render node with a count of samples. -/
def ofSamples (samples : OptionValue) : SceneGraph :=
  ⟨[.new .render ⟨[("samples", samples)]⟩ 1 [.new (.camera .perspective) .empty 2 []]]⟩

/-- One sample at first, and five from time two on. -/
def risingSamples : OptionValue :=
  .animated [⟨0.0, "1"⟩, ⟨2.0, "5"⟩]

/-- The text of the frozen samples is one number. -/
theorem tokenize_five : Expression.tokenize "5" = .ok [.number 5.0] := by
  decide +kernel

/-- The rising samples, frozen at time two, are the text of their value there. -/
theorem ofSamples_risingSamples_frozen :
    (ofSamples risingSamples).Frozen 2.0 (ofSamples (.source "5")) := by
  have hValue := (Options.animatedValue_ends "samples" (a := ⟨0.0, "1"⟩) (b := ⟨2.0, "5"⟩)
    (by decide) 2.0).2 (by decide) (by decide)
  rw [Options.evalSource_of_number "samples" tokenize_five] at hValue
  have hStill : OptionValue.Frozen 2.0 "samples" risingSamples (.source "5") :=
    .still (by decide) hValue (Options.evalSource_of_number "samples" tokenize_five)
  exact .cons (.node (.cons ⟨rfl, hStill⟩ .nil) (.cons (.node .nil .nil) .nil)) .nil

/-- The scene has the samples that its render node reads at time zero. It does so at
whatever time it is compiled, which is what freezing cannot follow. -/
theorem compileAt_ofSamples {samples : OptionValue} {x : Float32} (time : Float32)
    (h : (Options.mk [("samples", samples)]).value "Samples" 0.0 = .ok (some (.float1 x))) :
    ∃ s, (ofSamples samples).compileAt time = .ok s ∧
      s.render.samples = some (Binary32.toNat32 (Scalar.max x 1.0)) := by
  let render : Node :=
    .new .render ⟨[("samples", samples)]⟩ 1 [.new (.camera .perspective) .empty 2 []]
  have hRead : render.options.float1 "Samples" 0.0 0.0 = .ok x := by
    unfold Options.float1 Options.typed
    rw [show render.options.value "Samples" 0.0 = _ from h]
    rfl
  have hCount : render.countOption "Samples" = .ok (some (Binary32.toNat32 (Scalar.max x 1.0))) := by
    unfold Node.countOption
    rw [hRead]
    rfl
  have hOptions : render.renderOptions =
      .ok ⟨"Render", some (Binary32.toNat32 (Scalar.max x 1.0)), none, none⟩ :=
    Node.renderOptions_eq_ok.mpr ⟨rfl, rfl, hCount, rfl⟩
  obtain ⟨s, hScene⟩ := (compileAt_ok_iff (g := ofSamples samples) rfl rfl rfl time).mpr
    ⟨rfl, rfl, rfl, _, hOptions⟩
  refine ⟨s, hScene, ?_⟩
  have hFound := renderOptions_of_compileAt hScene rfl
  rw [hOptions] at hFound
  exact congrArg RenderOptions.samples (Except.ok.inj hFound).symm

/-- An option that is the text of a number has the value of the number. -/
theorem value_samples_of_number {source : String} {x : Float32}
    (h : Expression.tokenize source = .ok [.number x]) :
    (Options.mk [("samples", .source source)]).value "Samples" 0.0 = .ok (some (.float1 x)) := by
  change (Options.evalSource "Samples" source).map some = _
  rw [Options.evalSource_of_number "Samples" h]
  rfl

/-- At time zero the rising samples are still one. -/
theorem value_risingSamples :
    (Options.mk [("samples", risingSamples)]).value "Samples" 0.0 = .ok (some (.float1 1.0)) := by
  have hOne : Expression.tokenize "1" = .ok [.number 1.0] := by decide +kernel
  have hValue := (Options.animatedValue_ends "Samples" (a := ⟨0.0, "1"⟩) (b := ⟨2.0, "5"⟩)
    (by decide) 0.0).1 (by decide)
  rw [Options.evalSource_of_number "Samples" hOne] at hValue
  change (Options.animatedValue "Samples" 0.0 [⟨0.0, "1"⟩, ⟨2.0, "5"⟩]).map some = _
  rw [hValue]
  rfl

/-- Five samples at time two, of which the animated graph compiles with one. -/
theorem compileAt_frozen_iff_steady_rising :
    ∃ s, (ofSamples risingSamples).compileAt 2.0 = .ok s ∧
      (ofSamples risingSamples).Frozen 2.0 (ofSamples (.source "5")) ∧
      ∃ render render', (ofSamples risingSamples).findRender = .ok render ∧
        (ofSamples (.source "5")).findRender = .ok render' ∧
        (ofSamples (.source "5")).compileAt 0.0 =
          render'.renderOptions.map (fun options => { s with render := options, time := 0.0 }) ∧
        ((ofSamples (.source "5")).compileAt 0.0 = .ok { s with time := 0.0 } ↔
          render.Steady 2.0) := by
  obtain ⟨s, hScene, _⟩ := compileAt_ofSamples 2.0 value_risingSamples
  exact ⟨s, hScene, ofSamples_risingSamples_frozen,
    compileAt_frozen_iff_steady hScene ofSamples_risingSamples_frozen⟩

/-- Compiled at time two, samples that have risen to five are still one. -/
theorem compileAt_of_risingSamples :
    ∃ s s', (ofSamples risingSamples).compileAt 2.0 = .ok s ∧
      (ofSamples risingSamples).Frozen 2.0 (ofSamples (.source "5")) ∧
      (ofSamples (.source "5")).compileAt 0.0 = .ok s' ∧
      s.render.samples = some 1 ∧ s'.render.samples = some 5 := by
  obtain ⟨s, hScene, hSamples⟩ := compileAt_ofSamples 2.0 value_risingSamples
  obtain ⟨s', hScene', hSamples'⟩ := compileAt_ofSamples 0.0 (value_samples_of_number tokenize_five)
  refine ⟨s, s', hScene, ofSamples_risingSamples_frozen, hScene', hSamples.trans ?_,
    hSamples'.trans ?_⟩
  · exact congrArg some (by decide)
  · exact congrArg some (by decide)

end SceneGraph

end PathTracer
