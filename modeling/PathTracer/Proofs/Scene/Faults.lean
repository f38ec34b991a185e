import PathTracer.Proofs.Scene.Extension
import PathTracer.Proofs.Scene.Renaming

/-! The faults of a walk. Which nodes a walk comes to, which options it reads at them
and what they can be blamed for is said without the walk. The errors that a walk adds
are then exactly what can be said of the nodes that it comes to. -/
namespace PathTracer

/-! ### Options -/

namespace Options

/-- An option is left out, or has a value of a type that can stand for another one. -/
inductive Fits (o : Options) (name : String) (want : ValueType) (time : Float32) : Prop where
  | absent (hAbsent : o.value name time = .ok none) : Fits o name want time
  | present {v : Value} (hValue : o.value name time = .ok (some v))
      (hType : v.type.assignableTo want = true) : Fits o name want time

/-- What is wrong with an option that does not fit. -/
inductive Misfits (o : Options) (name : String) (want : ValueType) (time : Float32) :
    Defect → Prop where
  | unread {d : Defect} (hValue : o.value name time = .error d) : Misfits o name want time d
  | mistyped {v : Value} (hValue : o.value name time = .ok (some v))
      (hType : v.type.assignableTo want = false) :
      Misfits o name want time (.malformedOption name s!"expected {want.name}, got {v.type.name}")

variable {o : Options} {name : String} {want : ValueType} {time : Float32} {d : Defect}

/-- An option that fits can be read. -/
theorem Fits.exists_typed (h : o.Fits name want time) : ∃ v, o.typed name want time = .ok v := by
  cases h with
  | absent hAbsent => exact ⟨none, by simp only [typed, hAbsent]⟩
  | @present v hValue hType => exact ⟨some v, by simp only [typed, hValue, hType, if_true]⟩

/-- An option that does not fit is reported with its defect, and with no other one. -/
theorem Misfits.typed_eq (h : o.Misfits name want time d) : o.typed name want time = .error d := by
  cases h with
  | unread hValue => simp only [typed, hValue]
  | mistyped hValue hType => simp [typed, malformed, hValue, hType]

/-- An option fits, or something is wrong with it. -/
theorem fits_or_misfits (o : Options) (name : String) (want : ValueType) (time : Float32) :
    o.Fits name want time ∨ ∃ d, o.Misfits name want time d := by
  rcases hValue : o.value name time with d | _ | v
  · exact .inr ⟨d, .unread hValue⟩
  · exact .inl (.absent hValue)
  · cases hType : v.type.assignableTo want with
    | true => exact .inl (.present hValue hType)
    | false => exact .inr ⟨_, .mistyped hValue hType⟩

/-- A typed option is in error exactly with what is wrong with it. -/
theorem typed_eq_error_iff : o.typed name want time = .error d ↔ o.Misfits name want time d := by
  refine ⟨fun h => ?_, Misfits.typed_eq⟩
  obtain hFits | ⟨found, hMisfits⟩ := o.fits_or_misfits name want time
  · obtain ⟨v, hTyped⟩ := hFits.exists_typed
    cases hTyped.symm.trans h
  · cases hMisfits.typed_eq.symm.trans h
    exact hMisfits

/-- An option fits exactly if it has no defect. -/
theorem fits_iff : o.Fits name want time ↔ ∀ d, ¬ o.Misfits name want time d := by
  refine ⟨fun hFits d hMisfits => ?_, fun h => (o.fits_or_misfits name want time).resolve_right ?_⟩
  · obtain ⟨v, hTyped⟩ := hFits.exists_typed
    cases hTyped.symm.trans hMisfits.typed_eq
  · rintro ⟨d, hMisfits⟩
    exact h d hMisfits

/-- Reading a number fails with the defects of its option, and no default hides one. -/
theorem float1_eq_error_iff (default : Float32) :
    o.float1 name default time = .error d ↔ o.Misfits name .float1 time d := by
  rw [← typed_eq_error_iff, float1]
  cases o.typed name .float1 time <;> simp [Except.map]

/-- Reading a vector fails with the defects of its option, and no default hides one. -/
theorem float3_eq_error_iff (default : Vec3 Float32) :
    o.float3 name default time = .error d ↔ o.Misfits name .float3 time d := by
  rw [← typed_eq_error_iff, float3]
  cases o.typed name .float3 time <;> simp [Except.map]

end Options

/-! ### Nodes -/

namespace Node

mutual

/-- The nodes that a walk comes to. Only objects and render nodes lead to those below
them. -/
def reached : Node → List Node
  | ⟨.object kind, options, name, line, leaves⟩ =>
    ⟨.object kind, options, name, line, leaves⟩ :: reachedAll leaves
  | ⟨.render, options, name, line, leaves⟩ =>
    ⟨.render, options, name, line, leaves⟩ :: reachedAll leaves
  | ⟨.material role body, options, name, line, leaves⟩ =>
    [⟨.material role body, options, name, line, leaves⟩]
  | ⟨.light kind, options, name, line, leaves⟩ => [⟨.light kind, options, name, line, leaves⟩]
  | ⟨.camera kind, options, name, line, leaves⟩ => [⟨.camera kind, options, name, line, leaves⟩]
  | ⟨.primitive kind, options, name, line, leaves⟩ =>
    [⟨.primitive kind, options, name, line, leaves⟩]

def reachedAll : List Node → List Node
  | [] => []
  | n :: rest => reached n ++ reachedAll rest

end

/-- The options that a walk reads at a node, each with the type that it has to fit. -/
def reads (n : Node) : List (String × ValueType) :=
  match n.kind with
  | .object .analytical => [("Position", .float3), ("Rotation", .float3), ("Scale", .float1)]
  | .object .marched =>
    [("Position", .float3), ("Rotation", .float3), ("Scale", .float1), ("Steps", .float1),
      ("StepSize", .float1), ("MaxBox", .float3)]
  | .light .sun => [(n.directionOption, .float3), ("Emission", .float3)]
  | .light .sphere => [("Position", .float3), ("Radius", .float1)]
  | .camera _ => [("Origin", .float3), ("LookAt", .float3), ("Fov", .float1)]
  | .primitive .sphere => [("Position", .float3), ("Radius", .float1)]
  | .primitive .box => [("Position", .float3), ("Size", .float3)]
  | .primitive .plane => [("Normal", .float3), ("Offset", .float1)]
  | .material _ _ => []
  | .render => []

/-- A sun has a direction, written or by default, whose length is not zero. -/
def Aims (n : Node) (time : Float32) : Prop :=
  ∃ given direction, n.options.float3 n.directionOption ⟨0.0, 1.0, -1.0⟩ time = .ok given ∧
    given.normalize? = some direction

/-- What a node that a walk comes to is blamed for, where materials of some names are
known. -/
inductive Exhibits (n : Node) (known : List String) (time : Float32) : Defect → Prop where
  | option {name : String} {want : ValueType} {d : Defect} (hRead : (name, want) ∈ n.reads)
      (hMisfits : n.options.Misfits name want time d) : Exhibits n known time d
  | direction {given : Vec3 Float32} (hKind : n.kind = .light .sun)
      (hGiven : n.options.float3 n.directionOption ⟨0.0, 1.0, -1.0⟩ time = .ok given)
      (hZero : given.normalize? = none) :
      Exhibits n known time (.malformedOption n.directionOption "direction must not be zero")
  | reference {name : String} (hName : n.materialName? = some name) (hUnknown : name ∉ known) :
      Exhibits n known time (.unresolvedMaterial name)
  | unlit (hKind : n.kind = .light .sphere) (hNone : n.materialName? = none) :
      Exhibits n known time .missingLightMaterial

variable {n : Node} {known other : List String} {time : Float32} {d : Defect}

/-- What is missing among many names is missing among fewer. -/
theorem Exhibits.mono (h : n.Exhibits known time d) (hNames : ∀ name ∈ other, name ∈ known) :
    n.Exhibits other time d := by
  cases h with
  | option hRead hMisfits => exact .option hRead hMisfits
  | direction hKind hGiven hZero => exact .direction hKind hGiven hZero
  | reference hName hUnknown => exact .reference hName fun hMem => hUnknown (hNames _ hMem)
  | unlit hKind hNone => exact .unlit hKind hNone

/-- Only which names are known counts, and not their order. -/
theorem exhibits_congr (hNames : ∀ name, name ∈ known ↔ name ∈ other) :
    n.Exhibits known time d ↔ n.Exhibits other time d :=
  ⟨fun h => h.mono fun name => (hNames name).mpr, fun h => h.mono fun name => (hNames name).mp⟩

end Node

/-! ### Steps that report -/

/-- Errors that a step may add, for the names of the known materials and the time. -/
abbrev Faults : Type := List String → Float32 → CompileError → Prop

/-- A step that adds some errors, no others, and otherwise only continues its context. -/
structure Reports {α : Type} (P : Faults) (m : StateM Context α) : Prop where
  moves : Moves Context.Extends m
  errors : ∀ c e, e ∈ (m.run c).2.errors ↔ e ∈ c.errors ∨ P c.materials c.time e

namespace Reports

variable {α β : Type} {P Q : Faults} {m : StateM Context α} {f : α → StateM Context β}

/-- A description of what is reported may be replaced by an equivalent one. -/
theorem congr (h : Reports P m) (hSame : ∀ known time e, P known time e ↔ Q known time e) :
    Reports Q m :=
  ⟨h.moves, fun c e => by rw [h.errors, hSame]⟩

/-- What follows a step may report by its result, as far as the context tells it. -/
theorem bind_result {R : α → Faults} (h : Reports P m) (hNext : ∀ x, Reports (R x) (f x))
    (hResult : ∀ c e, R (m.run c).1 c.materials c.time e ↔ Q c.materials c.time e) :
    Reports (fun known time e => P known time e ∨ Q known time e) (m >>= f) := by
  refine ⟨h.moves.bind fun x => (hNext x).moves, fun c e => ?_⟩
  change e ∈ ((f (m.run c).1).run (m.run c).2).2.errors ↔ _
  rw [(hNext _).errors, h.errors, (h.moves c).materials, (h.moves c).time, hResult, or_assoc]

/-- Parts one after the other report what either of them reports. Earlier errors do not keep
later ones from being reported. -/
theorem bind (h : Reports P m) (hNext : ∀ x, Reports Q (f x)) :
    Reports (fun known time e => P known time e ∨ Q known time e) (m >>= f) :=
  h.bind_result hNext fun _ _ => Iff.rfl

/-- A step that adds no errors. -/
theorem none_of_eq (hMoves : Moves Context.Extends m)
    (hErrors : ∀ c, (m.run c).2.errors = c.errors) : Reports (fun _ _ _ => False) m :=
  ⟨hMoves, fun c e => by rw [hErrors, or_false]⟩

/-- Returning a value reports nothing. -/
theorem pure (x : α) : Reports (fun _ _ _ => False) (Pure.pure x : StateM Context α) :=
  none_of_eq (.pure x) fun _ => rfl

/-- Whatever follows, only the first step adds errors. -/
theorem before (h : Reports P m) (hNext : ∀ x, Reports (fun _ _ _ => False) (f x)) :
    Reports P (m >>= f) :=
  (h.bind hNext).congr fun _ _ _ => by rw [or_false]

/-- Only what follows the first step adds errors. -/
theorem after (h : Reports (fun _ _ _ => False) m) (hNext : ∀ x, Reports P (f x)) :
    Reports P (m >>= f) :=
  (h.bind hNext).congr fun _ _ _ => by rw [false_or]

end Reports

namespace Node

open Reports

/-- The faults of some options at the line of a node. -/
def misread (n : Node) (options : List (String × ValueType)) : Faults := fun _ time e =>
  e.line = n.line ∧ ∃ read ∈ options, n.options.Misfits read.1 read.2 time e.defect

/-- The fault of a reference to a material, if there is one, at the line of a node. -/
def unresolved (n : Node) (reference : Option String) : Faults := fun known _ e =>
  e.line = n.line ∧ ∃ name, reference = some name ∧ name ∉ known ∧
    e.defect = .unresolvedMaterial name

/-- The fault of a direction that has no length, at the line of a sun. -/
def aimless (n : Node) : Faults := fun _ time e =>
  e.line = n.line ∧ n.kind = .light .sun ∧
    (∃ given, n.options.float3 n.directionOption ⟨0.0, 1.0, -1.0⟩ time = .ok given ∧
      given.normalize? = none) ∧
    e.defect = .malformedOption n.directionOption "direction must not be zero"

/-- The fault of a sphere light without a material, at its line. -/
def unlit (n : Node) : Faults := fun _ _ e =>
  e.line = n.line ∧ n.kind = .light .sphere ∧ n.materialName? = none ∧
    e.defect = .missingLightMaterial

/-- What a node that a walk comes to is blamed for, at its line. -/
def faults (n : Node) : Faults := fun known time e =>
  e.line = n.line ∧ n.Exhibits known time e.defect

section

variable {n : Node} {known : List String} {time : Float32} {e : CompileError}

/-- The faults of a node by kind: an option that cannot be read, a direction without a
length, a material that is not known, and a light without one. -/
theorem faults_iff : n.faults known time e ↔
    n.misread n.reads known time e ∨ n.aimless known time e ∨
      n.unresolved n.materialName? known time e ∨ n.unlit known time e := by
  obtain ⟨d, line⟩ := e
  constructor
  · rintro ⟨hLine, hExhibits⟩
    cases hExhibits with
    | option hRead hMisfits => exact .inl ⟨hLine, _, hRead, hMisfits⟩
    | direction hKind hGiven hZero =>
        exact .inr (.inl ⟨hLine, hKind, ⟨_, hGiven, hZero⟩, rfl⟩)
    | reference hName hUnknown => exact .inr (.inr (.inl ⟨hLine, _, hName, hUnknown, rfl⟩))
    | unlit hKind hNone => exact .inr (.inr (.inr ⟨hLine, hKind, hNone, rfl⟩))
  · rintro (⟨hLine, read, hRead, hMisfits⟩ | ⟨hLine, hKind, ⟨given, hGiven, hZero⟩, hDefect⟩ |
      ⟨hLine, name, hName, hUnknown, hDefect⟩ | ⟨hLine, hKind, hNone, hDefect⟩)
    · exact ⟨hLine, .option hRead hMisfits⟩
    · exact ⟨hLine, hDefect ▸ .direction hKind hGiven hZero⟩
    · exact ⟨hLine, hDefect ▸ .reference hName hUnknown⟩
    · exact ⟨hLine, hDefect ▸ .unlit hKind hNone⟩

/-- Nodes that are no lights are blamed for their options and their references only. -/
theorem faults_of_ne_light (hKind : ∀ kind, n.kind ≠ .light kind) : n.faults known time e ↔
    n.misread n.reads known time e ∨ n.unresolved n.materialName? known time e := by
  simp [faults_iff, aimless, unlit, hKind]

/-- What is wrong with two lists of options is wrong with one of them. -/
theorem misread_append {first second : List (String × ValueType)} :
    n.misread (first ++ second) known time e ↔
      n.misread first known time e ∨ n.misread second known time e := by
  simp only [misread, List.mem_append, or_and_right, exists_or, and_or_left]

end

/-- A report is added to the errors that are there. -/
theorem mem_errors_report {c : Context} {defect : Defect} {line : Nat} {e : CompileError} :
    e ∈ (c.report defect line).errors ↔ e ∈ c.errors ∨ e.line = line ∧ e.defect = defect := by
  obtain ⟨found, place⟩ := e
  simp [Context.report, and_comm]

/-- Reading a number reports what is wrong with its option, on the line of the node. -/
theorem readFloat1_reports (n : Node) (name : String) (default : Float32) :
    Reports (n.misread [(name, .float1)]) (n.readFloat1 name default) := by
  refine ⟨n.moves_readFloat1 name default, fun c e => ?_⟩
  change e ∈ (n.readFloat1 name default c).2.errors ↔ _
  simp only [misread, List.mem_singleton, exists_eq_left, ← Options.float1_eq_error_iff default]
  unfold readFloat1
  cases n.options.float1 name default c.time with
  | ok x => simp
  | error d => simp [mem_errors_report, eq_comm]

/-- Reading a vector reports what is wrong with its option, on the line of the node. -/
theorem readFloat3_reports (n : Node) (name : String) (default : Vec3 Float32) :
    Reports (n.misread [(name, .float3)]) (n.readFloat3 name default) := by
  refine ⟨n.moves_readFloat3 name default, fun c e => ?_⟩
  change e ∈ (n.readFloat3 name default c).2.errors ↔ _
  simp only [misread, List.mem_singleton, exists_eq_left, ← Options.float3_eq_error_iff default]
  unfold readFloat3
  cases n.options.float3 name default c.time with
  | ok v => simp
  | error d => simp [mem_errors_report, eq_comm]

/-- Reading bounds reports what is wrong with them. The corner that is not in the text is
not read. -/
theorem readBounds_reports (n : Node) :
    Reports (n.misread [("MaxBox", .float3)]) n.readBounds := by
  refine ⟨n.moves_readBounds, fun c e => ?_⟩
  change e ∈ (n.readBounds c).2.errors ↔ _
  simp only [misread, List.mem_singleton, exists_eq_left, ← Options.float3_eq_error_iff .zero]
  unfold readBounds
  cases n.options.float3 "MaxBox" .zero c.time with
  | ok v => simp
  | error d => simp [mem_errors_report, eq_comm]

/-- A node reports its defects on its own line. -/
theorem report_reports (n : Node) (defect : Defect) :
    Reports (fun _ _ e => e.line = n.line ∧ e.defect = defect) (n.report defect) :=
  ⟨n.moves_report defect, fun _ _ => mem_errors_report⟩

section

variable {α β : Type} {n : Node} {first second : List (String × ValueType)}

/-- Options that are read one after the other. -/
theorem reports_reads {m : StateM Context α} {f : α → StateM Context β}
    (h : Reports (n.misread first) m) (hNext : ∀ x, Reports (n.misread second) (f x)) :
    Reports (n.misread (first ++ second)) (m >>= f) :=
  (h.bind hNext).congr fun _ _ _ => misread_append.symm

end

/-- Reading a placement reports what is wrong with any of its three options. -/
theorem readPlacement_reports (n : Node) :
    Reports (n.misread [("Position", .float3), ("Rotation", .float3), ("Scale", .float1)])
      n.readPlacement :=
  reports_reads (n.readFloat3_reports _ _) fun _ => reports_reads (n.readFloat3_reports _ _) fun _ =>
    (n.readFloat1_reports _ _).before fun _ => .pure _

/-- Resolving a name adds an error exactly if the name is not known. -/
theorem mem_errors_resolve {c : Context} {name : String} {line : Nat} {e : CompileError} :
    e ∈ (c.resolve name line).2.errors ↔ e ∈ c.errors ∨
      e.line = line ∧ name ∉ c.materials ∧ e.defect = .unresolvedMaterial name := by
  unfold Context.resolve
  cases hIndex : c.materialIndex? name with
  | none =>
      have hUnknown : name ∉ c.materials := fun hMem => by
        have hNone := List.findIdx?_eq_none_iff.mp hIndex name hMem
        simp at hNone
      simp [mem_errors_report, hUnknown]
  | some index =>
      obtain ⟨hBound, hName, -⟩ := List.findIdx?_eq_some_iff_getElem.mp hIndex
      have hKnown : name ∈ c.materials := beq_iff_eq.mp hName ▸ List.getElem_mem hBound
      simp [hKnown]

/-- A name that is not known is reported on the line of the node that has it. -/
theorem resolve_reports (n : Node) (name : String) :
    Reports (n.unresolved (some name))
      (fun c => c.resolve name n.line : StateM Context (Option Nat)) := by
  refine ⟨fun c => c.moves_resolve name n.line, fun c e => ?_⟩
  change e ∈ (c.resolve name n.line).2.errors ↔ _
  simp [mem_errors_resolve, unresolved]

/-- Activating a material reports its name where it is not known. -/
theorem activate_reports (n : Node) (name : String) :
    Reports (n.unresolved (some name)) (n.activate name) := by
  refine ⟨n.moves_activate name, fun c e => ?_⟩
  have hErrors : (n.activate name c).2.errors = (c.resolve name n.line).2.errors := by
    unfold activate
    generalize c.resolve name n.line = found
    obtain ⟨index, d⟩ := found
    cases index <;> rfl
  change e ∈ (n.activate name c).2.errors ↔ _
  rw [hErrors]
  exact (n.resolve_reports name).errors c e

/-- A step that makes a material active if there is a reference to one. Without a reference
nothing is looked up. -/
theorem reports_reference {n : Node} {m : StateM Context Unit} (reference : Option String)
    (hNone : reference = none → m = Pure.pure ())
    (hSome : ∀ name, reference = some name → m = n.activate name) :
    Reports (n.unresolved reference) m := by
  cases reference with
  | none =>
      rw [hNone rfl]
      exact (Reports.pure ()).congr fun _ _ _ => by simp [unresolved]
  | some name =>
      rw [hSome name rfl]
      exact n.activate_reports name

/-- A node without the option reports nothing. -/
theorem activateOption_reports (n : Node) :
    Reports (n.unresolved (n.options.text? "Material")) n.activateOption :=
  reports_reference _ (fun h => by rw [activateOption, h]) fun name h => by rw [activateOption, h]

/-- A definition of a material activates it under its own name, so that it reports the name
where the definition was not taken. -/
theorem visitMaterial_reports (n : Node) :
    Reports (n.unresolved n.explicitName?) n.visitMaterial :=
  reports_reference _ (fun h => by rw [visitMaterial, h]) fun name h => by rw [visitMaterial, h]

/-! ### Nodes of each kind -/

/-- Taking a slot reports nothing. -/
theorem allocate_quiet (v : Vec4 Float32) : Reports (fun _ _ _ => False) (allocate v) :=
  .none_of_eq (moves_allocate v) fun _ => rfl

/-- A raymarched object reports what is wrong with its steps or its bounds. -/
theorem addMarched_reports (n : Node) :
    Reports (n.misread [("Steps", .float1), ("StepSize", .float1), ("MaxBox", .float3)])
      n.addMarched := by
  refine reports_reads (n.readFloat1_reports _ _) fun steps => ?_
  refine reports_reads (n.readFloat1_reports _ _) fun stepSize => ?_
  refine n.readBounds_reports.before fun bounds => ?_
  exact .none_of_eq (Moves.get.bind fun _ c => Appending.object c _) fun _ => rfl

/-- Whatever an object is blamed for is reported when it is entered. -/
theorem enterObject_reports (n : Node) {kind : ObjectKind} (hKind : n.kind = .object kind) :
    Reports n.faults (n.enterObject kind) := by
  let placement : List (String × ValueType) :=
    [("Position", .float3), ("Rotation", .float3), ("Scale", .float1)]
  let marched : List (String × ValueType) :=
    [("Steps", .float1), ("StepSize", .float1), ("MaxBox", .float3)]
  have hReads : n.reads = placement ++ if kind = .marched then marched else [] := by
    unfold reads
    rw [hKind]
    cases kind <;> rfl
  have hName : n.materialName? = n.options.text? "Material" := by
    rw [materialName?, hKind]
  have hEnter : Reports (fun known time e => n.misread placement known time e ∨
      n.unresolved n.materialName? known time e ∨
        n.misread (if kind = .marched then marched else []) known time e) (n.enterObject kind) := by
    refine n.readPlacement_reports.bind fun p => ?_
    refine .after (.none_of_eq .get fun _ => rfl) fun before => ?_
    refine .after (.none_of_eq (fun c => Entering.checkIn c p) fun _ => rfl) fun _ => ?_
    rw [hName]
    refine n.activateOption_reports.bind fun _ => ?_
    cases kind with
    | marched => exact n.addMarched_reports.before fun _ => .pure _
    | analytical => exact (Reports.pure _).congr fun _ _ _ => by simp [misread]
  refine hEnter.congr fun known time e => ?_
  rw [faults_of_ne_light (by simp [hKind]), hReads, misread_append, or_assoc]
  exact or_congr_right Or.comm

/-- The default direction of a sun has a length. -/
theorem normalize?_defaultDirection : ((⟨0.0, 1.0, -1.0⟩ : Vec3 Float32).normalize?).isSome = true := by
  decide +kernel

/-- The direction of a sun is read, and must not be so short that it cannot be normalized.
-/
theorem readDirection_reports (n : Node) (hKind : n.kind = .light .sun) :
    Reports (fun known time e =>
      n.misread [(n.directionOption, .float3)] known time e ∨ n.aimless known time e)
      n.readDirection := by
  let zero : Defect := .malformedOption n.directionOption "direction must not be zero"
  refine (n.readFloat3_reports _ _).bind_result (R := fun given _ _ e =>
    given.normalize? = none ∧ e.line = n.line ∧ e.defect = zero) (fun given => ?_) fun c e => ?_
  · cases given.normalize? with
    | some direction => exact (Reports.pure direction).congr fun _ _ _ => by simp
    | none =>
        exact ((n.report_reports zero).before fun _ => .pure Vec3.axisY).congr fun _ _ _ => by simp
  -- After a fault the walk goes on with the default, which is not blamed.
  · change (n.readFloat3 n.directionOption ⟨0.0, 1.0, -1.0⟩ c).1.normalize? = none ∧ _ ↔ _
    unfold readFloat3 aimless
    cases n.options.float3 n.directionOption ⟨0.0, 1.0, -1.0⟩ c.time with
    | ok given => simp [hKind, zero, and_left_comm]
    | error d => simp [Option.isSome_iff_ne_none.mp normalize?_defaultDirection]

/-- A sun reports exactly its faults. -/
theorem visitSun_reports (n : Node) (hKind : n.kind = .light .sun) :
    Reports n.faults n.visitSun := by
  have hVisit : Reports (fun known time e =>
      (n.misread [(n.directionOption, .float3)] known time e ∨ n.aimless known time e) ∨
        n.misread [("Emission", .float3)] known time e) n.visitSun := by
    refine (n.readDirection_reports hKind).bind fun direction => ?_
    refine (n.readFloat3_reports _ _).before fun emission => ?_
    refine .after (allocate_quiet _) fun data => ?_
    exact .none_of_eq (fun c => Context.Extends.light c _) fun _ => rfl
  refine hVisit.congr fun known time e => ?_
  have hReads : n.reads =
      [(n.directionOption, ValueType.float3)] ++ [("Emission", ValueType.float3)] := by
    rw [reads, hKind]
    rfl
  have hName : n.materialName? = none := by rw [materialName?, hKind]
  rw [faults_iff, hReads, misread_append, hName]
  rw [or_right_comm]
  simp [unresolved, unlit, hKind]

/-- A sphere light must name a material, and one that is known. -/
theorem lightMaterial_reports (n : Node) (hKind : n.kind = .light .sphere) :
    Reports (fun known time e =>
      n.unresolved n.materialName? known time e ∨ n.unlit known time e) n.lightMaterial := by
  have hName : n.materialName? = n.options.text? "Material" := by
    rw [materialName?, hKind]
  cases hMaterial : n.options.text? "Material" with
  | some name =>
      rw [lightMaterial, hMaterial]
      refine (n.resolve_reports name).congr fun known time e => ?_
      simp [hName, hMaterial, unlit]
  | none =>
      rw [lightMaterial, hMaterial]
      refine ((n.report_reports .missingLightMaterial).before fun _ => .pure _).congr
        fun known time e => ?_
      simp [hName, hMaterial, unlit, unresolved, hKind]

/-- A sphere light reports exactly its faults, wherever it stands. -/
theorem visitSphereLight_reports (n : Node) (hKind : n.kind = .light .sphere) (out : Output) :
    Reports n.faults (n.visitSphereLight out) := by
  have hVisit : Reports (fun known time e =>
      n.misread [("Position", .float3)] known time e ∨ n.misread [("Radius", .float1)] known time e ∨
        n.unresolved n.materialName? known time e ∨ n.unlit known time e)
      (n.visitSphereLight out) := by
    refine (n.readFloat3_reports _ _).bind fun position => ?_
    refine (n.readFloat1_reports _ _).bind fun radius => ?_
    refine (n.lightMaterial_reports hKind).before fun found => ?_
    cases found with
    | none => exact .pure _
    | some index =>
        refine .after (.none_of_eq .get fun _ => rfl) fun c => .after (allocate_quiet _) fun data => ?_
        exact .none_of_eq (Moves.bind (fun c => .ofEntities c (.light _ _)) fun _ => .pure _)
          fun _ => rfl
  refine hVisit.congr fun known time e => ?_
  have hReads : n.reads = [("Position", ValueType.float3)] ++ [("Radius", ValueType.float1)] := by
    rw [reads, hKind]
    rfl
  rw [faults_iff, hReads, misread_append, or_assoc]
  simp [aimless, hKind]

/-- A camera reports exactly its faults, in both kinds of projection. -/
theorem visitCamera_reports (n : Node) {kind : CameraKind} (hKind : n.kind = .camera kind) :
    Reports n.faults (n.visitCamera kind) := by
  have hVisit : Reports
      (n.misread ([("Origin", ValueType.float3)] ++
        ([("LookAt", ValueType.float3)] ++ [("Fov", ValueType.float1)])))
      (n.visitCamera kind) := by
    refine reports_reads (n.readFloat3_reports _ _) fun origin => ?_
    refine reports_reads (n.readFloat3_reports _ _) fun lookAt => ?_
    refine (n.readFloat1_reports _ _).before fun fieldOfView => ?_
    exact .none_of_eq (fun c => Context.Extends.camera c _) fun _ => rfl
  refine hVisit.congr fun known time e => ?_
  rw [faults_of_ne_light (by simp [hKind]), reads, materialName?, hKind]
  simp [unresolved]

/-- Filling the slots of a primitive reports what is wrong with its options. -/
theorem allocatePrimitive_reports (n : Node) {kind : PrimitiveKind}
    (hKind : n.kind = .primitive kind) : Reports (n.misread n.reads) (n.allocatePrimitive kind) := by
  rw [reads, hKind]
  cases kind with
  | sphere | plane =>
      exact reports_reads (n.readFloat3_reports _ _) fun _ =>
        (n.readFloat1_reports _ _).before fun _ => allocate_quiet _
  | box =>
      exact reports_reads (n.readFloat3_reports _ _) fun _ =>
        (n.readFloat3_reports _ _).before fun _ =>
          (allocate_quiet _).before fun _ => (allocate_quiet _).before fun _ => .pure _

/-- A primitive reports exactly its faults, whether it writes a statement or not. -/
theorem visitPrimitive_reports (n : Node) {kind : PrimitiveKind}
    (hKind : n.kind = .primitive kind) (out : Output) :
    Reports n.faults (n.visitPrimitive kind out) := by
  have hVisit : Reports (n.misread n.reads) (n.visitPrimitive kind out) := by
    refine .after (.none_of_eq .get fun _ => rfl) fun c => ?_
    refine (n.allocatePrimitive_reports hKind).before fun data => ?_
    refine .none_of_eq (Moves.bind (fun c => .ofEntities c ?_) fun _ => .pure _) fun _ => rfl
    exact ⟨List.prefix_refl _, List.prefix_append _ _, List.prefix_refl _, id⟩
  refine hVisit.congr fun known time e => ?_
  rw [faults_of_ne_light (by simp [hKind]), materialName?, hKind]
  simp [unresolved]

/-! ### Walks -/

/-- What the nodes that a walk comes to are blamed for. -/
def reachedFaults (nodes : List Node) : Faults := fun known time e =>
  ∃ n ∈ nodes, n.faults known time e

section

variable {n : Node} {first second : List Node} {known : List String} {time : Float32}
  {e : CompileError}

/-- The faults of one node that is reached are its own. -/
theorem reachedFaults_singleton : reachedFaults [n] known time e ↔ n.faults known time e := by
  simp [reachedFaults]

/-- The faults of the nodes that are reached are those of the first and those of the others.
-/
theorem reachedFaults_cons :
    reachedFaults (n :: first) known time e ↔
      n.faults known time e ∨ reachedFaults first known time e := by
  simp [reachedFaults]

/-- The faults of two lists of nodes are those of either. -/
theorem reachedFaults_append :
    reachedFaults (first ++ second) known time e ↔
      reachedFaults first known time e ∨ reachedFaults second known time e := by
  simp [reachedFaults, or_and_right, exists_or]

/-- Nothing is read at an environment or a render node, and they refer to nothing. -/
theorem not_faults_of_empty (hKind : ∀ kind, n.kind ≠ .light kind) (hReads : n.reads = [])
    (hName : n.materialName? = none) : ¬ n.faults known time e := by
  simp [faults_of_ne_light hKind, misread, unresolved, hReads, hName]

end

mutual

/-- A walk reports exactly what the nodes that it comes to are blamed for. -/
theorem visit_reports :
    (n : Node) → (out : Output) → Reports (reachedFaults n.reached) (n.visit out)
  | ⟨.object kind, options, name, line, leaves⟩, out => by
      rw [visit, reached]
      refine Reports.congr (?_ : Reports _ _) fun known time e => reachedFaults_cons.symm
      refine (enterObject_reports _ rfl).bind fun saved => ?_
      refine (visitAll_reports leaves _).before fun _ => ?_
      exact (Reports.none_of_eq (moves_checkOut saved) fun _ => rfl).before fun _ => .pure _
  | ⟨.material .surface body, options, name, line, leaves⟩, out => by
      rw [visit, reached]
      refine ((visitMaterial_reports _).before fun _ => .pure _).congr fun known time e => ?_
      rw [reachedFaults_singleton, faults_of_ne_light fun _ h => by cases h]
      simp [misread, reads, materialName?]
  | ⟨.material .environment body, options, name, line, leaves⟩, out => by
      rw [visit, reached]
      refine (Reports.pure _).congr fun known time e => ?_
      rw [reachedFaults_singleton, false_iff]
      exact not_faults_of_empty (fun _ h => by cases h) rfl rfl
  | ⟨.render, options, name, line, leaves⟩, out => by
      rw [visit, reached]
      refine (visitAll_reports leaves out).congr fun known time e => ?_
      rw [reachedFaults_cons]
      refine (or_iff_right ?_).symm
      exact not_faults_of_empty (fun _ h => by cases h) rfl rfl
  | ⟨.light .sun, options, name, line, leaves⟩, out => by
      rw [visit, reached]
      exact ((visitSun_reports _ rfl).before fun _ => .pure _).congr fun _ _ _ =>
        reachedFaults_singleton.symm
  | ⟨.light .sphere, options, name, line, leaves⟩, out => by
      rw [visit, reached]
      exact (visitSphereLight_reports _ rfl out).congr fun _ _ _ => reachedFaults_singleton.symm
  | ⟨.camera kind, options, name, line, leaves⟩, out => by
      rw [visit, reached]
      exact ((visitCamera_reports _ rfl).before fun _ => .pure _).congr fun _ _ _ =>
        reachedFaults_singleton.symm
  | ⟨.primitive kind, options, name, line, leaves⟩, out => by
      rw [visit, reached]
      exact (visitPrimitive_reports _ rfl out).congr fun _ _ _ => reachedFaults_singleton.symm

/-- Visiting siblings reports exactly the faults of the nodes that are reached, in whatever
context. Nodes are known by their lines, so that equal defects on one line count once. -/
theorem visitAll_reports :
    (nodes : List Node) → (out : Output) → Reports (reachedFaults (reachedAll nodes)) (visitAll nodes out)
  | [], out => by
      rw [visitAll, reachedAll]
      exact (Reports.pure out).congr fun _ _ _ => by simp [reachedFaults]
  | n :: rest, out => by
      rw [visitAll, reachedAll]
      exact ((visit_reports n out).bind fun found => visitAll_reports rest found).congr
        fun _ _ _ => reachedFaults_append.symm

end

end Node

end PathTracer
