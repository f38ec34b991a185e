import Mathlib.Data.List.Basic
import PathTracer.Expression.Evaluation

/-! Expressions with a static type have a value of that type. -/
namespace PathTracer

namespace ValueType

/-- A type is assigned to itself, and a scalar to any type. -/
theorem assignableTo_iff {s t : ValueType} :
    s.assignableTo t = true ↔ s = t ∨ s = float1 := by
  simp [assignableTo]

theorem assignableTo_refl (t : ValueType) : t.assignableTo t = true := by
  simp [assignableTo]

theorem assignableTo_trans {s t u : ValueType} (hFirst : s.assignableTo t = true)
    (hSecond : t.assignableTo u = true) : s.assignableTo u = true := by
  rw [assignableTo_iff] at *
  rcases hFirst with rfl | rfl
  · exact hSecond
  · exact Or.inr rfl

/-- Positions of the components of a type, in order. -/
def positions : ValueType → List Component
  | float1 => [.x]
  | float2 => [.x, .y]
  | float3 => [.x, .y, .z]
  | float4 => [.x, .y, .z, .w]

@[simp] theorem length_positions (t : ValueType) : t.positions.length = t.components := by
  cases t <;> rfl

/-- A type to which operands of some types are widened. One of them has it. -/
structure Joins (types : List ValueType) (type : ValueType) : Prop where
  assignable : ∀ t ∈ types, t.assignableTo type = true
  mem : type ∈ types

/-- A type that two types broadcast to joins them. -/
theorem joins_of_broadcast {s t u : ValueType} (h : s.broadcast t = some u) : Joins [s, t] u := by
  unfold broadcast at h
  split_ifs at h with hFirst hSecond
  · rw [Option.some.injEq] at h
    subst h
    refine ⟨?_, by simp⟩
    simp only [Bool.or_eq_true, decide_eq_true_eq] at hFirst
    simp only [List.mem_cons, List.not_mem_nil, or_false, forall_eq_or_imp, forall_eq]
    exact ⟨assignableTo_refl s, assignableTo_iff.mpr (hFirst.imp Eq.symm id)⟩
  · rw [Option.some.injEq] at h
    subst h hSecond
    refine ⟨?_, by simp⟩
    simp [assignableTo_iff]

end ValueType

namespace Value

/-- The lanes that the type of a value counts. The others are not part of it. -/
theorem components_eq_map (v : Value) : v.components = v.type.positions.map v.lanes.lane := by
  obtain ⟨type, lanes⟩ := v
  cases type <;> rfl

@[simp] theorem length_components (v : Value) : v.components.length = v.type.components := by
  rw [components_eq_map, List.length_map, ValueType.length_positions]

@[simp] theorem type_ofFn (t : ValueType) (f : Component → Float32) : (ofFn t f).type = t := by
  cases t <;> rfl

@[simp] theorem components_ofFn (t : ValueType) (f : Component → Float32) :
    (ofFn t f).components = t.positions.map f := by
  cases t <;> rfl

theorem components_of_ofList? {xs : List Float32} {v : Value} (h : ofList? xs = some v) :
    v.components = xs := by
  unfold ofList? at h
  split at h <;> cases h <;> rfl

/-- A list of as many numbers as a type has components is a value of it. -/
theorem exists_ofList?_of_length {xs : List Float32} {t : ValueType}
    (h : ValueType.ofComponents? xs.length = some t) :
    ∃ v, ofList? xs = some v ∧ v.type = t ∧ v.components = xs := by
  match xs, h with
  | [x], h => exact ⟨float1 x, rfl, Option.some.inj h, rfl⟩
  | [x, y], h => exact ⟨float2 ⟨x, y⟩, rfl, Option.some.inj h, rfl⟩
  | [x, y, z], h => exact ⟨float3 ⟨x, y, z⟩, rfl, Option.some.inj h, rfl⟩
  | [x, y, z, w], h => exact ⟨float4 ⟨x, y, z, w⟩, rfl, Option.some.inj h, rfl⟩

end Value

theorem ValueType.ofComponents?_components (t : ValueType) :
    ofComponents? t.components = some t := by
  cases t <;> rfl

namespace Expression

/-! ### Types of calls -/

theorem joins_of_broadcastTypes {s t u : ValueType} (h : broadcastTypes s t = .ok u) :
    ValueType.Joins [s, t] u := by
  unfold broadcastTypes at h
  split at h
  · rename_i hJoin
    cases h
    exact ValueType.joins_of_broadcast hJoin
  · cases h

/-- A type that several types broadcast to joins all of them: each is that type or a scalar.
-/
theorem joins_of_broadcastAll {first u : ValueType} {rest : List ValueType}
    (h : broadcastAll first rest = .ok u) : ValueType.Joins (first :: rest) u := by
  induction rest generalizing first with
  | nil =>
      cases h
      exact ⟨by simp [ValueType.assignableTo_refl], by simp⟩
  | cons t rest ih =>
      rw [broadcastAll] at h
      split at h
      · cases h
      · rename_i joined hJoin
        have hFirst := joins_of_broadcastTypes hJoin
        have hRest := ih h
        have hJoined : joined.assignableTo u = true := hRest.assignable joined (by simp)
        constructor
        · intro s hs
          rw [List.mem_cons, List.mem_cons, ← or_assoc] at hs
          rcases hs with hs | hs
          · exact ValueType.assignableTo_trans (hFirst.assignable s (by simpa using hs)) hJoined
          · exact hRest.assignable s (by simp [hs])
        · rcases List.mem_cons.mp hRest.mem with rfl | hMem
          · have := hFirst.mem
            simp only [List.mem_cons, List.not_mem_nil, or_false] at this
            rcases this with h | h <;> simp [h]
          · simp [hMem]

/-- The types that a function accepts, with the type of its result. -/
inductive CallTyped : Builtin → List ValueType → ValueType → Prop where
  | unary (f : UnaryFunction) (t : ValueType) : CallTyped (.unary f) [t] t
  | normalize (t : ValueType) : CallTyped .normalize [t] t
  | binary (f : BinaryFunction) {s t u : ValueType} (hJoin : ValueType.Joins [s, t] u) :
      CallTyped (.binary f) [s, t] u
  | clamp {s t r u : ValueType} (hJoin : ValueType.Joins [s, t, r] u) :
      CallTyped .clamp [s, t, r] u
  | smoothstep {s t r u : ValueType} (hJoin : ValueType.Joins [s, t, r] u) :
      CallTyped .smoothstep [s, t, r] u
  | mix {s t r u : ValueType} (hJoin : ValueType.Joins [s, t] u)
      (hFactor : r.assignableTo u = true) : CallTyped .mix [s, t, r] u
  | length (t : ValueType) : CallTyped .length [t] .float1
  | dot (t : ValueType) : CallTyped .dot [t, t] .float1
  | cross : CallTyped .cross [.float3, .float3] .float3
  | splat (type : ValueType) : CallTyped (.construct type) [.float1] type
  | construct (type : ValueType) {types : List ValueType}
      (hTotal : totalComponents types = type.components) : CallTyped (.construct type) types type

/-- Whatever the checker accepts is typed. -/
theorem callTyped_of_callType {function : String} {f : Builtin} {types : List ValueType}
    {type : ValueType} (h : callType function f types = .ok type) : CallTyped f types type := by
  unfold callType at h
  split at h
  · cases h
    exact .unary _ _
  · cases h
    exact .normalize _
  · exact .binary _ (joins_of_broadcastAll h)
  · exact .clamp (joins_of_broadcastAll h)
  · exact .smoothstep (joins_of_broadcastAll h)
  · split at h
    · cases h
    · rename_i hJoin
      split_ifs at h with hFactor
      · cases h
        exact .mix (joins_of_broadcastAll hJoin) hFactor
      · cases h
  · cases h
    exact .length _
  · split_ifs at h with hSame
    · cases h
      subst hSame
      exact .dot _
    · cases h
  · split_ifs at h with hFirst hSecond
    · cases h
    · cases h
    · cases h
      have hFirst := Decidable.not_not.mp hFirst
      have hSecond := Decidable.not_not.mp hSecond
      subst hFirst hSecond
      exact .cross
  · dsimp only at h
    split_ifs at h with hShape
    · cases h
      simp only [Bool.or_eq_true, decide_eq_true_eq] at hShape
      rcases hShape with hTotal | rfl
      · exact .construct _ hTotal
      · exact .splat _
    · cases h
  all_goals cases h

/-! ### Soundness -/

/-- Values that have the types that a scope gives their names. There may be
more values than types. -/
def ValueScope.Fits (values : ValueScope) (types : TypeScope) : Prop :=
  ∀ name type, types name = some type → ∃ v, values name = some v ∧ v.type = type

theorem length_flatMap_components (parts : List Value) :
    (parts.flatMap Value.components).length = totalComponents (parts.map Value.type) := by
  induction parts with
  | nil => rfl
  | cons v rest ih => simp [totalComponents, ih]

/-- What a constructor accepts: as many numbers as it has components, or one. -/
def Constructs (type : ValueType) (parts : List Value) : Prop :=
  totalComponents (parts.map Value.type) = type.components ∨ parts.map Value.type = [.float1]

theorem Constructs.length_flatMap {type : ValueType} {parts : List Value}
    (h : Constructs type parts) (hParts : ∀ lanes, parts ≠ [⟨.float1, lanes⟩]) :
    (parts.flatMap Value.components).length = type.components := by
  rw [length_flatMap_components]
  rcases h with h | h
  · exact h
  · obtain ⟨v, rfl, hType⟩ := List.map_eq_singleton_iff.mp h
    obtain ⟨_, lanes⟩ := v
    cases hType
    exact absurd rfl (hParts lanes)

/-- A vector that can be constructed of its parts is, and has the type. -/
theorem construct_sound {type : ValueType} {parts : List Value} (h : Constructs type parts) :
    ∃ v, construct type parts = .ok v ∧ v.type = type := by
  unfold construct
  split
  · exact ⟨_, rfl, Value.type_ofFn _ _⟩
  · rename_i hParts
    have hLength : ValueType.ofComponents? (parts.flatMap Value.components).length = some type := by
      rw [h.length_flatMap hParts, ValueType.ofComponents?_components]
    obtain ⟨v, hValue, hType, _⟩ := Value.exists_ofList?_of_length hLength
    exact ⟨v, by simp only [hValue], hType⟩

/-- A typed call has a value of the type of its result. -/
theorem applyBuiltin_sound (function : String) {f : Builtin} {args : List Value}
    {type : ValueType} (h : CallTyped f (args.map Value.type) type) :
    ∃ v, applyBuiltin function f type args = .ok v ∧ v.type = type := by
  generalize hTypes : args.map Value.type = types at h
  cases h with
  | unary f t =>
      obtain ⟨v, rfl, rfl⟩ := List.map_eq_singleton_iff.mp hTypes
      exact ⟨_, rfl, Value.type_ofFn _ _⟩
  | normalize t =>
      obtain ⟨v, rfl, rfl⟩ := List.map_eq_singleton_iff.mp hTypes
      exact ⟨_, rfl, Value.type_ofFn _ _⟩
  | length t =>
      obtain ⟨v, rfl, rfl⟩ := List.map_eq_singleton_iff.mp hTypes
      exact ⟨_, rfl, rfl⟩
  | binary f hJoin =>
      obtain ⟨a, b, rfl⟩ := List.length_eq_two.mp (by simpa using congrArg List.length hTypes)
      exact ⟨_, rfl, Value.type_ofFn _ _⟩
  | dot t =>
      obtain ⟨a, b, rfl⟩ := List.length_eq_two.mp (by simpa using congrArg List.length hTypes)
      exact ⟨_, rfl, rfl⟩
  | cross =>
      obtain ⟨a, b, rfl⟩ := List.length_eq_two.mp (by simpa using congrArg List.length hTypes)
      exact ⟨_, rfl, rfl⟩
  | clamp hJoin =>
      obtain ⟨a, b, c, rfl⟩ := List.length_eq_three.mp (by simpa using congrArg List.length hTypes)
      exact ⟨_, rfl, Value.type_ofFn _ _⟩
  | smoothstep hJoin =>
      obtain ⟨a, b, c, rfl⟩ := List.length_eq_three.mp (by simpa using congrArg List.length hTypes)
      exact ⟨_, rfl, Value.type_ofFn _ _⟩
  | mix hJoin hFactor =>
      obtain ⟨a, b, c, rfl⟩ := List.length_eq_three.mp (by simpa using congrArg List.length hTypes)
      exact ⟨_, rfl, Value.type_ofFn _ _⟩
  | splat type => exact construct_sound (.inr hTypes)
  | construct type hTotal => exact construct_sound (.inl (hTypes ▸ hTotal))

/-- A selection within the components of a value has as many as it names. So a selection
that is accepted is always a value. -/
theorem exists_ofList?_of_swizzleType {base : Value} {selection : List Component}
    {type : ValueType} (h : swizzleType base.type selection = .ok type) :
    ∃ v, Value.ofList? (selection.map base.lanes.lane) = some v ∧ v.type = type ∧
      v.components = selection.map base.lanes.lane := by
  unfold swizzleType at h
  split at h
  · cases h
  · split at h
    · rename_i found hFound
      cases h
      exact Value.exists_ofList?_of_length (by rw [List.length_map, hFound])
    · cases h

mutual

/-- An expression with a static type has a value, and the value has that type. So no
accepted expression fails at run time. The induction is on the expression, and needs scopes
that have the values they promise. -/
theorem infer_sound {values : ValueScope} {types : TypeScope} (hFits : values.Fits types) :
    (e : Expression) → {type : ValueType} → e.infer types = .ok type →
      ∃ v, e.eval values = .ok v ∧ v.type = type
  | const v, type, h => by
      cases h
      exact ⟨v, rfl, rfl⟩
  | var name, type, h => by
      rw [infer] at h
      split at h
      · rename_i t hType
        cases h
        obtain ⟨v, hValue, hv⟩ := hFits name _ hType
        exact ⟨v, by rw [eval, hValue], hv⟩
      · cases h
  | neg e, type, h => by
      obtain ⟨v, hEval, rfl⟩ := infer_sound hFits e h
      exact ⟨v.map (-·), by rw [eval, hEval], Value.type_ofFn _ _⟩
  | binary op a b, type, h => by
      rw [infer] at h
      split at h
      · cases h
      · rename_i s hLeft
        split at h
        · cases h
        · rename_i t hRight
          obtain ⟨v, hEvalLeft, rfl⟩ := infer_sound hFits a hLeft
          obtain ⟨w, hEvalRight, rfl⟩ := infer_sound hFits b hRight
          exact ⟨.zip type op.apply v w, by simp only [eval, hEvalLeft, hEvalRight, h],
            Value.type_ofFn _ _⟩
  | swizzle e selection, type, h => by
      rw [infer] at h
      split at h
      · cases h
      · rename_i base hBase
        obtain ⟨v, hEval, rfl⟩ := infer_sound hFits e hBase
        obtain ⟨w, hList, hType, _⟩ := exists_ofList?_of_swizzleType h
        exact ⟨w, by simp only [eval, hEval, hList], hType⟩
  | call function args, type, h => by
      rw [infer] at h
      split at h
      · cases h
      · rename_i f hFunction
        split at h
        · cases h
        · rename_i types hTypes
          obtain ⟨values, hEval, rfl⟩ := inferAll_sound hFits args hTypes
          obtain ⟨v, hApply, hType⟩ := applyBuiltin_sound function (callTyped_of_callType h)
          exact ⟨v, by simp only [eval, hFunction, hEval, h, hApply], hType⟩

/-- Arguments with static types have values of these types. -/
theorem inferAll_sound {values : ValueScope} {types : TypeScope} (hFits : values.Fits types) :
    (args : List Expression) → {found : List ValueType} → inferAll types args = .ok found →
      ∃ vs, evalAll values args = .ok vs ∧ vs.map Value.type = found
  | [], found, h => by
      cases h
      exact ⟨[], rfl, rfl⟩
  | e :: rest, found, h => by
      rw [inferAll] at h
      split at h
      · cases h
      · rename_i t hFirst
        split at h
        · cases h
        · rename_i more hRest
          cases h
          obtain ⟨v, hEval, rfl⟩ := infer_sound hFits e hFirst
          obtain ⟨vs, hEvalRest, rfl⟩ := inferAll_sound hFits rest hRest
          exact ⟨v :: vs, by simp only [evalAll, hEval, hEvalRest], rfl⟩

end

end Expression

end PathTracer
