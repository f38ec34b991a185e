import PathTracer.Proofs.Expression.Identifiers
import PathTracer.Proofs.Expression.Padding

/-! Evaluation whose reads are checked. A read outside of an argument list or of the
four lanes of a value fails, and with it the evaluation. No evaluation fails, and all
of them give what is evaluated without the checks: the numbers of arguments and the
types of values keep every read within its range. -/
namespace PathTracer

/-! ### Lanes -/

/-- The vector with another number in a lane, if there is such a lane. -/
def Vec4.trySet {α : Type} (v : Vec4 α) (index : Nat) (x : α) : Option (Vec4 α) :=
  match index with
  | 0 => some { v with x }
  | 1 => some { v with y := x }
  | 2 => some { v with z := x }
  | 3 => some { v with w := x }
  | _ => none

namespace Value

/-- The number in a lane, if there is such a lane. -/
def tryLane (v : Value) (index : Nat) : Option Float32 :=
  v.lanes.toList[index]?

/-- The number in a lane of a value where a scalar fills all positions. -/
def tryBroadcastLane (v : Value) (index : Nat) : Option Float32 :=
  if v.type = .float1 then v.tryLane 0 else v.tryLane index

/-- The lanes of a type written one after the other, over zeros. -/
def tryFill (type : ValueType) (f : Nat → Option Float32) : Option Value := do
  let lanes ← (List.range type.components).foldlM
    (fun lanes index => do lanes.trySet index (← f index)) (Vec4.splat 0.0)
  return ⟨type, lanes⟩

def trySplat (type : ValueType) (x : Float32) : Option Value :=
  tryFill type fun _ => some x

/-- The value with these components, copied one by one. -/
def tryOfList (xs : List Float32) : Option (Option Value) :=
  match ValueType.ofComponents? xs.length with
  | none => some none
  | some type => (tryFill type (xs[·]?)).map some

/-- The lanes that the type of a value counts, if there are so many. -/
def tryComponents (v : Value) : Option (List Float32) :=
  if v.type.components ≤ v.lanes.toList.length then some v.components else none

def tryZip3 (type : ValueType) (f : Float32 → Float32 → Float32 → Float32) (a b c : Value) :
    Option Value :=
  tryFill type fun index => do
    return f (← a.tryBroadcastLane index) (← b.tryBroadcastLane index) (← c.tryBroadcastLane index)

def tryZip (type : ValueType) (f : Float32 → Float32 → Float32) (a b : Value) : Option Value :=
  tryZip3 type (fun x y _ => f x y) a b b

theorem tryLane_index (v : Value) (c : Component) : v.tryLane c.index = some (v.lanes.lane c) := by
  cases c <;> rfl

theorem tryBroadcastLane_index (v : Value) (c : Component) :
    v.tryBroadcastLane c.index = some (v.broadcastLane c) := by
  unfold tryBroadcastLane broadcastLane
  split
  · exact v.tryLane_index .x
  · exact v.tryLane_index c

/-- Writing the lanes of a type fails nowhere if there is a number for each. -/
theorem tryFill_eq (type : ValueType) {f : Nat → Option Float32} {g : Component → Float32}
    (h : ∀ c : Component, c.index < type.components → f c.index = some (g c)) :
    tryFill type f = some (ofFn type g) := by
  have hX := h .x
  have hY := h .y
  have hZ := h .z
  have hW := h .w
  cases type <;>
    simp_all [tryFill, Component.index, ValueType.components, List.range_succ, Vec4.trySet,
      Vec4.splat, ofFn]

theorem trySplat_eq (type : ValueType) (x : Float32) : trySplat type x = some (splat type x) :=
  tryFill_eq type fun _ _ => rfl

theorem tryZip3_eq (type : ValueType) (f : Float32 → Float32 → Float32 → Float32) (a b c : Value) :
    tryZip3 type f a b c = some (zip3 type f a b c) := by
  refine tryFill_eq type fun i _ => ?_
  simp [tryBroadcastLane_index]

theorem tryZip_eq (type : ValueType) (f : Float32 → Float32 → Float32) (a b : Value) :
    tryZip type f a b = some (zip type f a b) :=
  tryZip3_eq type _ a b b

theorem tryComponents_eq (v : Value) : v.tryComponents = some v.components := by
  have hLanes : v.type.components ≤ v.lanes.toList.length := by
    change v.type.components ≤ 4
    cases v.type <;> decide
  rw [tryComponents, if_pos hLanes]

theorem tryOfList_eq (xs : List Float32) : tryOfList xs = some (ofList? xs) := by
  match xs with
  | [] | [_] | [_, _] | [_, _, _] | [_, _, _, _] => rfl
  | _ :: _ :: _ :: _ :: _ :: _ => rfl

end Value

namespace Expression

/-! ### Calls -/

/-- What a function does with as many arguments as it has, and its fault otherwise. -/
def tryArity {α : Type} (function : String) (actual expected : Nat)
    (result : Option (Except Defect α)) : Option (Except Defect α) :=
  if actual = expected then result else some (wrongArity function expected actual)

/-- The common type of operands. The first is read, and joined with the others. -/
def tryBroadcastAll (types : List ValueType) : Option (Except Defect ValueType) := do
  let first ← types[0]?
  return broadcastAll first (types.drop 1)

/-- The first of some types, if there are so many. -/
def tryFirst (count : Nat) (types : List ValueType) : Option (List ValueType) :=
  if count ≤ types.length then some (types.take count) else none

def tryCallType (function : String) (f : Builtin) (types : List ValueType) :
    Option (Except Defect ValueType) :=
  match f with
  | .unary _ | .normalize => tryArity function types.length 1 do
    return .ok (← types[0]?)
  | .binary _ => tryArity function types.length 2 (tryBroadcastAll types)
  | .clamp | .smoothstep => tryArity function types.length 3 (tryBroadcastAll types)
  | .mix => tryArity function types.length 3 do
    match ← tryBroadcastAll (← tryFirst 2 types) with
    | .error d => return .error d
    | .ok type =>
      let factor ← types[2]?
      return if factor.assignableTo type then .ok type else mismatch type.name factor.name
  | .length => tryArity function types.length 1 (some (.ok .float1))
  | .dot => tryArity function types.length 2 do
    let s ← types[0]?
    let t ← types[1]?
    return if s = t then .ok .float1 else mismatch s.name t.name
  | .cross => tryArity function types.length 2 do
    match types.find? (· ≠ .float3) with
    | some t => return mismatch "Float3" t.name
    | none => return .ok .float3
  | .construct type => do
    let total := totalComponents types
    let isScalar ← if types.length = 1 then (types[0]?).map fun t => decide (t = .float1)
      else some false
    return if total = type.components || isScalar then .ok type
      else mismatch s!"{type.components} components for {function}" (toString total)

/-- A value from parts whose components follow each other. -/
def tryJoin (type : ValueType) (parts : List Value) : Option (Except Defect Value) := do
  let components := (← parts.mapM Value.tryComponents).flatten
  match ← Value.tryOfList components with
  | some v => some (.ok v)
  | none => some (mismatch type.name (toString components.length))

def tryConstruct (type : ValueType) (parts : List Value) : Option (Except Defect Value) :=
  if parts.length = 1 then do
    let v ← parts[0]?
    if v.type = .float1 then (Value.trySplat type (← v.tryLane 0)).map .ok
    else tryJoin type parts
  else tryJoin type parts

def tryDotProduct (a b : Value) : Option Float32 := do
  let xs ← a.tryComponents
  let ys ← b.tryComponents
  some (sumOf (List.zipWith (· * ·) xs ys))

/-- Two arguments read by their places. -/
def tryPair (args : List Value) : Option (Value × Value) := do
  let a ← args[0]?
  let b ← args[1]?
  some (a, b)

/-- Three arguments combined component by component. -/
def tryThree (type : ValueType) (f : Float32 → Float32 → Float32 → Float32) (args : List Value) :
    Option (Except Defect Value) := do
  let a ← args[0]?
  let b ← args[1]?
  let c ← args[2]?
  (Value.tryZip3 type f a b c).map .ok

/-- The value of a call whose arguments are read by their places. -/
def tryApply (f : Builtin) (type : ValueType) (args : List Value) :
    Option (Except Defect Value) :=
  match f with
  | .unary g => (args[0]?).map fun v => .ok (v.map g.apply)
  | .binary g => do
    let (a, b) ← tryPair args
    (Value.tryZip type g.apply a b).map .ok
  | .clamp => tryThree type clamp args
  | .smoothstep => tryThree type smoothstep args
  | .mix => tryThree type mix args
  | .length => do
    let v ← args[0]?
    let square ← tryDotProduct v v
    some (.ok (.float1 square.sqrt))
  | .normalize => do
    let v ← args[0]?
    let square ← tryDotProduct v v
    let length := square.sqrt
    some (.ok (v.map (· / length)))
  | .dot => do
    let (a, b) ← tryPair args
    (tryDotProduct a b).map fun x => .ok (.float1 x)
  | .cross => do
    let (a, b) ← tryPair args
    some (.ok (.float3 (a.asVec3.cross b.asVec3)))
  | .construct type => tryConstruct type args

/-- Calls with as many arguments as they have read no other ones. -/
theorem tryCallType_eq (function : String) (f : Builtin) (types : List ValueType) :
    tryCallType function f types = some (callType function f types) := by
  cases f with
  | unary g => rcases types with _ | ⟨s, _ | ⟨t, more⟩⟩ <;> rfl
  | normalize => rcases types with _ | ⟨s, _ | ⟨t, more⟩⟩ <;> rfl
  | length => rcases types with _ | ⟨s, _ | ⟨t, more⟩⟩ <;> rfl
  | binary g => rcases types with _ | ⟨s, _ | ⟨t, _ | ⟨u, more⟩⟩⟩ <;> rfl
  | dot => rcases types with _ | ⟨s, _ | ⟨t, _ | ⟨u, more⟩⟩⟩ <;> rfl
  | clamp => rcases types with _ | ⟨s, _ | ⟨t, _ | ⟨u, _ | ⟨v, more⟩⟩⟩⟩ <;> rfl
  | smoothstep => rcases types with _ | ⟨s, _ | ⟨t, _ | ⟨u, _ | ⟨v, more⟩⟩⟩⟩ <;> rfl
  | cross =>
      rcases types with _ | ⟨s, _ | ⟨t, _ | ⟨u, more⟩⟩⟩
      · rfl
      · rfl
      · cases s <;> cases t <;> rfl
      · rfl
  | mix =>
      rcases types with _ | ⟨s, _ | ⟨t, _ | ⟨u, _ | ⟨v, more⟩⟩⟩⟩
      · rfl
      · rfl
      · rfl
      · have hJoin : (tryFirst 2 [s, t, u]).bind tryBroadcastAll = some (broadcastAll s [t]) := rfl
        simp only [tryCallType, callType, tryArity, Option.bind_eq_bind, ← Option.bind_assoc, hJoin,
          List.length_cons, List.length_nil, Option.bind_some]
        cases broadcastAll s [t] <;> rfl
      · rfl
  | construct type =>
      rcases types with _ | ⟨s, _ | ⟨t, more⟩⟩ <;> simp [tryCallType, callType]

theorem tryDotProduct_eq (a b : Value) : tryDotProduct a b = some (dotProduct a b) := by
  simp [tryDotProduct, dotProduct, Value.tryComponents_eq]

/-- Joining components reads no lane beyond the types of the parts. -/
theorem tryJoin_eq {type : ValueType} {parts : List Value}
    (h : ∀ lanes, parts ≠ [⟨.float1, lanes⟩]) :
    tryJoin type parts = some (construct type parts) := by
  have hComponents : parts.mapM Value.tryComponents = some (parts.map Value.components) := by
    rw [funext Value.tryComponents_eq]
    exact List.mapM_pure
  have hConstruct : construct type parts =
      match Value.ofList? (parts.flatMap Value.components) with
      | some v => .ok v
      | none => mismatch type.name (toString (parts.flatMap Value.components).length) := by
    unfold construct
    split
    · exact absurd rfl (h _)
    · rfl
  rw [hConstruct, tryJoin, hComponents, List.flatMap_def]
  simp only [Value.tryOfList_eq, Option.bind_eq_bind, Option.bind_some]
  cases Value.ofList? (parts.map Value.components).flatten <;> rfl

/-- Constructing a vector reads nothing out of range, with any number of parts. -/
theorem tryConstruct_eq (type : ValueType) (parts : List Value) :
    tryConstruct type parts = some (construct type parts) := by
  have hMany (h : ∀ lanes, parts ≠ [⟨.float1, lanes⟩])
      (hSame : tryConstruct type parts = tryJoin type parts) :
      tryConstruct type parts = some (construct type parts) :=
    hSame.trans (tryJoin_eq h)
  rcases parts with _ | ⟨⟨first, lanes⟩, _ | ⟨second, rest⟩⟩
  · exact hMany (by simp) rfl
  · cases first with
    | float1 =>
        change (Value.trySplat type lanes.x).map Except.ok = _
        rw [Value.trySplat_eq]
        rfl
    | _ => exact hMany (by simp) rfl
  · exact hMany (by simp) rfl

/-- A call that the checker accepts reads no argument that is not there. -/
theorem tryApply_eq (function : String) {f : Builtin} {type : ValueType} {args : List Value}
    (h : CallTyped f (args.map Value.type) type) :
    tryApply f type args = some (applyBuiltin function f type args) := by
  generalize hTypes : args.map Value.type = types at h
  cases h with
  | unary f t =>
      obtain ⟨v, rfl, rfl⟩ := List.map_eq_singleton_iff.mp hTypes
      rfl
  | normalize t =>
      obtain ⟨v, rfl, rfl⟩ := List.map_eq_singleton_iff.mp hTypes
      simp [tryApply, applyBuiltin, tryDotProduct_eq, vectorLength]
  | length t =>
      obtain ⟨v, rfl, rfl⟩ := List.map_eq_singleton_iff.mp hTypes
      simp [tryApply, applyBuiltin, tryDotProduct_eq, vectorLength]
  | binary f hJoin =>
      obtain ⟨a, b, rfl⟩ := List.length_eq_two.mp (by simpa using congrArg List.length hTypes)
      simp [tryApply, applyBuiltin, tryPair, Value.tryZip_eq]
  | dot t =>
      obtain ⟨a, b, rfl⟩ := List.length_eq_two.mp (by simpa using congrArg List.length hTypes)
      simp [tryApply, applyBuiltin, tryPair, tryDotProduct_eq]
  | cross =>
      obtain ⟨a, b, rfl⟩ := List.length_eq_two.mp (by simpa using congrArg List.length hTypes)
      rfl
  | clamp hJoin =>
      obtain ⟨a, b, c, rfl⟩ := List.length_eq_three.mp (by simpa using congrArg List.length hTypes)
      simp [tryApply, applyBuiltin, tryThree, Value.tryZip3_eq]
  | smoothstep hJoin =>
      obtain ⟨a, b, c, rfl⟩ := List.length_eq_three.mp (by simpa using congrArg List.length hTypes)
      simp [tryApply, applyBuiltin, tryThree, Value.tryZip3_eq]
  | mix hJoin hFactor =>
      obtain ⟨a, b, c, rfl⟩ := List.length_eq_three.mp (by simpa using congrArg List.length hTypes)
      simp [tryApply, applyBuiltin, tryThree, Value.tryZip3_eq]
  | splat type => exact tryConstruct_eq type args
  | construct type hTotal => exact tryConstruct_eq type args

/-! ### Expressions -/

mutual

/-- The value of an expression, with all reads checked. -/
def tryEval (scope : ValueScope) : Expression → Option (Except Defect Value)
  | const v => some (.ok v)
  | var name =>
    match scope name with
    | some v => some (.ok v)
    | none => some (.error (.unknownVariable name))
  | neg e => do
    match ← tryEval scope e with
    | .error d => return .error d
    | .ok v => return .ok (v.map (-·))
  | binary op a b => do
    match ← tryEval scope a with
    | .error d => return .error d
    | .ok v =>
      match ← tryEval scope b with
      | .error d => return .error d
      | .ok w =>
        match broadcastTypes v.type w.type with
        | .error d => return .error d
        | .ok type => return .ok (← Value.tryZip type op.apply v w)
  | swizzle e selection => do
    match ← tryEval scope e with
    | .error d => return .error d
    | .ok base =>
      match ← Value.tryOfList (← selection.mapM fun c => base.tryLane c.index) with
      | some v => return .ok v
      | none => return mismatch "1..4 components" (toString selection.length)
  | call function args =>
    match Builtin.ofName? function with
    | none => some (.error (.unknownFunction function))
    | some f => do
      match ← tryEvalAll scope args with
      | .error d => return .error d
      | .ok values =>
        match ← tryCallType function f (values.map Value.type) with
        | .error d => return .error d
        | .ok type => tryApply f type values

def tryEvalAll (scope : ValueScope) : List Expression → Option (Except Defect (List Value))
  | [] => some (.ok [])
  | e :: rest => do
    match ← tryEval scope e with
    | .error d => return .error d
    | .ok v =>
      match ← tryEvalAll scope rest with
      | .error d => return .error d
      | .ok values => return .ok (v :: values)

end

theorem mapM_tryLane (v : Value) (selection : List Component) :
    (selection.mapM fun c => v.tryLane c.index) = some (selection.map v.lanes.lane) := by
  rw [funext v.tryLane_index]
  exact List.mapM_pure

mutual

/-- No read of an evaluation fails. -/
theorem tryEval_eq (scope : ValueScope) : (e : Expression) → tryEval scope e = some (e.eval scope)
  | const v => rfl
  | var name => by
      rw [tryEval, eval]
      cases scope name <;> rfl
  | neg e => by
      rw [tryEval, eval, tryEval_eq scope e]
      cases e.eval scope <;> rfl
  | binary op a b => by
      rw [tryEval, eval, tryEval_eq scope a, tryEval_eq scope b]
      cases a.eval scope with
      | error d => rfl
      | ok v =>
          cases b.eval scope with
          | error d => rfl
          | ok w =>
              dsimp only [Option.bind_eq_bind, Option.bind_some]
              cases broadcastTypes v.type w.type with
              | error d => rfl
              | ok type => simp [Value.tryZip_eq]
  | swizzle e selection => by
      rw [tryEval, eval, tryEval_eq scope e]
      cases e.eval scope with
      | error d => rfl
      | ok base =>
          simp only [Option.bind_eq_bind, Option.bind_some, mapM_tryLane, Value.tryOfList_eq]
          cases Value.ofList? (selection.map base.lanes.lane) <;> rfl
  | call function args => by
      rw [tryEval, eval]
      cases Builtin.ofName? function with
      | none => rfl
      | some f =>
          dsimp only
          rw [tryEvalAll_eq scope args]
          cases evalAll scope args with
          | error d => rfl
          | ok values =>
              simp only [Option.bind_eq_bind, Option.bind_some, tryCallType_eq]
              cases hType : callType function f (values.map Value.type) with
              | error d => rfl
              | ok type => exact tryApply_eq function (callTyped_of_callType hType)

/-- Evaluating arguments reads nothing out of range, one after the other. -/
theorem tryEvalAll_eq (scope : ValueScope) :
    (args : List Expression) → tryEvalAll scope args = some (evalAll scope args)
  | [] => rfl
  | e :: rest => by
      rw [tryEvalAll, evalAll, tryEval_eq scope e, tryEvalAll_eq scope rest]
      cases e.eval scope with
      | error d => rfl
      | ok v => cases evalAll scope rest <;> rfl

end

/-! ### Lanes beyond a type -/

end Expression

/-- Whether the lanes beyond the type of a value are zeros, of either sign. -/
def Value.IsZeroBeyond (v : Value) : Prop :=
  ∀ c : Component, v.type.components ≤ c.index → (v.lanes.lane c == 0.0) = true

theorem Value.Padded.isZeroBeyond {v : Value} (h : v.Padded) : v.IsZeroBeyond := by
  have hZero : ((0.0 : Float32) == 0.0) = true := by decide
  unfold Value.Padded at h
  obtain ⟨type, lanes⟩ := v
  intro c hc
  rw [← h]
  cases type <;> cases c <;>
    first
    | exact hZero
    | exact absurd hc (by simp [ValueType.components, Component.index])

namespace Expression

/-- The evaluation of what a text writes reads nothing outside of an argument list or of the
four lanes of a value. Where the values of a scope have zeros beyond their types, the result
has zeros beyond its type, whatever numbers its components are. The checked evaluation stops
at the first index that is out of range. That it never does is a property of what the parser
makes, since a tree of its own could select anything. -/
theorem eval_within_of_parse {source : String} {e : Expression} (h : parse source = .ok e)
    {scope : ValueScope} (hScope : ∀ name v, scope name = some v → v.IsZeroBeyond) :
    tryEval scope e = some (e.eval scope) ∧ ∀ v, e.eval scope = .ok v → v.IsZeroBeyond := by
  refine ⟨tryEval_eq scope e, fun v hEval => ?_⟩
  obtain hPadded | ⟨name, hValue⟩ := (padded_of_parse h).eval_cases hEval
  · exact hPadded.isZeroBeyond
  · exact hScope name v hValue

set_option maxRecDepth 2000 in
/-- A number that is none is selected from a pair, whose other lanes are zeros. -/
theorem eval_within_of_parse_pair :
    let nan := Float32.ofBits 0x7fc00000
    let scope : ValueScope := fun name => if name = "p" then some (.float2 ⟨nan, nan⟩) else none
    ∃ e, parse "p.x" = .ok e ∧ tryEval scope e = some (.ok (.float1 nan)) ∧
      (Value.float1 nan).IsZeroBeyond := by
  intro nan scope
  have hParse : parse "p.x" = .ok (.swizzle (.var "p") [.x]) :=
    parse_selection "p" "x" (by decide) (by decide) rfl
  have hScope : ∀ name v, scope name = some v → v.IsZeroBeyond := by
    intro name v hValue
    obtain ⟨-, rfl⟩ : name = "p" ∧ .float2 ⟨nan, nan⟩ = v := by simpa [scope] using hValue
    exact Value.Padded.isZeroBeyond rfl
  obtain ⟨hReads, hZeros⟩ := eval_within_of_parse hParse hScope
  have hEval : (swizzle (var "p") [.x]).eval scope = .ok (.float1 nan) := rfl
  exact ⟨_, hParse, hEval ▸ hReads, hZeros _ hEval⟩

end Expression

end PathTracer
