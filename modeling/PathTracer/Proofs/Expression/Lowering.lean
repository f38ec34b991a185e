import Mathlib.Data.List.Forall2
import PathTracer.Expression.Lowering
import PathTracer.Proofs.Expression.Typing
import PathTracer.Proofs.Shader.Execution

/-! Shader code of an expression has the type and the value of the expression. -/
namespace PathTracer

/-- The numbers of a value at a wider type. A scalar fills all positions. -/
def Value.lanesAs (v : Value) (type : ValueType) : List Float32 :=
  type.positions.map v.broadcastLane

namespace Value

/-- A value that is widened to a type has as many numbers as the type. -/
@[simp] theorem length_lanesAs (v : Value) (type : ValueType) :
    (v.lanesAs type).length = type.components := by
  rw [lanesAs, List.length_map, ValueType.length_positions]

/-- Widened to its own type, a value is its components. -/
theorem lanesAs_type (v : Value) : v.lanesAs v.type = v.components := by
  obtain ⟨type, lanes⟩ := v
  cases type <;> rfl

/-- A scalar at any type is that scalar over and over. -/
theorem lanesAs_of_float1 {v : Value} (h : v.type = .float1) (type : ValueType) :
    v.lanesAs type = List.replicate type.components v.lanes.x := by
  obtain ⟨found, lanes⟩ := v
  cases h
  cases type <;> rfl

/-- A scalar is its first lane. -/
theorem components_of_float1 {v : Value} (h : v.type = .float1) : v.components = [v.lanes.x] := by
  rw [← lanesAs_type, h, lanesAs_of_float1 h]
  rfl

/-- Two values are combined number by number after both are widened. -/
theorem components_zip (type : ValueType) (f : Float32 → Float32 → Float32) (a b : Value) :
    (zip type f a b).components = List.zipWith f (a.lanesAs type) (b.lanesAs type) := by
  rw [zip, components_ofFn, lanesAs, lanesAs, List.zipWith_map, List.zipWith_self]

/-- Three values are combined number by number after all are widened. -/
theorem components_zip3 (type : ValueType) (f : Float32 → Float32 → Float32 → Float32)
    (a b c : Value) :
    (zip3 type f a b c).components =
      List.zipWith (fun g x => g x) (List.zipWith f (a.lanesAs type) (b.lanesAs type))
        (c.lanesAs type) := by
  rw [zip3, components_ofFn, lanesAs, lanesAs, lanesAs]
  cases type <;> rfl

/-- A function on numbers is applied to each component. -/
@[simp] theorem components_map (f : Float32 → Float32) (v : Value) :
    (v.map f).components = v.components.map f := by
  rw [map, components_ofFn, components_eq_map, List.map_map]
  rfl

end Value

/-- A type is only assigned to types of at least as many numbers. -/
theorem ValueType.components_le_of_assignableTo {s t : ValueType} (h : s.assignableTo t = true) :
    s.components ≤ t.components := by
  rcases assignableTo_iff.mp h with rfl | rfl
  · exact Nat.le_refl _
  · cases t <;> decide

/-- The wider operand of two has as many components as their join. -/
theorem ValueType.Joins.max_components {s t u : ValueType} (h : Joins [s, t] u) :
    max s.components t.components = u.components := by
  have hLeft := components_le_of_assignableTo (h.assignable s (by simp))
  have hRight := components_le_of_assignableTo (h.assignable t (by simp))
  have hMem := h.mem
  simp only [List.mem_cons, List.not_mem_nil, or_false] at hMem
  rcases hMem with rfl | rfl <;> omega

namespace Shader.Lanes

/-- A list of the right length is not changed to fit. -/
theorem fit_length (lanes : List Float32) : fit lanes.length lanes = some lanes := by
  simp [fit]

/-- What was widened to a type fits the type. -/
theorem fit_lanesAs (v : Value) (type : ValueType) :
    fit type.components (v.lanesAs type) = some (v.lanesAs type) := by
  rw [← v.length_lanesAs type]
  exact fit_length _

/-- Where a type may be assigned, the components are widened as the shader widens them: a
scalar is repeated, and nothing else changes. -/
theorem fit_components {v : Value} {type : ValueType} (h : v.type.assignableTo type = true) :
    fit type.components v.components = some (v.lanesAs type) := by
  rcases ValueType.assignableTo_iff.mp h with rfl | hScalar
  · rw [v.lanesAs_type, ← v.length_components]
    exact fit_length _
  · rw [Value.components_of_float1 hScalar, Value.lanesAs_of_float1 hScalar]
    unfold fit
    split
    · rename_i hOne
      rw [← hOne]
      rfl
    · rfl

/-- Operands that fit a type are combined as values of that type. -/
theorem zip_of_fit {a b : List Float32} {v w : Value} {type : ValueType}
    (f : Float32 → Float32 → Float32) (hWidth : max a.length b.length = type.components)
    (hLeft : fit type.components a = some (v.lanesAs type))
    (hRight : fit type.components b = some (w.lanesAs type)) :
    zip f a b = some (Value.zip type f v w).components := by
  simp only [zip, hWidth, hLeft, hRight, Option.bind_some, Option.map_some, Value.components_zip]

/-- Three lists that fit one width are combined as the three values are. -/
theorem zip3_of_fit {a b c : List Float32} {u v w : Value} {type : ValueType}
    (f : Float32 → Float32 → Float32 → Float32)
    (hWidth : max a.length (max b.length c.length) = type.components)
    (hFirst : fit type.components a = some (u.lanesAs type))
    (hSecond : fit type.components b = some (v.lanesAs type))
    (hThird : fit type.components c = some (w.lanesAs type)) :
    zip3 f a b c = some (Value.zip3 type f u v w).components := by
  simp only [zip3, hWidth, hFirst, hSecond, hThird, Option.bind_some, Option.map_some,
    Value.components_zip3]

/-- The shader combines the components of two values as the evaluator combines the values.
One of them may be a scalar. -/
theorem zip_components {v w : Value} {type : ValueType} (f : Float32 → Float32 → Float32)
    (hJoin : ValueType.Joins [v.type, w.type] type) :
    zip f v.components w.components = some (Value.zip type f v w).components := by
  refine zip_of_fit f ?_ (fit_components ?_) (fit_components ?_)
  · rw [Value.length_components, Value.length_components, hJoin.max_components]
  · exact hJoin.assignable v.type (by simp)
  · exact hJoin.assignable w.type (by simp)

/-- What was widened before is combined alike. -/
theorem zip_lanesAs (v w : Value) (type : ValueType) (f : Float32 → Float32 → Float32) :
    zip f (v.lanesAs type) (w.lanesAs type) = some (Value.zip type f v w).components :=
  zip_of_fit f (by simp) (fit_lanesAs v type) (fit_lanesAs w type)

/-- Three operands that were widened before are combined alike. -/
theorem zip3_lanesAs (u v w : Value) (type : ValueType)
    (f : Float32 → Float32 → Float32 → Float32) :
    zip3 f (u.lanesAs type) (v.lanesAs type) (w.lanesAs type) =
      some (Value.zip3 type f u v w).components :=
  zip3_of_fit f (by simp) (fit_lanesAs u type) (fit_lanesAs v type) (fit_lanesAs w type)

/-- Letters name the positions that they come from. -/
theorem ofLetter?_letter (c : Component) : Component.ofLetter? c.letter = some c := by
  cases c <;> rfl

/-- A selection within the components of a value selects the same numbers from
its lanes. -/
theorem select_components {v : Value} {selection : List Component}
    (h : ∀ c ∈ selection, c.index < v.type.components) :
    select v.components (selection.map Component.letter) = some (selection.map v.lanes.lane) := by
  have hLane : ∀ c ∈ selection, v.components[c.index]? = some (v.lanes.lane c) := by
    intro c hc
    have hIndex := h c hc
    obtain ⟨type, lanes⟩ := v
    cases c <;> cases type <;> first | rfl | simp [ValueType.components, Component.index] at hIndex
  unfold select
  induction selection with
  | nil => rfl
  | cons c rest ih =>
      have hRest := ih (fun d hd => h d (by simp [hd])) (fun d hd => hLane d (by simp [hd]))
      rw [List.map_cons, List.mapM_cons, hRest, ofLetter?_letter, Option.bind_some,
        hLane c (by simp)]
      rfl

/-- Parts put together in the shader are the components of the value. -/
theorem construct_components {type : ValueType} {parts : List Value} {v : Value}
    (hParts : Expression.Constructs type parts) (h : Expression.construct type parts = .ok v) :
    construct type.components (parts.map Value.components) = some v.components := by
  unfold Expression.construct at h
  split at h
  · rename_i lanes
    cases h
    cases type <;> rfl
  · rename_i hMany
    have hLength := hParts.length_flatMap hMany
    have hFlatten : (parts.map Value.components).flatten = parts.flatMap Value.components := rfl
    dsimp only at h
    split at h
    · rename_i w hList
      cases h
      unfold construct
      split
      · rename_i x hSingle
        obtain ⟨part, rfl, hPart⟩ := List.map_eq_singleton_iff.mp hSingle
        obtain ⟨found, lanes⟩ := part
        cases found <;> cases hPart
        exact absurd rfl (hMany lanes)
      · rw [hFlatten, if_pos hLength, Value.components_of_ofList? hList]
    · cases h

end Shader.Lanes

namespace Expression

open Shader (Library Env Datum)

/-- Code that has a value and the type of that value. -/
structure Shows (lib : Library) (env : Env) (code : Shader.Expr × ValueType) (v : Value) :
    Prop where
  type : v.type = code.2
  eval : code.1.eval lib env = some (.floats v.components)

/-- Code for the names of a scope reads their values. -/
def LowerScope.Reads (scope : LowerScope) (values : ValueScope) (lib : Library) (env : Env) :
    Prop :=
  ∀ name type, scope.types name = some type →
    ∃ v, values name = some v ∧ Shows lib env (scope.code name, type) v

/-- The literal that is written for a value shows the value. -/
theorem Shows.toShader (lib : Library) (env : Env) (v : Value) :
    Shows lib env (v.toShader, v.type) v := by
  refine ⟨rfl, ?_⟩
  obtain ⟨type, lanes⟩ := v
  cases type <;> rfl

/-- Widened code shows the same value, in the lanes of the wider type. -/
theorem Shows.eval_splatTo {lib : Library} {env : Env} {code : Shader.Expr × ValueType} {v : Value}
    {type : ValueType} (h : Shows lib env code v) (hFits : v.type.assignableTo type = true) :
    (splatTo type code).eval lib env = some (.floats (v.lanesAs type)) := by
  obtain ⟨x, found⟩ := code
  obtain ⟨rfl, hEval⟩ := h
  unfold splatTo
  split
  · rename_i hSame
    simp only [Bool.or_eq_true, decide_eq_true_eq] at hSame
    have hType : v.type = type := by
      rcases ValueType.assignableTo_iff.mp hFits with h | h
      · exact h
      · exact hSame.elim id fun hType => h.trans hType.symm
    rw [hEval, ← hType, v.lanesAs_type]
  · rename_i hOther
    have hScalar : v.type = .float1 := by
      rcases ValueType.assignableTo_iff.mp hFits with h | h
      · simp [h] at hOther
      · exact h
    rw [Value.components_of_float1 hScalar] at hEval
    rw [Value.lanesAs_of_float1 hScalar]
    cases type <;> simp [Shader.Expr.eval, Shader.Expr.evalAll, hEval, ValueType.shaderType,
      Shader.Ty.floats, Shader.Ty.width?, Datum.lanes?, Shader.Lanes.construct,
      ValueType.components]

/-- Arguments that show values evaluate to their components, in their order. -/
theorem Shows.evalAll {lib : Library} {env : Env} {lowered : List (Shader.Expr × ValueType)}
    {vs : List Value} (h : List.Forall₂ (Shows lib env) lowered vs) :
    Shader.Expr.evalAll lib env (lowered.map Prod.fst) =
      some ((vs.map Value.components).map .floats) := by
  induction h with
  | nil => rfl
  | cons hFirst _ ih => simp [Shader.Expr.evalAll, hFirst.eval, ih]

/-- Scalars that are written as vectors evaluate to widened values. -/
theorem Shows.evalAll_splatTo {lib : Library} {env : Env}
    {lowered : List (Shader.Expr × ValueType)} {vs : List Value} {type : ValueType}
    (h : List.Forall₂ (Shows lib env) lowered vs)
    (hFits : ∀ t ∈ vs.map Value.type, t.assignableTo type = true) :
    Shader.Expr.evalAll lib env (lowered.map (splatTo type)) =
      some ((vs.map (·.lanesAs type)).map .floats) := by
  induction h with
  | nil => rfl
  | cons hFirst _ ih =>
      rw [List.map_cons, List.forall_mem_cons] at hFits
      simp [Shader.Expr.evalAll, hFirst.eval_splatTo hFits.1, ih hFits.2]

/-- Code comes with the types of what it shows. -/
theorem Shows.map_type {lib : Library} {env : Env} {lowered : List (Shader.Expr × ValueType)}
    {vs : List Value} (h : List.Forall₂ (Shows lib env) lowered vs) :
    vs.map Value.type = lowered.map Prod.snd := by
  induction h with
  | nil => rfl
  | cons hFirst _ ih => rw [List.map_cons, List.map_cons, hFirst.type, ih]

/-- Lists of floats are lists of lanes. -/
theorem mapM_lanes? (parts : List (List Float32)) :
    (parts.map Datum.floats).mapM Datum.lanes? = some parts := by
  induction parts with
  | nil => rfl
  | cons a rest ih => simp [Datum.lanes?, ih]

/-- A builtin is called on the numbers of its arguments. -/
theorem eval_call {lib : Library} {env : Env} {function : String} {f : Builtin}
    {args : List Shader.Expr} {parts : List (List Float32)} {lanes : List Float32}
    (hName : Builtin.ofName? function = some f)
    (hArgs : Shader.Expr.evalAll lib env args = some (parts.map .floats))
    (hApply : Shader.Lanes.applyBuiltin f parts = some lanes) :
    (Shader.Expr.call function args).eval lib env = some (.floats lanes) := by
  rw [Shader.Expr.eval, hArgs, Option.bind_some, Library.apply, hName]
  dsimp only
  rw [mapM_lanes?, Option.bind_some, hApply, Option.map_some]

/-- A vector is made of the numbers of its arguments. -/
theorem eval_construct {lib : Library} {env : Env} {type : ValueType} {args : List Shader.Expr}
    {parts : List (List Float32)} {lanes : List Float32}
    (hArgs : Shader.Expr.evalAll lib env args = some (parts.map .floats))
    (hConstruct : Shader.Lanes.construct type.components parts = some lanes) :
    (Shader.Expr.construct type.shaderType args).eval lib env = some (.floats lanes) := by
  have hWidth : type.shaderType.width? = some type.components := by
    cases type <;> rfl
  rw [Shader.Expr.eval, hArgs, Option.bind_some, hWidth, Option.bind_some, mapM_lanes?,
    Option.bind_some, hConstruct, Option.map_some]

/-- Three arguments are evaluated one after the other. -/
theorem evalAll_three {lib : Library} {env : Env} {x y z : Shader.Expr} {a b c : List Float32}
    (hFirst : x.eval lib env = some (.floats a)) (hSecond : y.eval lib env = some (.floats b))
    (hThird : z.eval lib env = some (.floats c)) :
    Shader.Expr.evalAll lib env [x, y, z] = some ([a, b, c].map .floats) := by
  simp [Shader.Expr.evalAll, hFirst, hSecond, hThird]

/-- Typed calls have code. -/
theorem exists_lowerCall (function : String) {f : Builtin} {type : ValueType}
    {lowered : List (Shader.Expr × ValueType)}
    (h : CallTyped f (lowered.map Prod.snd) type) :
    ∃ code, lowerCall function f type lowered = .ok code := by
  generalize hTypes : lowered.map Prod.snd = types at h
  cases h with
  | mix hJoin hFactor =>
      obtain ⟨x, y, z, rfl⟩ := List.length_eq_three.mp (by simpa using congrArg List.length hTypes)
      exact ⟨_, rfl⟩
  | _ => exact ⟨_, rfl⟩

/-- The code of a typed call computes the value of the call. Each builtin has its own case:
the shader language has all of them under their names, with scalars written as vectors where
it wants vectors. -/
theorem lowerCall_sound {lib : Library} {env : Env} {function : String} {f : Builtin}
    {type : ValueType} {lowered : List (Shader.Expr × ValueType)} {vs : List Value} {v : Value}
    (hName : Builtin.ofName? function = some f) (hTyped : CallTyped f (vs.map Value.type) type)
    (hShows : List.Forall₂ (Shows lib env) lowered vs)
    (hValue : applyBuiltin function f type vs = .ok v) :
    ∃ code, lowerCall function f type lowered = .ok code ∧
      code.eval lib env = some (.floats v.components) := by
  have hPlain := Shows.evalAll hShows
  generalize hTypes : vs.map Value.type = types at hTyped
  cases hTyped with
  | unary f t =>
      obtain ⟨a, rfl, rfl⟩ := List.map_eq_singleton_iff.mp hTypes
      cases hValue
      exact ⟨_, rfl, eval_call hName hPlain (by simp [Shader.Lanes.applyBuiltin])⟩
  | normalize t =>
      obtain ⟨a, rfl, rfl⟩ := List.map_eq_singleton_iff.mp hTypes
      cases hValue
      refine ⟨_, rfl, eval_call hName hPlain ?_⟩
      rw [Value.components_map]
      rfl
  | length t =>
      obtain ⟨a, rfl, rfl⟩ := List.map_eq_singleton_iff.mp hTypes
      cases hValue
      exact ⟨_, rfl, eval_call hName hPlain rfl⟩
  | binary f hJoin =>
      obtain ⟨a, b, rfl⟩ := List.length_eq_two.mp (by simpa using congrArg List.length hTypes)
      cases hValue
      have hSplat := Shows.evalAll_splatTo hShows (hTypes ▸ hJoin.assignable)
      exact ⟨_, rfl, eval_call hName hSplat (Shader.Lanes.zip_lanesAs a b type f.apply)⟩
  | clamp hJoin =>
      obtain ⟨a, b, c, rfl⟩ := List.length_eq_three.mp (by simpa using congrArg List.length hTypes)
      cases hValue
      have hSplat := Shows.evalAll_splatTo hShows (hTypes ▸ hJoin.assignable)
      exact ⟨_, rfl, eval_call hName hSplat (Shader.Lanes.zip3_lanesAs a b c type clamp)⟩
  | smoothstep hJoin =>
      obtain ⟨a, b, c, rfl⟩ := List.length_eq_three.mp (by simpa using congrArg List.length hTypes)
      cases hValue
      have hSplat := Shows.evalAll_splatTo hShows (hTypes ▸ hJoin.assignable)
      exact ⟨_, rfl, eval_call hName hSplat (Shader.Lanes.zip3_lanesAs a b c type smoothstep)⟩
  | mix hJoin hFactor =>
      obtain ⟨a, b, c, rfl⟩ := List.length_eq_three.mp (by simpa using congrArg List.length hTypes)
      cases hValue
      simp only [List.map_cons, List.map_nil, List.cons.injEq, and_true] at hTypes
      obtain ⟨rfl, rfl, rfl⟩ := hTypes
      cases hShows with | cons hFirst hShows =>
      cases hShows with | cons hSecond hShows =>
      cases hShows with | cons hThird hShows =>
      cases hShows
      have hArgs := (evalAll_three (hFirst.eval_splatTo (hJoin.assignable _ (by simp)))
        (hSecond.eval_splatTo (hJoin.assignable _ (by simp))) hThird.eval)
      -- The factor keeps its own width, and the mixture widens it.
      refine ⟨_, rfl, eval_call rfl hArgs ?_⟩
      refine Shader.Lanes.zip3_of_fit mix ?_ (Shader.Lanes.fit_lanesAs a type)
        (Shader.Lanes.fit_lanesAs b type) (Shader.Lanes.fit_components hFactor)
      have := ValueType.components_le_of_assignableTo hFactor
      simp only [Value.length_lanesAs, Value.length_components]
      omega
  | dot t =>
      obtain ⟨a, b, rfl⟩ := List.length_eq_two.mp (by simpa using congrArg List.length hTypes)
      cases hValue
      simp only [List.map_cons, List.map_nil, List.cons.injEq, and_true] at hTypes
      obtain ⟨rfl, hSame⟩ := hTypes
      refine ⟨_, rfl, eval_call hName hPlain ?_⟩
      exact if_pos (by rw [Value.length_components, Value.length_components, hSame])
  | cross =>
      obtain ⟨a, b, rfl⟩ := List.length_eq_two.mp (by simpa using congrArg List.length hTypes)
      cases hValue
      simp only [List.map_cons, List.map_nil, List.cons.injEq, and_true] at hTypes
      obtain ⟨⟨s, _⟩, ⟨t, _⟩⟩ := a, b
      obtain ⟨rfl, rfl⟩ := hTypes
      exact ⟨_, rfl, eval_call hName hPlain rfl⟩
  | splat type =>
      refine ⟨_, rfl, ?_⟩
      exact eval_construct hPlain (Shader.Lanes.construct_components (.inr hTypes) hValue)
  | construct type hTotal =>
      refine ⟨_, rfl, ?_⟩
      exact eval_construct hPlain (Shader.Lanes.construct_components (.inl (hTypes ▸ hTotal)) hValue)

/-- Negation in the shader is negation of a value. -/
theorem eval_neg {lib : Library} {env : Env} {x : Shader.Expr} {v : Value}
    (h : x.eval lib env = some (.floats v.components)) :
    (Shader.Expr.neg x).eval lib env = some (.floats (v.map (-·)).components) := by
  rw [Shader.Expr.eval, h, Option.bind_some, Datum.neg, Value.components_map]

/-- An operator in the shader is the operator on values of types that join. Division by zero
is no exception, since both divide floats. -/
theorem eval_binary {lib : Library} {env : Env} {x y : Shader.Expr} {v w : Value}
    {type : ValueType} (op : Operator) (hJoin : ValueType.Joins [v.type, w.type] type)
    (hLeft : x.eval lib env = some (.floats v.components))
    (hRight : y.eval lib env = some (.floats w.components)) :
    (Shader.Expr.binary op.toShader x y).eval lib env =
      some (.floats (Value.zip type op.apply v w).components) := by
  have hOp : op.toShader.arithmetic? = some op.apply := by
    cases op <;> rfl
  rw [Shader.Expr.eval, hLeft, Option.bind_some, hRight, Option.bind_some, Shader.BinaryOp.apply,
    hOp, Option.bind_some, Shader.Lanes.zip_components op.apply hJoin, Option.map_some]

/-- A selection in the shader picks the components that the evaluator picks, as long as they
are within the base. -/
theorem eval_swizzle {lib : Library} {env : Env} {x : Shader.Expr} {base v : Value}
    {selection : List Component} {type : ValueType}
    (hBase : x.eval lib env = some (.floats base.components))
    (hType : swizzleType base.type selection = .ok type)
    (hValue : v.components = selection.map base.lanes.lane) :
    (Shader.Expr.field x (String.ofList (selection.map Component.letter))).eval lib env =
      some (.floats v.components) := by
  have hRange : ∀ c ∈ selection, c.index < base.type.components := by
    unfold swizzleType at hType
    split at hType
    · cases hType
    · rename_i hAny
      simpa using hAny
  rw [Shader.Expr.eval, hBase, Option.bind_some, Datum.field?, String.toList_ofList,
    Shader.Lanes.select_components hRange, Option.map_some, hValue]

mutual

/-- Code is made exactly of the expressions that have a type. -/
theorem map_snd_lower (scope : LowerScope) :
    (e : Expression) → (e.lower scope).map Prod.snd = e.infer scope.types
  | const v => rfl
  | var name => by
      rw [lower, infer]
      cases scope.types name <;> rfl
  | neg e => by
      rw [lower, infer, ← map_snd_lower scope e]
      cases lower scope e <;> rfl
  | binary op a b => by
      rw [lower, infer, ← map_snd_lower scope a, ← map_snd_lower scope b]
      cases lower scope a with
      | error d => rfl
      | ok x =>
          cases lower scope b with
          | error d => rfl
          | ok y =>
              simp only [Except.map]
              cases broadcastTypes x.2 y.2 <;> rfl
  | swizzle e selection => by
      rw [lower]
      split
      · rename_i d hInfer
        rw [hInfer]
        rfl
      · rename_i type hInfer
        rw [hInfer]
        rw [infer, ← map_snd_lower scope e] at hInfer
        cases hLower : lower scope e with
        | error d => simp [hLower, Except.map] at hInfer
        | ok x => rfl
  | call function args => by
      rw [lower, infer, ← map_snd_lowerAll scope args]
      cases Builtin.ofName? function with
      | none => rfl
      | some f =>
          cases lowerAll scope args with
          | error d => rfl
          | ok lowered =>
              simp only [Except.map]
              cases hType : callType function f (lowered.map Prod.snd) with
              | error d => rfl
              | ok type =>
                  obtain ⟨code, hCode⟩ := exists_lowerCall function (callTyped_of_callType hType)
                  simp only [hCode]

/-- Lowering arguments finds the types that inference finds, or the same fault. -/
theorem map_snd_lowerAll (scope : LowerScope) :
    (args : List Expression) →
      (lowerAll scope args).map (List.map Prod.snd) = inferAll scope.types args
  | [] => rfl
  | e :: rest => by
      rw [lowerAll, inferAll, ← map_snd_lower scope e, ← map_snd_lowerAll scope rest]
      cases lower scope e with
      | error d => rfl
      | ok x => cases lowerAll scope rest <;> rfl

end

/-- Code comes with the type of the expression, and there is some for each type. -/
theorem lower_eq_ok_iff (scope : LowerScope) (e : Expression) (type : ValueType) :
    (∃ code, e.lower scope = .ok (code, type)) ↔ e.infer scope.types = .ok type := by
  rw [← map_snd_lower]
  cases e.lower scope with
  | error d => simp [Except.map]
  | ok lowered => simp [Except.map, Prod.ext_iff]

/-- Lowering fails for what inference fails for. -/
theorem lower_eq_error_iff (scope : LowerScope) (e : Expression) (d : Defect) :
    e.lower scope = .error d ↔ e.infer scope.types = .error d := by
  rw [← map_snd_lower]
  cases e.lower scope <;> simp [Except.map]

/-! ### Derivations of code -/

mutual

/-- The code of an expression with its type, by a rule for each kind of expression. -/
inductive Lowers (scope : LowerScope) : Expression → Shader.Expr × ValueType → Prop where
  | const (v : Value) : Lowers scope (.const v) (v.toShader, v.type)
  | var {name : String} {type : ValueType} (hType : scope.types name = some type) :
      Lowers scope (.var name) (scope.code name, type)
  | neg {e : Expression} {x : Shader.Expr} {type : ValueType}
      (hOperand : Lowers scope e (x, type)) : Lowers scope (.neg e) (.neg x, type)
  | binary (op : Operator) {a b : Expression} {x y : Shader.Expr} {s t type : ValueType}
      (hLeft : Lowers scope a (x, s)) (hRight : Lowers scope b (y, t))
      (hJoin : broadcastTypes s t = .ok type) :
      Lowers scope (.binary op a b) (.binary op.toShader x y, type)
  | swizzle {e : Expression} {selection : List Component} {x : Shader.Expr}
      {base type : ValueType} (hBase : Lowers scope e (x, base))
      (hType : swizzleType base selection = .ok type) :
      Lowers scope (.swizzle e selection)
        (.field x (String.ofList (selection.map Component.letter)), type)
  | call {function : String} {f : Builtin} {args : List Expression}
      {lowered : List (Shader.Expr × ValueType)} {type : ValueType} {x : Shader.Expr}
      (hName : Builtin.ofName? function = some f) (hArgs : LowersAll scope args lowered)
      (hType : callType function f (lowered.map Prod.snd) = .ok type)
      (hCode : lowerCall function f type lowered = .ok x) :
      Lowers scope (.call function args) (x, type)

inductive LowersAll (scope : LowerScope) :
    List Expression → List (Shader.Expr × ValueType) → Prop where
  | nil : LowersAll scope [] []
  | cons {e : Expression} {rest : List Expression} {code : Shader.Expr × ValueType}
      {more : List (Shader.Expr × ValueType)} (hFirst : Lowers scope e code)
      (hRest : LowersAll scope rest more) : LowersAll scope (e :: rest) (code :: more)

end

mutual

/-- Code that is made has a derivation. Proofs about code go by the derivation, which has
one rule for each form of expression, and not by the function that makes the code. -/
theorem lowers_of_lower {scope : LowerScope} :
    (e : Expression) → {code : Shader.Expr × ValueType} → e.lower scope = .ok code →
      Lowers scope e code
  | const v, code, h => by
      cases h
      exact .const v
  | var name, code, h => by
      rw [lower] at h
      split at h
      · rename_i type hType
        cases h
        exact .var hType
      · cases h
  | neg e, code, h => by
      rw [lower] at h
      split at h
      · cases h
      · rename_i x type hOperand
        cases h
        exact .neg (lowers_of_lower e hOperand)
  | binary op a b, code, h => by
      rw [lower] at h
      split at h
      · cases h
      · rename_i x s hLeft
        split at h
        · cases h
        · rename_i y t hRight
          split at h
          · cases h
          · rename_i type hJoin
            cases h
            exact .binary op (lowers_of_lower a hLeft) (lowers_of_lower b hRight) hJoin
  | swizzle e selection, code, h => by
      rw [lower] at h
      split at h
      · cases h
      · rename_i type hInfer
        split at h
        · cases h
        · rename_i x base hBase
          cases h
          rw [infer, ← map_snd_lower, hBase] at hInfer
          exact .swizzle (lowers_of_lower e hBase) hInfer
  | call function args, code, h => by
      rw [lower] at h
      split at h
      · cases h
      · rename_i f hName
        split at h
        · cases h
        · rename_i lowered hArgs
          split at h
          · cases h
          · rename_i type hType
            split at h
            · cases h
            · rename_i x hCode
              cases h
              exact .call hName (lowersAll_of_lowerAll args hArgs) hType hCode

/-- Arguments that were lowered are related to their code one by one. -/
theorem lowersAll_of_lowerAll {scope : LowerScope} :
    (args : List Expression) → {lowered : List (Shader.Expr × ValueType)} →
      lowerAll scope args = .ok lowered → LowersAll scope args lowered
  | [], lowered, h => by
      cases h
      exact .nil
  | e :: rest, lowered, h => by
      rw [lowerAll] at h
      split at h
      · cases h
      · rename_i code hFirst
        split at h
        · cases h
        · rename_i more hRest
          cases h
          exact .cons (lowers_of_lower e hFirst) (lowersAll_of_lowerAll rest hRest)

end

mutual

/-- Code that an expression lowers to has the type of the expression. -/
theorem Lowers.infer {scope : LowerScope} {e : Expression} {code : Shader.Expr × ValueType} :
    Lowers scope e code → e.infer scope.types = .ok code.2
  | .const _ => rfl
  | .var hType => by simp only [Expression.infer, hType]
  | .neg hOperand => hOperand.infer
  | .binary _ hLeft hRight hJoin => by
      simp only [Expression.infer, hLeft.infer, hRight.infer, hJoin]
  | .swizzle hBase hType => by simp only [Expression.infer, hBase.infer, hType]
  | .call hName hArgs hType _ => by simp only [Expression.infer, hName, hArgs.infer, hType]

/-- The codes of arguments have the types of the arguments. -/
theorem LowersAll.infer {scope : LowerScope} {args : List Expression}
    {lowered : List (Shader.Expr × ValueType)} :
    LowersAll scope args lowered → inferAll scope.types args = .ok (lowered.map Prod.snd)
  | .nil => rfl
  | .cons hFirst hRest => by
      simp only [inferAll, hFirst.infer, hRest.infer, List.map_cons]

end

/-! ### Values of code -/

section soundness

variable {scope : LowerScope} {values : ValueScope} {lib : Library} {env : Env}

mutual

/-- Where the scope reads the values of the names, the code of an expression
has the value of the expression. -/
theorem Lowers.sound (hReads : scope.Reads values lib env) {e : Expression}
    {code : Shader.Expr × ValueType} :
    Lowers scope e code → ∃ v, e.eval values = .ok v ∧ Shows lib env code v
  | .const v => ⟨v, rfl, .toShader lib env v⟩
  | .var hType => by
      obtain ⟨v, hValue, hShows⟩ := hReads _ _ hType
      exact ⟨v, by rw [eval, hValue], hShows⟩
  | .neg hOperand => by
      obtain ⟨v, hEval, hShows⟩ := hOperand.sound hReads
      refine ⟨v.map (-·), by rw [eval, hEval], ?_, eval_neg hShows.eval⟩
      rw [Value.map, Value.type_ofFn, hShows.type]
  | .binary op hLeft hRight hJoin => by
      obtain ⟨v, hEvalLeft, rfl, hShowsLeft⟩ := hLeft.sound hReads
      obtain ⟨w, hEvalRight, rfl, hShowsRight⟩ := hRight.sound hReads
      refine ⟨.zip _ op.apply v w, ?_, Value.type_ofFn _ _, ?_⟩
      · simp only [eval, hEvalLeft, hEvalRight, hJoin]
      · exact eval_binary op (joins_of_broadcastTypes hJoin) hShowsLeft hShowsRight
  | .swizzle hBase hType => by
      obtain ⟨base, hEval, rfl, hShows⟩ := hBase.sound hReads
      obtain ⟨v, hList, hValue, hComponents⟩ := exists_ofList?_of_swizzleType hType
      exact ⟨v, by simp only [eval, hEval, hList], hValue, eval_swizzle hShows hType hComponents⟩
  | .call hName hArgs hType hCode => by
      obtain ⟨vs, hEval, hShows⟩ := hArgs.sound hReads
      rw [← Shows.map_type hShows] at hType
      have hTyped := callTyped_of_callType hType
      obtain ⟨v, hValue, hValueType⟩ := applyBuiltin_sound _ hTyped
      obtain ⟨x, hSame, hShowsCall⟩ := lowerCall_sound hName hTyped hShows hValue
      cases hCode.symm.trans hSame
      exact ⟨v, by simp only [eval, hName, hEval, hType, hValue], hValueType, hShowsCall⟩

/-- The codes of arguments evaluate to what the arguments evaluate to, and the arguments do
evaluate. The induction is on the derivation, with that of single expressions. -/
theorem LowersAll.sound (hReads : scope.Reads values lib env) {args : List Expression}
    {lowered : List (Shader.Expr × ValueType)} :
    LowersAll scope args lowered →
      ∃ vs, evalAll values args = .ok vs ∧ List.Forall₂ (Shows lib env) lowered vs
  | .nil => ⟨[], rfl, .nil⟩
  | .cons hFirst hRest => by
      obtain ⟨v, hEval, hShows⟩ := hFirst.sound hReads
      obtain ⟨vs, hEvalRest, hShowsRest⟩ := hRest.sound hReads
      exact ⟨v :: vs, by simp only [evalAll, hEval, hEvalRest], .cons hShows hShowsRest⟩

end

end soundness

end Expression

end PathTracer
