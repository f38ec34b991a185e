import Mathlib
import PathTracer.Expression.Parser
import PathTracer.Proofs.Expression.Identifiers
import PathTracer.Proofs.Expression.Lowering
import PathTracer.Proofs.Shader.Typing

/-! Which expressions have well-typed shader code. The checker lets a scalar stand
where the shader language asks for a vector: under a selection of components and
as an argument of `normalize` and `dot`. Everywhere else the code has exactly the
type that the checker finds. -/
namespace PathTracer

namespace ValueType

theorem width?_shaderType (t : ValueType) : t.shaderType.width? = some t.components := by
  cases t <;> rfl

@[simp] theorem isFloat_shaderType (t : ValueType) : t.shaderType.isFloat = true := by
  cases t <;> rfl

@[simp] theorem isNumeric_shaderType (t : ValueType) : t.shaderType.isNumeric = true := by
  cases t <;> rfl

@[simp] theorem isVector_shaderType (t : ValueType) :
    t.shaderType.isVector = decide (t ≠ .float1) := by
  cases t <;> rfl

end ValueType

namespace Expression

open Shader (Declarations)

/-- Calls of functions of vectors have vectors as arguments. -/
def Builtin.vectorial : Builtin → List ValueType → Bool
  | normalize, types => types.all (· ≠ .float1)
  | dot, types => types.all (· ≠ .float1)
  | _, _ => true

mutual

/-- Whether vectors stand where the shader language has no rule for a scalar. -/
def vectorial (types : TypeScope) : Expression → Bool
  | const _ => true
  | var _ => true
  | neg e => vectorial types e
  | binary _ a b => vectorial types a && vectorial types b
  | swizzle e _ =>
    vectorial types e &&
      match infer types e with
      | .ok .float1 => false
      | _ => true
  | call function args =>
    allVectorial types args &&
      match Builtin.ofName? function, inferAll types args with
      | some f, .ok found => f.vectorial found
      | _, _ => true

def allVectorial (types : TypeScope) : List Expression → Bool
  | [] => true
  | e :: rest => vectorial types e && allVectorial types rest

end

/-- The code of every variable has the type of the variable. -/
def LowerScope.Typed (scope : LowerScope) (d : Declarations) : Prop :=
  ∀ name type, scope.types name = some type → (scope.code name).type? d = some type.shaderType

/-- A scope whose variables are the fields of one structure. -/
def LowerScope.ofFields (types : TypeScope) : LowerScope :=
  ⟨types, fun name => .field (.ident "inp") name⟩

/-- The declaration of that structure. -/
def inputFields (types : TypeScope) : Declarations where
  variableType? name := if name = "inp" then some (.named "Inputs") else none
  fieldType? _ name := (types name).map ValueType.shaderType
  functionType? _ _ := none

theorem LowerScope.typed_ofFields (types : TypeScope) :
    (ofFields types).Typed (inputFields types) := by
  intro name type h
  have hType : types name = some type := h
  change (types name).map ValueType.shaderType = _
  rw [hType]
  rfl

/-! ### Pieces of code -/

theorem type?_toShader (d : Declarations) (v : Value) :
    v.toShader.type? d = some v.type.shaderType := by
  obtain ⟨type, lanes⟩ := v
  cases type <;> rfl

/-- Code that has the type that it is listed with. -/
def Typed (d : Declarations) (code : Shader.Expr × ValueType) : Prop :=
  code.1.type? d = some code.2.shaderType

theorem types?_of_typed {d : Declarations} {lowered : List (Shader.Expr × ValueType)}
    (h : ∀ code ∈ lowered, Typed d code) :
    Shader.Expr.types? d (lowered.map Prod.fst) =
      some ((lowered.map Prod.snd).map ValueType.shaderType) := by
  rw [List.map_map]
  exact Shader.Expr.types?_map h

theorem type?_call {d : Declarations} {function : String} {f : Builtin} {args : List Shader.Expr}
    {types : List Shader.Ty} (hName : Builtin.ofName? function = some f)
    (hArgs : Shader.Expr.types? d args = some types) :
    (Shader.Expr.call function args).type? d = Shader.builtinType? f types := by
  rw [Shader.Expr.type?, hArgs, Option.bind_some, Declarations.call?, hName]

theorem type?_call_eq_none {d : Declarations} {function : String} {args : List Shader.Expr}
    (h : ∃ x ∈ args, x.type? d = none) : (Shader.Expr.call function args).type? d = none := by
  rw [Shader.Expr.type?, Shader.Expr.types?_eq_none h]
  rfl

theorem totalWidth?_shaderType (types : List ValueType) :
    Shader.Ty.totalWidth? (types.map ValueType.shaderType) = some (totalComponents types) := by
  induction types with
  | nil => rfl
  | cons t rest ih =>
      rw [List.map_cons, Shader.Ty.totalWidth?, ValueType.width?_shaderType, ih, totalComponents]
      rfl

/-- The shader language has the constructors of the expression language. -/
theorem construct?_shaderType {type : ValueType} {types : List ValueType}
    (h : totalComponents types = type.components ∨ types = [.float1]) :
    type.shaderType.construct? (types.map ValueType.shaderType) = some type.shaderType := by
  refine if_pos ?_
  rw [ValueType.isFloat_shaderType, totalWidth?_shaderType, ValueType.width?_shaderType]
  rcases h with hTotal | rfl
  · simp [hTotal]
  · simp [ValueType.shaderType, ValueType.components, Shader.Ty.floats]

theorem type?_construct {d : Declarations} {type : ValueType} {args : List Shader.Expr}
    {types : List ValueType} (hShape : totalComponents types = type.components ∨ types = [.float1])
    (hArgs : Shader.Expr.types? d args = some (types.map ValueType.shaderType)) :
    (Shader.Expr.construct type.shaderType args).type? d = some type.shaderType := by
  rw [Shader.Expr.type?, hArgs, Option.bind_some, construct?_shaderType hShape]

theorem type?_construct_eq_none {d : Declarations} {type : Shader.Ty} {args : List Shader.Expr}
    (h : ∃ x ∈ args, x.type? d = none) : (Shader.Expr.construct type args).type? d = none := by
  rw [Shader.Expr.type?, Shader.Expr.types?_eq_none h]
  rfl

/-- A scalar is widened by a constructor of the wider type. -/
theorem type?_splatTo {d : Declarations} {code : Shader.Expr × ValueType} {type : ValueType}
    (h : Typed d code) (hFits : code.2.assignableTo type = true) :
    (splatTo type code).type? d = some type.shaderType := by
  obtain ⟨x, found⟩ := code
  rw [Typed] at h
  unfold splatTo
  rcases ValueType.assignableTo_iff.mp hFits with hSame | hScalar
  · subst hSame
    simpa using h
  · subst hScalar
    split
    · rename_i hSame
      simp only [Bool.or_eq_true, decide_eq_true_eq] at hSame
      obtain rfl : type = .float1 := hSame.elim Eq.symm id
      exact h
    · refine type?_construct (.inr rfl) ?_
      simp [Shader.Expr.types?, h]

theorem types?_splatTo {d : Declarations} {lowered : List (Shader.Expr × ValueType)}
    {type : ValueType} (h : ∀ code ∈ lowered, Typed d code)
    (hFits : ∀ t ∈ lowered.map Prod.snd, t.assignableTo type = true) :
    Shader.Expr.types? d (lowered.map (splatTo type)) =
      some (lowered.map fun _ => type.shaderType) :=
  Shader.Expr.types?_map fun code hCode =>
    type?_splatTo (h code hCode) (hFits code.2 (List.mem_map_of_mem hCode))

theorem type?_splatTo_eq_none {d : Declarations} {code : Shader.Expr × ValueType}
    {type : ValueType} (h : code.1.type? d = none) : (splatTo type code).type? d = none := by
  unfold splatTo
  split
  · exact h
  · simp [Shader.Expr.type?, Shader.Expr.types?, h]

/-! ### Calls -/

/-- Code of a call whose arguments have types. It is typed exactly where vectors stand for
what the shader language wants to be a vector. -/
theorem type?_lowerCall {d : Declarations} {function : String} {f : Builtin} {type : ValueType}
    {lowered : List (Shader.Expr × ValueType)} {code : Shader.Expr}
    (hName : Builtin.ofName? function = some f)
    (hTyped : CallTyped f (lowered.map Prod.snd) type) (hArgs : ∀ arg ∈ lowered, Typed d arg)
    (h : lowerCall function f type lowered = .ok code) :
    code.type? d =
      if f.vectorial (lowered.map Prod.snd) then some type.shaderType else none := by
  have hPlain := types?_of_typed hArgs
  generalize hTypes : lowered.map Prod.snd = types at hTyped hPlain ⊢
  cases hTyped with
  | unary f t =>
      cases h
      rw [type?_call hName hPlain]
      cases f <;> simp [Shader.builtinType?, Builtin.vectorial]
  | normalize t =>
      cases h
      rw [type?_call hName hPlain]
      simp [Shader.builtinType?, Builtin.vectorial]
  | length t =>
      cases h
      rw [type?_call hName hPlain]
      simp [Shader.builtinType?, Builtin.vectorial]
      rfl
  | dot t =>
      cases h
      rw [type?_call hName hPlain]
      simp [Shader.builtinType?, Builtin.vectorial]
      rfl
  | cross =>
      cases h
      exact type?_call hName hPlain
  | binary f hJoin =>
      obtain ⟨a, b, rfl⟩ := List.length_eq_two.mp (by simpa using congrArg List.length hTypes)
      cases h
      rw [type?_call hName (types?_splatTo hArgs (hTypes ▸ hJoin.assignable))]
      cases f <;> simp [Shader.builtinType?, Builtin.vectorial]
  | clamp hJoin =>
      obtain ⟨a, b, c, rfl⟩ := List.length_eq_three.mp (by simpa using congrArg List.length hTypes)
      cases h
      rw [type?_call hName (types?_splatTo hArgs (hTypes ▸ hJoin.assignable))]
      simp [Shader.builtinType?, Builtin.vectorial]
  | smoothstep hJoin =>
      obtain ⟨a, b, c, rfl⟩ := List.length_eq_three.mp (by simpa using congrArg List.length hTypes)
      cases h
      rw [type?_call hName (types?_splatTo hArgs (hTypes ▸ hJoin.assignable))]
      simp [Shader.builtinType?, Builtin.vectorial]
  | mix hJoin hFactor =>
      obtain ⟨a, b, c, rfl⟩ := List.length_eq_three.mp (by simpa using congrArg List.length hTypes)
      cases h
      simp only [List.map_cons, List.map_nil, List.cons.injEq, and_true] at hTypes
      obtain ⟨rfl, rfl, rfl⟩ := hTypes
      have hFirst := type?_splatTo (hArgs a (by simp)) (hJoin.assignable _ (by simp))
      have hSecond := type?_splatTo (hArgs b (by simp)) (hJoin.assignable _ (by simp))
      have hThird : c.1.type? d = some c.2.shaderType := hArgs c (by simp)
      have hAll : Shader.Expr.types? d [splatTo type a, splatTo type b, c.1] =
          some [type.shaderType, type.shaderType, c.2.shaderType] := by
        simp [Shader.Expr.types?, hFirst, hSecond, hThird]
      rw [type?_call rfl hAll]
      -- The factor keeps its own type, and mixing has a rule for that.
      rcases ValueType.assignableTo_iff.mp hFactor with hSame | hScalar
      · simp [Shader.builtinType?, Builtin.vectorial, hSame]
      · have hFloat : ValueType.float1.shaderType = .f32 := rfl
        simp [Shader.builtinType?, Builtin.vectorial, hScalar, hFloat]
  | splat type =>
      cases h
      exact type?_construct (.inr rfl) hPlain
  | construct type hTotal =>
      cases h
      exact type?_construct (.inl hTotal) hPlain

/-- A call has no type if one of its arguments has none. -/
theorem type?_lowerCall_eq_none {d : Declarations} {function : String} {f : Builtin}
    {type : ValueType} {lowered : List (Shader.Expr × ValueType)} {code : Shader.Expr}
    (hTyped : CallTyped f (lowered.map Prod.snd) type)
    (hArgs : ∃ arg ∈ lowered, arg.1.type? d = none)
    (h : lowerCall function f type lowered = .ok code) : code.type? d = none := by
  obtain ⟨arg, hMem, hNone⟩ := hArgs
  have hPlain : ∃ x ∈ lowered.map Prod.fst, x.type? d = none :=
    ⟨arg.1, List.mem_map_of_mem hMem, hNone⟩
  have hSplat : ∃ x ∈ lowered.map (splatTo type), x.type? d = none :=
    ⟨_, List.mem_map_of_mem hMem, type?_splatTo_eq_none hNone⟩
  generalize hTypes : lowered.map Prod.snd = types at hTyped
  cases hTyped with
  | unary f t | normalize t | length t | dot t | cross =>
      cases h
      exact type?_call_eq_none hPlain
  | binary f hJoin | clamp hJoin | smoothstep hJoin =>
      cases h
      exact type?_call_eq_none hSplat
  | mix hJoin hFactor =>
      obtain ⟨a, b, c, rfl⟩ := List.length_eq_three.mp (by simpa using congrArg List.length hTypes)
      cases h
      refine type?_call_eq_none ?_
      simp only [List.mem_cons, List.not_mem_nil, or_false] at hMem
      rcases hMem with rfl | rfl | rfl
      · exact ⟨splatTo type _, by simp, type?_splatTo_eq_none hNone⟩
      · exact ⟨splatTo type _, by simp, type?_splatTo_eq_none hNone⟩
      · exact ⟨_, by simp, hNone⟩
  | splat type | construct type hTotal =>
      cases h
      exact type?_construct_eq_none hPlain

/-! ### Selections -/

theorem components_of_ofComponents? {count : Nat} {type : ValueType}
    (h : ValueType.ofComponents? count = some type) : count = type.components := by
  unfold ValueType.ofComponents? at h
  split at h <;> cases h <;> rfl

theorem letter_mem_take {c : Component} {base : ValueType} (h : c.index < base.components) :
    c.letter ∈ ['x', 'y', 'z', 'w'].take base.components := by
  cases base <;> cases c <;> first | decide | exact absurd h (by decide)

/-- A selection that the checker accepts is one of a vector, or it selects from a
scalar and has no type in the shader language. -/
theorem member?_shaderType {d : Declarations} {base type : ValueType} {selection : List Component}
    (h : swizzleType base selection = .ok type) :
    d.member? base.shaderType (String.ofList (selection.map Component.letter)) =
      if base = .float1 then none else some type.shaderType := by
  have hMember : ∀ name, d.member? base.shaderType name =
      base.shaderType.selection? name.toList := by
    intro name
    cases base <;> rfl
  unfold swizzleType at h
  split at h
  · cases h
  · rename_i hRange
    split at h
    · rename_i found hCount
      cases h
      have hLength := components_of_ofComponents? hCount
      have hNames : base.shaderType.names ['x', 'y', 'z', 'w']
          (selection.map Component.letter) = true := by
        simp only [Shader.Ty.names, ValueType.width?_shaderType, Option.getD_some, List.all_map,
          List.all_eq_true, Function.comp_apply, List.contains_iff_mem]
        intro c hc
        refine letter_mem_take (Nat.lt_of_not_le fun hFar => hRange ?_)
        exact List.any_eq_true.mpr ⟨c, hc, decide_eq_true hFar⟩
      have hOneToFour : type.components ∈ [1, 2, 3, 4] := by
        cases type <;> decide
      rw [hMember, String.toList_ofList, Shader.Ty.selection?, hNames,
        ValueType.isVector_shaderType, List.length_map, hLength]
      by_cases hBase : base = .float1
      · simp [hBase]
      · simp [hBase, hOneToFour, ValueType.shaderType]
    · cases h

/-- Arithmetic has the common type of its operands. -/
theorem type?_toShader_operator {op : Operator} {s t type : ValueType}
    (h : broadcastTypes s t = .ok type) :
    op.toShader.type? s.shaderType t.shaderType = some type.shaderType := by
  have hArithmetic : op.toShader.type? s.shaderType t.shaderType =
      s.shaderType.arithmetic? t.shaderType := by
    cases op <;> rfl
  rw [hArithmetic]
  cases s <;> cases t <;> cases h <;> rfl

mutual

/-- Code has the type that the checker finds if vectors stand where only vectors
may, and no type otherwise. -/
theorem Lowers.type?_eq {d : Declarations} {scope : LowerScope} (hScope : scope.Typed d)
    {e : Expression} {code : Shader.Expr × ValueType} :
    Lowers scope e code →
      code.1.type? d = if e.vectorial scope.types then some code.2.shaderType else none
  | .const v => type?_toShader d v
  | .var hType => hScope _ _ hType
  | @Lowers.neg _ _ _ t hOperand => by
      rw [Shader.Expr.type?, hOperand.type?_eq hScope, vectorial]
      split
      · cases t <;> rfl
      · rfl
  | .binary (a := a) (b := b) op hLeft hRight hJoin => by
      rw [Shader.Expr.type?, hLeft.type?_eq hScope, hRight.type?_eq hScope, vectorial]
      cases a.vectorial scope.types <;> cases b.vectorial scope.types <;>
        simp [type?_toShader_operator hJoin]
  | @Lowers.swizzle _ e _ _ base _ hBase hType => by
      have hMember := member?_shaderType (d := d) hType
      rw [Shader.Expr.type?, hBase.type?_eq hScope, vectorial, hBase.infer]
      cases e.vectorial scope.types with
      | true => cases base <;> exact hMember
      | false => rfl
  | @Lowers.call _ _ _ args _ _ _ hName hArgs hType hCode => by
      have hTyped := callTyped_of_callType hType
      obtain ⟨hValid, hInvalid⟩ := hArgs.type?_eq hScope
      simp only [vectorial, hName, hArgs.infer]
      cases hVectors : allVectorial scope.types args with
      | true => exact type?_lowerCall hName hTyped (hValid hVectors) hCode
      | false => exact type?_lowerCall_eq_none hTyped (hInvalid hVectors) hCode

theorem LowersAll.type?_eq {d : Declarations} {scope : LowerScope} (hScope : scope.Typed d)
    {args : List Expression} {lowered : List (Shader.Expr × ValueType)} :
    LowersAll scope args lowered →
      (allVectorial scope.types args = true → ∀ code ∈ lowered, Typed d code) ∧
        (allVectorial scope.types args = false → ∃ code ∈ lowered, code.1.type? d = none)
  | .nil => ⟨by simp, by simp [allVectorial]⟩
  | @LowersAll.cons _ e _ code _ hFirst hRest => by
      have hType := hFirst.type?_eq hScope
      obtain ⟨hValid, hInvalid⟩ := hRest.type?_eq hScope
      rw [allVectorial]
      cases hHead : e.vectorial scope.types with
      | true =>
          rw [hHead] at hType
          refine ⟨fun h => List.forall_mem_cons.mpr ⟨hType, hValid h⟩, fun h => ?_⟩
          obtain ⟨other, hMem, hNone⟩ := hInvalid h
          exact ⟨other, List.mem_cons_of_mem code hMem, hNone⟩
      | false =>
          rw [hHead] at hType
          exact ⟨nofun, fun _ => ⟨code, by simp, hType⟩⟩

end

/-- Wherever the variables of a scope have code of their types, the code of an accepted
expression is well typed, and then with the type that the checker finds, exactly if vectors
stand where the shader language asks for them. Otherwise it has no type at all, although the
evaluator gives the expression a value. -/
theorem lower_wellTyped_iff {d : Declarations} {scope : LowerScope} (hScope : scope.Typed d)
    {e : Expression} {x : Shader.Expr} {t : ValueType} (h : e.lower scope = .ok (x, t)) :
    (x.type? d = some t.shaderType ↔ e.vectorial scope.types = true) ∧
      (x.type? d = none ↔ e.vectorial scope.types = false) := by
  have hType := (lowers_of_lower e h).type?_eq hScope
  cases hVectorial : e.vectorial scope.types with
  | true => simp_all
  | false => simp_all

/-- A mixture of a vector and a scalar by the length of a direction. -/
theorem lower_wellTyped_iff_mixture :
    let types : TypeScope := fun name =>
      if name = "p" then some .float3 else if name = "a" then some .float1 else none
    let e : Expression := .call "mix" [.var "p", .var "a",
      .call "length" [.swizzle (.call "normalize" [.var "p"]) [.x, .y]]]
    (LowerScope.ofFields types).Typed (inputFields types) ∧
      ∃ x, e.lower (.ofFields types) = .ok (x, .float3) ∧
        x.type? (inputFields types) = some .vec3 := by
  intro types e
  have hScope := LowerScope.typed_ofFields types
  have hLower : e.lower (.ofFields types) = .ok (_, .float3) := rfl
  exact ⟨hScope, _, hLower, (lower_wellTyped_iff hScope hLower).1.mpr rfl⟩

set_option maxRecDepth 2000 in
/-- A scalar is normalized by the expression language and not by the shader
language. The code that is made of it has no type. -/
theorem lower_normalize_of_scalar :
    let types : TypeScope := fun name => if name = "a" then some .float1 else none
    ∃ e x, parse "normalize(a)" = .ok e ∧ (LowerScope.ofFields types).Typed (inputFields types) ∧
      e.lower (.ofFields types) = .ok (x, .float1) ∧ x.type? (inputFields types) = none := by
  intro types
  have hParse : parse "normalize(a)" = .ok (.call "normalize" [.var "a"]) :=
    parse_call_identifier "normalize" "a" (by decide) (by decide)
  exact ⟨_, _, hParse, LowerScope.typed_ofFields types, rfl, rfl⟩

end Expression

end PathTracer
