import Mathlib
import PathTracer.Expression.Parser
import PathTracer.Proofs.Expression.Faults
import PathTracer.Proofs.Expression.Identifiers
import PathTracer.Proofs.Expression.Typing

/-! Where the checker and the evaluator agree. Both stop at the first fault from
the left and name it alike, with one exception: the checker refuses a selection
beyond the components of its base, and the evaluator reads zeros there. -/
namespace PathTracer

namespace Expression

/-- The fault of a selection beyond the components of its base. -/
def selectionFault (base : ValueType) (count : Nat) : Defect :=
  .typeMismatch ("swizzle within " ++ base.name) s!"{count} components"

/-- A result that is a value or has another fault. -/
def Unselected {α : Type} (result : Except Defect α) : Prop :=
  ∀ base count, result ≠ .error (selectionFault base count)

theorem Unselected.ok {α : Type} (x : α) : Unselected (.ok x) :=
  nofun

theorem Unselected.error {α β : Type} {d : Defect} (h : Unselected (.error d : Except Defect α)) :
    Unselected (.error d : Except Defect β) :=
  fun base count hSame => h base count (congrArg Except.error (Except.error.inj hSame))

/-! ### Faults of the evaluator -/

/-- No other fault begins with the same letter. -/
theorem Mismatches.unselected {α : Type} {result : Except Defect α} (h : Mismatches result) :
    Unselected result := by
  intro base count hSame
  obtain ⟨expected, actual, hFault, hFirst⟩ := h _ hSame
  rw [selectionFault, Defect.typeMismatch.injEq] at hFault
  rw [← hFault.1, String.toList_append] at hFirst
  exact hFirst rfl

mutual

/-- The evaluator never refuses a selection. -/
theorem unselected_eval (values : ValueScope) : (e : Expression) → Unselected (e.eval values)
  | const v => .ok v
  | var name => by
      rw [eval]
      split
      · exact .ok _
      · exact nofun
  | neg e => by
      rw [eval]
      split
      · rename_i d hEval
        exact .error (hEval ▸ unselected_eval values e)
      · exact .ok _
  | binary op a b => by
      rw [eval]
      split
      · rename_i d hLeft
        exact .error (hLeft ▸ unselected_eval values a)
      · split
        · rename_i d hRight
          exact .error (hRight ▸ unselected_eval values b)
        · split
          · rename_i d hJoin
            exact .error (hJoin ▸ (mismatches_broadcastTypes _ _).unselected)
          · exact .ok _
  | swizzle e selection => by
      rw [eval]
      split
      · rename_i d hEval
        exact .error (hEval ▸ unselected_eval values e)
      · split
        · exact .ok _
        · exact (mismatches_mismatch _ (by decide)).unselected
  | call function args => by
      rw [eval]
      split
      · exact nofun
      · rename_i f hName
        split
        · rename_i d hEval
          exact .error (hEval ▸ unselected_evalAll values args)
        · rename_i vs hEval
          split
          · rename_i d hType
            exact .error (hType ▸ (mismatches_callType _ _ _).unselected)
          · rename_i type hType
            obtain ⟨v, hValue, _⟩ := applyBuiltin_sound function (callTyped_of_callType hType)
            exact hValue ▸ .ok v

/-- The evaluator never reports a selection beyond a base in any of its arguments. -/
theorem unselected_evalAll (values : ValueScope) :
    (args : List Expression) → Unselected (evalAll values args)
  | [] => .ok []
  | e :: rest => by
      rw [evalAll]
      split
      · rename_i d hFirst
        exact .error (hFirst ▸ unselected_eval values e)
      · split
        · rename_i d hRest
          exact .error (hRest ▸ unselected_evalAll values rest)
        · exact .ok _

end

/-! ### Agreement -/

theorem ValueScope.fits_types (values : ValueScope) : values.Fits values.types := by
  intro name type h
  obtain ⟨v, hValue, hType⟩ := Option.map_eq_some_iff.mp h
  exact ⟨v, hValue, hType⟩

/-- Beyond a selection fault only the number of components can be wrong. The evaluator
refuses that as well, with the same fault. -/
theorem ofList?_eq_none_of_swizzleType {base : Value} {selection : List Component} {d : Defect}
    (h : swizzleType base.type selection = .error d)
    (hOther : Unselected (.error d : Except Defect Value)) :
    Value.ofList? (selection.map base.lanes.lane) = none ∧
      mismatch "1..4 components" (toString selection.length) = (.error d : Except Defect Value) := by
  unfold swizzleType at h
  split at h
  · exact absurd (congrArg Except.error (Except.error.inj h).symm) (hOther base.type selection.length)
  · split at h
    · cases h
    · rename_i hCount
      cases h
      refine ⟨?_, rfl⟩
      cases hList : Value.ofList? (selection.map base.lanes.lane) with
      | none => rfl
      | some v =>
          have hLength := congrArg List.length (Value.components_of_ofList? hList)
          rw [Value.length_components, List.length_map] at hLength
          rw [← hLength, ValueType.ofComponents?_components] at hCount
          cases hCount

mutual

/-- The evaluator stops at the first fault that the checker finds, unless that
is a selection. -/
theorem eval_of_infer_error {values : ValueScope} :
    (e : Expression) → {d : Defect} → e.infer values.types = .error d →
      Unselected (.error d : Except Defect Value) → e.eval values = .error d
  | const v, d, h, hOther => by cases h
  | var name, d, h, hOther => by
      rw [infer] at h
      split at h
      · cases h
      · rename_i hType
        cases h
        rw [eval, Option.map_eq_none_iff.mp hType]
  | neg e, d, h, hOther => by
      rw [eval, eval_of_infer_error e h hOther]
  | binary op a b, d, h, hOther => by
      rw [infer] at h
      split at h
      · rename_i hLeft
        cases h
        rw [eval, eval_of_infer_error a hLeft hOther]
      · rename_i s hLeft
        obtain ⟨v, hEvalLeft, rfl⟩ := infer_sound values.fits_types a hLeft
        split at h
        · rename_i hRight
          cases h
          simp only [eval, hEvalLeft, eval_of_infer_error b hRight hOther]
        · rename_i t hRight
          obtain ⟨w, hEvalRight, rfl⟩ := infer_sound values.fits_types b hRight
          simp only [eval, hEvalLeft, hEvalRight, h]
  | swizzle e selection, d, h, hOther => by
      rw [infer] at h
      split at h
      · rename_i hBase
        cases h
        rw [eval, eval_of_infer_error e hBase hOther]
      · rename_i base hBase
        obtain ⟨v, hEval, rfl⟩ := infer_sound values.fits_types e hBase
        obtain ⟨hList, hCount⟩ := ofList?_eq_none_of_swizzleType h hOther
        simp only [eval, hEval, hList, hCount]
  | call function args, d, h, hOther => by
      rw [infer] at h
      split at h
      · rename_i hName
        cases h
        simp only [eval, hName]
      · rename_i f hName
        split at h
        · rename_i hArgs
          cases h
          simp only [eval, hName, evalAll_of_inferAll_error args hArgs hOther]
        · rename_i types hArgs
          obtain ⟨vs, hEval, rfl⟩ := inferAll_sound values.fits_types args hArgs
          simp only [eval, hName, hEval, h]

/-- A fault that the checker finds among arguments, and that is no selection, is found by
the evaluator first. -/
theorem evalAll_of_inferAll_error {values : ValueScope} :
    (args : List Expression) → {d : Defect} → inferAll values.types args = .error d →
      Unselected (.error d : Except Defect Value) → evalAll values args = .error d
  | [], d, h, hOther => by cases h
  | e :: rest, d, h, hOther => by
      rw [inferAll] at h
      split at h
      · rename_i hFirst
        cases h
        rw [evalAll, eval_of_infer_error e hFirst hOther]
      · rename_i t hFirst
        obtain ⟨v, hEval, rfl⟩ := infer_sound values.fits_types e hFirst
        split at h
        · rename_i hRest
          cases h
          simp only [evalAll, hEval, evalAll_of_inferAll_error rest hRest hOther]
        · cases h

end

/-- The checker and the evaluator accept the same expressions, with the type of the value,
and refuse the others with the same fault, exactly where the first fault that the checker
finds is not a selection beyond the components of its base. The evaluator itself never has
that fault. So the two agree on every expression that the checker accepts. They differ for a
selection beyond its base only, which the evaluator reads as zero. -/
theorem map_type_eval_eq_infer_iff (values : ValueScope) (e : Expression) :
    (e.eval values).map Value.type = e.infer values.types ↔
      ∀ base count, e.infer values.types ≠ .error (selectionFault base count) := by
  constructor
  · intro hSame base count hFault
    rw [hFault] at hSame
    cases hEval : e.eval values with
    | ok v => simp [hEval, Except.map] at hSame
    | error d =>
        rw [hEval, Except.map, Except.error.injEq] at hSame
        exact unselected_eval values e base count (hSame ▸ hEval)
  · intro hOther
    cases hInfer : e.infer values.types with
    | ok type =>
        obtain ⟨v, hEval, rfl⟩ := infer_sound values.fits_types e hInfer
        rw [hEval, Except.map]
    | error d =>
        rw [hInfer] at hOther
        rw [eval_of_infer_error e hInfer (Unselected.error hOther), Except.map]

set_option maxRecDepth 2000 in
/-- The third component of a pair is refused by the checker and read as zero. -/
theorem eval_third_of_pair :
    let values : ValueScope := fun name => if name = "p" then some (.float2 ⟨1.0, 2.0⟩) else none
    ∃ e, parse "p.z" = .ok e ∧ e.eval values = .ok (.float1 0.0) ∧
      e.infer values.types = .error (selectionFault .float2 1) := by
  intro values
  have hParse : parse "p.z" = .ok (.swizzle (.var "p") [.z]) :=
    parse_selection "p" "z" (by decide) (by decide) rfl
  exact ⟨_, hParse, rfl, rfl⟩

end Expression

end PathTracer
