import PathTracer.Proofs.Expression.Faults
import PathTracer.Proofs.Expression.Lowering

/-! The names that an expression depends on. Its type, its value and its shader
code are those of any scope that agrees on the names that it references, and no
other name is missed in a scope. -/
namespace PathTracer.Expression

/-- Scopes with the same entries for the names that an expression references. -/
def AgreeOn {α : Type} (e : Expression) (s t : String → α) : Prop :=
  ∀ name, e.references name = true → s name = t name

/-- Scopes with the same entries for the names that some expressions reference. -/
def AgreeOnAll {α : Type} (args : List Expression) (s t : String → α) : Prop :=
  ∀ name, anyReferences name args = true → s name = t name

section agreement

variable {α : Type} {s t : String → α}

theorem AgreeOn.left {op : Operator} {a b : Expression} (h : AgreeOn (binary op a b) s t) :
    AgreeOn a s t :=
  fun name hName => h name (by simp [references, hName])

theorem AgreeOn.right {op : Operator} {a b : Expression} (h : AgreeOn (binary op a b) s t) :
    AgreeOn b s t :=
  fun name hName => h name (by simp [references, hName])

theorem AgreeOnAll.head {e : Expression} {rest : List Expression}
    (h : AgreeOnAll (e :: rest) s t) : AgreeOn e s t :=
  fun name hName => h name (by simp [anyReferences, hName])

theorem AgreeOnAll.tail {e : Expression} {rest : List Expression}
    (h : AgreeOnAll (e :: rest) s t) : AgreeOnAll rest s t :=
  fun name hName => h name (by simp [anyReferences, hName])

/-- Scopes that agree on a variable have the same for it. -/
theorem AgreeOn.var {name : String} (h : AgreeOn (var name) s t) : s name = t name :=
  h name (by simp [references])

end agreement

/-! ### Two scopes -/

mutual

/-- Scopes that agree on what an expression references give it one type. The induction is on
the expression. -/
theorem infer_congr {s t : TypeScope} :
    (e : Expression) → AgreeOn e s t → e.infer s = e.infer t
  | const _, _ => rfl
  | var name, h => by rw [infer, infer, h.var]
  | neg e, h => infer_congr e h
  | binary op a b, h => by rw [infer, infer, infer_congr a h.left, infer_congr b h.right]
  | swizzle e selection, h => by
      have hBase : e.infer s = e.infer t := infer_congr e h
      rw [infer, infer, hBase]
  | call function args, h => by
      have hArgs : inferAll s args = inferAll t args := inferAll_congr args h
      rw [infer, infer, hArgs]

/-- Scopes that agree on what arguments reference give them their types alike. -/
theorem inferAll_congr {s t : TypeScope} :
    (args : List Expression) → AgreeOnAll args s t → inferAll s args = inferAll t args
  | [], _ => rfl
  | e :: rest, h => by
      rw [inferAll, inferAll, infer_congr e h.head, inferAll_congr rest h.tail]

end

mutual

/-- Scopes that agree on what an expression references give it one value. -/
theorem eval_congr {s t : ValueScope} :
    (e : Expression) → AgreeOn e s t → e.eval s = e.eval t
  | const _, _ => rfl
  | var name, h => by rw [eval, eval, h.var]
  | neg e, h => by
      have hOperand : e.eval s = e.eval t := eval_congr e h
      rw [eval, eval, hOperand]
  | binary op a b, h => by rw [eval, eval, eval_congr a h.left, eval_congr b h.right]
  | swizzle e selection, h => by
      have hBase : e.eval s = e.eval t := eval_congr e h
      rw [eval, eval, hBase]
  | call function args, h => by
      have hArgs : evalAll s args = evalAll t args := evalAll_congr args h
      rw [eval, eval, hArgs]

/-- Scopes that agree on what arguments reference give them their values alike. -/
theorem evalAll_congr {s t : ValueScope} :
    (args : List Expression) → AgreeOnAll args s t → evalAll s args = evalAll t args
  | [], _ => rfl
  | e :: rest, h => by
      rw [evalAll, evalAll, eval_congr e h.head, evalAll_congr rest h.tail]

end

mutual

/-- Scopes that agree on what an expression references, in types and code, give it one piece
of code. -/
theorem lower_congr {s t : LowerScope} :
    (e : Expression) → AgreeOn e s.types t.types → AgreeOn e s.code t.code → e.lower s = e.lower t
  | const _, _, _ => rfl
  | var name, hTypes, hCode => by rw [lower, lower, hTypes.var, hCode.var]
  | neg e, hTypes, hCode => by
      have hOperand : e.lower s = e.lower t := lower_congr e hTypes hCode
      rw [lower, lower, hOperand]
  | binary op a b, hTypes, hCode => by
      rw [lower, lower, lower_congr a hTypes.left hCode.left,
        lower_congr b hTypes.right hCode.right]
  | swizzle e selection, hTypes, hCode => by
      -- The type of a selection is inferred again from the whole expression.
      have hBase : e.lower s = e.lower t := lower_congr e hTypes hCode
      rw [lower, lower, infer_congr (swizzle e selection) hTypes, hBase]
  | call function args, hTypes, hCode => by
      have hArgs : lowerAll s args = lowerAll t args := lowerAll_congr args hTypes hCode
      rw [lower, lower, hArgs]

/-- Scopes that agree on what arguments reference give them their codes alike. -/
theorem lowerAll_congr {s t : LowerScope} :
    (args : List Expression) → AgreeOnAll args s.types t.types → AgreeOnAll args s.code t.code →
      lowerAll s args = lowerAll t args
  | [], _, _ => rfl
  | e :: rest, hTypes, hCode => by
      rw [lowerAll, lowerAll, lower_congr e hTypes.head hCode.head,
        lowerAll_congr rest hTypes.tail hCode.tail]

end

/-! ### Variables that are missed -/

/-- Typing a selection never misses a variable. -/
theorem swizzleType_ne_unknownVariable (base : ValueType) (selection : List Component)
    (name : String) : swizzleType base selection ≠ .error (.unknownVariable name) := by
  intro h
  unfold swizzleType at h
  split at h
  · cases h
  · split at h <;> cases h

mutual

/-- The checker misses only variables that the expression references. -/
theorem references_of_infer {s : TypeScope} {name : String} :
    (e : Expression) → e.infer s = .error (.unknownVariable name) → e.references name = true
  | const _, h => by cases h
  | var other, h => by
      rw [infer] at h
      split at h
      · cases h
      · cases h
        simp [references]
  | neg e, h => references_of_infer e h
  | binary op a b, h => by
      rw [infer] at h
      split at h
      · rename_i d hLeft
        cases h
        simp [references, references_of_infer a hLeft]
      · split at h
        · rename_i d hRight
          cases h
          simp [references, references_of_infer b hRight]
        · exact absurd h ((mismatches_broadcastTypes _ _).ne_unknownVariable name)
  | swizzle e selection, h => by
      rw [infer] at h
      split at h
      · rename_i d hBase
        cases h
        exact references_of_infer e hBase
      · exact absurd h (swizzleType_ne_unknownVariable _ _ name)
  | call function args, h => by
      rw [infer] at h
      split at h
      · cases h
      · split at h
        · rename_i d hArgs
          cases h
          exact references_of_inferAll args hArgs
        · exact absurd h ((mismatches_callType _ _ _).ne_unknownVariable name)

/-- A variable that is missed among arguments is referenced by one of them. -/
theorem references_of_inferAll {s : TypeScope} {name : String} :
    (args : List Expression) → inferAll s args = .error (.unknownVariable name) →
      anyReferences name args = true
  | [], h => by cases h
  | e :: rest, h => by
      rw [inferAll] at h
      split at h
      · rename_i d hFirst
        cases h
        simp [anyReferences, references_of_infer e hFirst]
      · split at h
        · rename_i d hRest
          cases h
          simp [anyReferences, references_of_inferAll rest hRest]
        · cases h

end

mutual

/-- The evaluator misses only variables that the expression references. -/
theorem references_of_eval {s : ValueScope} {name : String} :
    (e : Expression) → e.eval s = .error (.unknownVariable name) → e.references name = true
  | const _, h => by cases h
  | var other, h => by
      rw [eval] at h
      split at h
      · cases h
      · cases h
        simp [references]
  | neg e, h => by
      rw [eval] at h
      split at h
      · rename_i d hOperand
        cases h
        exact references_of_eval e hOperand
      · cases h
  | binary op a b, h => by
      rw [eval] at h
      split at h
      · rename_i d hLeft
        cases h
        simp [references, references_of_eval a hLeft]
      · split at h
        · rename_i d hRight
          cases h
          simp [references, references_of_eval b hRight]
        · split at h
          · rename_i d hJoin
            cases h
            exact absurd hJoin ((mismatches_broadcastTypes _ _).ne_unknownVariable name)
          · cases h
  | swizzle e selection, h => by
      rw [eval] at h
      split at h
      · rename_i d hBase
        cases h
        exact references_of_eval e hBase
      · split at h
        · cases h
        · cases h
  | call function args, h => by
      rw [eval] at h
      split at h
      · cases h
      · split at h
        · rename_i d hArgs
          cases h
          exact references_of_evalAll args hArgs
        · split at h
          · rename_i d hType
            cases h
            exact absurd hType ((mismatches_callType _ _ _).ne_unknownVariable name)
          · exact absurd h ((mismatches_applyBuiltin _ _ _ _).ne_unknownVariable name)

/-- A variable that is missed in evaluating arguments is referenced by one of them. -/
theorem references_of_evalAll {s : ValueScope} {name : String} :
    (args : List Expression) → evalAll s args = .error (.unknownVariable name) →
      anyReferences name args = true
  | [], h => by cases h
  | e :: rest, h => by
      rw [evalAll] at h
      split at h
      · rename_i d hFirst
        cases h
        simp [anyReferences, references_of_eval e hFirst]
      · split at h
        · rename_i d hRest
          cases h
          simp [anyReferences, references_of_evalAll rest hRest]
        · cases h

end

/-- Generating code misses only variables that the expression references. -/
theorem references_of_lower {s : LowerScope} {name : String} (e : Expression)
    (h : e.lower s = .error (.unknownVariable name)) : e.references name = true :=
  references_of_infer e ((lower_eq_error_iff s e _).mp h)

/-! ### Dependence -/

/-- An expression depends only on the names that it references: scopes that agree on these
give it one type, one value and one piece of code, or one fault, and any variable that is
missed is one that it references. A scope may be any function of names. That each name which
is referenced matters is not said: it may stand in an argument that a fault comes before. -/
theorem depends_on_references (e : Expression) :
    (∀ s t : TypeScope, AgreeOn e s t → e.infer s = e.infer t) ∧
    (∀ s t : ValueScope, AgreeOn e s t → e.eval s = e.eval t) ∧
    (∀ s t : LowerScope, AgreeOn e s.types t.types → AgreeOn e s.code t.code →
      e.lower s = e.lower t) ∧
    ∀ name, ((∃ s, e.infer s = .error (.unknownVariable name)) ∨
        (∃ s, e.eval s = .error (.unknownVariable name)) ∨
        (∃ s, e.lower s = .error (.unknownVariable name))) →
      e.references name = true := by
  refine ⟨fun _ _ => infer_congr e, fun _ _ => eval_congr e, fun _ _ => lower_congr e, ?_⟩
  rintro name (⟨s, hInfer⟩ | ⟨s, hEval⟩ | ⟨s, hLower⟩)
  · exact references_of_infer e hInfer
  · exact references_of_eval e hEval
  · exact references_of_lower e hLower

/-- A variable that is not referenced changes nothing, and the referenced one is missed. -/
theorem depends_on_references_position :
    let e : Expression := binary .mul (swizzle (var "rayPosition") [.y]) (var "rayPosition")
    let few : ValueScope := fun name =>
      if name = "rayPosition" then some (.float3 ⟨1.0, 2.0, 3.0⟩) else none
    let many : ValueScope := fun name =>
      if name = "albedo" then some (.float1 0.5) else few name
    let code : String → Shader.Expr := .field (.ident "inp")
    few "albedo" ≠ many "albedo" ∧
      e.infer few.types = e.infer many.types ∧ e.eval few = e.eval many ∧
      e.lower ⟨few.types, code⟩ = e.lower ⟨many.types, code⟩ ∧
      e.infer ValueScope.empty.types = .error (.unknownVariable "rayPosition") ∧
      e.references "rayPosition" = true := by
  intro e few many code
  have hOther : few "albedo" ≠ many "albedo" := nofun
  have hValues : AgreeOn e few many := by
    intro name hName
    obtain rfl : "rayPosition" = name := by simpa [e, references] using hName
    rfl
  have hTypes : AgreeOn e few.types many.types := fun name hName =>
    congrArg (Option.map Value.type) (hValues name hName)
  have hMissed : e.infer ValueScope.empty.types = .error (.unknownVariable "rayPosition") := rfl
  obtain ⟨hInfer, hEval, hLower, hReferences⟩ := depends_on_references e
  exact ⟨hOther, hInfer _ _ hTypes, hEval _ _ hValues, hLower _ _ hTypes fun _ _ => rfl, hMissed,
    hReferences "rayPosition" (.inl ⟨_, hMissed⟩)⟩

end PathTracer.Expression
