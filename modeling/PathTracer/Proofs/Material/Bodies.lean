import PathTracer.Material.Program

/-! Which bodies are accepted, and what the others are blamed for. Both are said
without the checks: statements pass one after the other, each under the locals that
those before it declare, and the first that does not pass has the defect that is
reported on its line. -/
namespace PathTracer.Material

variable {role : MaterialRole} {locals after : Locals} {name : String} {type : ValueType}

/-! ### Assignments -/

/-- A value of a type can be assigned to a name, which leaves some locals. -/
inductive Assigns (role : MaterialRole) (locals : Locals) (name : String) (type : ValueType) :
    Locals → Prop where
  | field {field : Field} (hField : Field.ofTarget? role name = some field)
      (hFits : type.assignableTo field.type = true) : Assigns role locals name type locals
  | replaces {declared : ValueType} (hField : Field.ofTarget? role name = none)
      (hName : isIdentifier name = true) (hLocal : locals.lookup name = some declared)
      (hFits : type.assignableTo declared = true) : Assigns role locals name type locals
  | declares (hField : Field.ofTarget? role name = none) (hName : isIdentifier name = true)
      (hFresh : locals.lookup name = none) : Assigns role locals name type ((name, type) :: locals)

/-- Why a value of a type cannot be assigned to a name. -/
inductive Refuses (role : MaterialRole) (locals : Locals) (name : String) (type : ValueType) :
    Defect → Prop where
  | field {field : Field} (hField : Field.ofTarget? role name = some field)
      (hFits : type.assignableTo field.type = false) :
      Refuses role locals name type (.typeMismatch field.type.name type.name)
  | unnamed (hField : Field.ofTarget? role name = none) (hName : isIdentifier name = false) :
      Refuses role locals name type (.malformedOption name "not a valid variable name")
  | replaces {declared : ValueType} (hField : Field.ofTarget? role name = none)
      (hName : isIdentifier name = true) (hLocal : locals.lookup name = some declared)
      (hFits : type.assignableTo declared = false) :
      Refuses role locals name type (.typeMismatch declared.name type.name)

theorem Assigns.exists_target (h : Assigns role locals name type after) :
    ∃ target, targetOf role locals name type = .ok target ∧ target.declare locals = after := by
  cases h with
  | @field field hField hFits =>
      refine ⟨.field field, ?_, rfl⟩
      simp only [targetOf, hField, hFits, if_true]
  | @replaces declared hField hName hLocal hFits =>
      refine ⟨.variable name declared false, ?_, rfl⟩
      simp only [targetOf, hField, hName, hLocal, hFits, Bool.not_true, if_true]
      rfl
  | declares hField hName hFresh =>
      refine ⟨.variable name type true, ?_, rfl⟩
      simp only [targetOf, hField, hName, hFresh, Bool.not_true]
      rfl

theorem Refuses.targetOf_eq {d : Defect} (h : Refuses role locals name type d) :
    targetOf role locals name type = .error d := by
  cases h with
  | field hField hFits => simp [targetOf, mismatch, hField, hFits]
  | unnamed hField hName => simp [targetOf, hField, hName]
  | replaces hField hName hLocal hFits => simp [targetOf, mismatch, hField, hName, hLocal, hFits]

/-- A value is assigned or refused. -/
theorem assigns_or_refuses (role : MaterialRole) (locals : Locals) (name : String)
    (type : ValueType) :
    (∃ after, Assigns role locals name type after) ∨ ∃ d, Refuses role locals name type d := by
  cases hField : Field.ofTarget? role name with
  | some field =>
      cases hFits : type.assignableTo field.type with
      | true => exact .inl ⟨_, .field hField hFits⟩
      | false => exact .inr ⟨_, .field hField hFits⟩
  | none =>
      cases hName : isIdentifier name with
      | false => exact .inr ⟨_, .unnamed hField hName⟩
      | true =>
          cases hLocal : locals.lookup name with
          | none => exact .inl ⟨_, .declares hField hName hLocal⟩
          | some declared =>
              cases hFits : type.assignableTo declared with
              | true => exact .inl ⟨_, .replaces hField hName hLocal hFits⟩
              | false => exact .inr ⟨_, .replaces hField hName hLocal hFits⟩

/-! ### Statements -/

/-- A statement can be read, has a type and assigns its value. -/
inductive Passes (role : MaterialRole) (locals : Locals) (s : Statement) : Locals → Prop where
  | intro {expr : Expression} {type : ValueType} {after : Locals}
      (hRead : Expression.parse s.source = .ok expr)
      (hType : expr.infer (typeScope role locals) = .ok type)
      (hAssigns : Assigns role locals s.target type after) : Passes role locals s after

/-- What a statement that does not pass is blamed for. -/
inductive Fails (role : MaterialRole) (locals : Locals) (s : Statement) : Defect → Prop where
  | unreadable {e : Expression.ParseError} (hRead : Expression.parse s.source = .error e) :
      Fails role locals s (.malformedOption s.target e.message)
  | untyped {expr : Expression} {d : Defect} (hRead : Expression.parse s.source = .ok expr)
      (hType : expr.infer (typeScope role locals) = .error d) : Fails role locals s d
  | refused {expr : Expression} {type : ValueType} {d : Defect}
      (hRead : Expression.parse s.source = .ok expr)
      (hType : expr.infer (typeScope role locals) = .ok type)
      (hRefuses : Refuses role locals s.target type d) : Fails role locals s d

variable {s : Statement}

theorem Passes.exists_checked (h : Passes role locals s after) :
    ∃ typed, checkStatement role locals s = .ok typed ∧ typed.target.declare locals = after := by
  obtain @⟨expr, type, _, hRead, hType, hAssigns⟩ := h
  obtain ⟨target, hTarget, hDeclares⟩ := hAssigns.exists_target
  refine ⟨⟨target, expr, s.line⟩, ?_, hDeclares⟩
  simp only [checkStatement, hRead, hType, hTarget]

theorem Fails.checkStatement_eq {d : Defect} (h : Fails role locals s d) :
    checkStatement role locals s = .error d := by
  cases h with
  | unreadable hRead => simp only [checkStatement, hRead]
  | untyped hRead hType => simp only [checkStatement, hRead, hType]
  | refused hRead hType hRefuses => simp only [checkStatement, hRead, hType, hRefuses.targetOf_eq]

theorem passes_or_fails (role : MaterialRole) (locals : Locals) (s : Statement) :
    (∃ after, Passes role locals s after) ∨ ∃ d, Fails role locals s d := by
  cases hRead : Expression.parse s.source with
  | error e => exact .inr ⟨_, .unreadable hRead⟩
  | ok expr =>
      cases hType : expr.infer (typeScope role locals) with
      | error d => exact .inr ⟨_, .untyped hRead hType⟩
      | ok type =>
          obtain ⟨after, hAssigns⟩ | ⟨d, hRefuses⟩ := assigns_or_refuses role locals s.target type
          · exact .inl ⟨after, .intro hRead hType hAssigns⟩
          · exact .inr ⟨d, .refused hRead hType hRefuses⟩

/-! ### Bodies -/

/-- Statements pass one after the other. -/
inductive AllPass (role : MaterialRole) : Locals → List Statement → Locals → Prop where
  | nil (locals : Locals) : AllPass role locals [] locals
  | cons {locals between after : Locals} {s : Statement} {rest : List Statement}
      (hFirst : Passes role locals s between) (hRest : AllPass role between rest after) :
      AllPass role locals (s :: rest) after

/-- A statement is the first of a body that does not pass. -/
inductive Blamed (role : MaterialRole) (body : List Statement) (s : Statement) : Defect → Prop where
  | intro {before rest : List Statement} {locals : Locals} {d : Defect}
      (hBody : body = before ++ s :: rest) (hBefore : AllPass role [] before locals)
      (hFails : Fails role locals s d) : Blamed role body s d

theorem AllPass.exists_checked {body : List Statement} (h : AllPass role locals body after) :
    ∃ typed, checkBody role locals body = .ok typed := by
  induction h with
  | nil locals => exact ⟨[], rfl⟩
  | cons hFirst _ ih =>
      obtain ⟨typed, hTyped, hDeclares⟩ := hFirst.exists_checked
      obtain ⟨more, hMore⟩ := ih
      rw [← hDeclares] at hMore
      exact ⟨typed :: more, by simp only [checkBody, hTyped, hMore]⟩

theorem Blamed.mem {body : List Statement} {d : Defect} (h : Blamed role body s d) : s ∈ body := by
  obtain ⟨rfl, -, -⟩ := h
  exact List.mem_append_right _ List.mem_cons_self

/-- The checks end with the first statement that does not pass. -/
theorem AllPass.checkBody_eq {before : List Statement} {d : Defect}
    (hBefore : AllPass role locals before after) (hFails : Fails role after s d)
    (rest : List Statement) : checkBody role locals (before ++ s :: rest) = .error ⟨d, s.line⟩ := by
  induction hBefore with
  | nil locals => simp only [List.nil_append, checkBody, hFails.checkStatement_eq]
  | cons hFirst _ ih =>
      obtain ⟨typed, hTyped, rfl⟩ := hFirst.exists_checked
      simp only [List.cons_append, checkBody, hTyped, ih hFails]

theorem Blamed.checkBody_eq {body : List Statement} {d : Defect} (h : Blamed role body s d) :
    checkBody role [] body = .error ⟨d, s.line⟩ := by
  obtain ⟨rfl, hBefore, hFails⟩ := h
  exact hBefore.checkBody_eq hFails _

theorem Blamed.not_allPass {body : List Statement} {d : Defect} (h : Blamed role body s d) :
    ¬ AllPass role [] body after := by
  intro hPass
  obtain ⟨typed, hTyped⟩ := hPass.exists_checked
  cases hTyped.symm.trans h.checkBody_eq

/-- The statements of a body pass, or there is a first one that does not. Nothing is said of
the statements behind it. -/
theorem allPass_or_fails (role : MaterialRole) (locals : Locals) (body : List Statement) :
    (∃ after, AllPass role locals body after) ∨
      ∃ before s rest between d, body = before ++ s :: rest ∧ AllPass role locals before between ∧
        Fails role between s d := by
  induction body generalizing locals with
  | nil => exact .inl ⟨locals, .nil locals⟩
  | cons s rest ih =>
      obtain ⟨between, hPasses⟩ | ⟨d, hFails⟩ := passes_or_fails role locals s
      · obtain ⟨after, hRest⟩ | ⟨before, t, more, last, d, hBody, hBefore, hFails⟩ := ih between
        · exact .inl ⟨after, .cons hPasses hRest⟩
        · exact .inr ⟨s :: before, t, more, last, d, by rw [hBody]; rfl, .cons hPasses hBefore, hFails⟩
      · exact .inr ⟨[], s, rest, locals, d, rfl, .nil locals, hFails⟩

/-- A body passes, or one of its statements is blamed. -/
theorem allPass_or_blamed (role : MaterialRole) (body : List Statement) :
    (∃ after, AllPass role [] body after) ∨ ∃ s d, Blamed role body s d := by
  obtain hPass | ⟨before, s, rest, between, d, hBody, hBefore, hFails⟩ :=
    allPass_or_fails role [] body
  · exact .inl hPass
  · exact .inr ⟨s, d, .intro hBody hBefore hFails⟩

end PathTracer.Material
