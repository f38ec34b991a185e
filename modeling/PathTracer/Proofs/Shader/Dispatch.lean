import PathTracer.Proofs.Shader.Generation

/-! The function that finds the material of an index. It tries the materials one
after the other, and each of them is called by a name that no other function has. -/
namespace PathTracer

/-! ### Names of functions -/

theorem Expression.not_material_of_ofName? {function : String} {f : Builtin}
    (h : Builtin.ofName? function = some f) : function.toList.take 4 ≠ ['m', 'a', 't', 'e'] := by
  unfold Builtin.ofName? at h
  split at h
  all_goals first
    | decide
    | cases h

/-- No function of the expression language is called like that of a material. -/
theorem Expression.ofName?_material (rest : String) :
    Builtin.ofName? ("material_" ++ rest) = none := by
  refine Option.eq_none_iff_forall_ne_some.mpr fun f h => not_material_of_ofName? h ?_
  rw [String.toList_append]
  rfl

namespace Material.Program

theorem functionName_surface {p : Program} (h : p.role = .surface) :
    p.functionName = "material_" ++ toString p.index := by
  rw [functionName, h]
  rfl

/-- Different indices make different names. -/
theorem index_of_functionName {p q : Program} (hp : p.role = .surface) (hq : q.role = .surface)
    (h : p.functionName = q.functionName) : p.index = q.index := by
  rw [functionName_surface hp, functionName_surface hq] at h
  have hChars := congrArg String.toList h
  rw [String.toList_append, String.toList_append, List.append_cancel_left_eq] at hChars
  exact Nat.repr_injective (String.toList_injective hChars)

end Material.Program

namespace Shader

/-- A call of a material is not one of the expression language. -/
theorem Library.apply_functionName (lib : Library) {m : Material.Program}
    (h : m.role = .surface) (args : List Datum) :
    lib.apply m.functionName args = lib.call m.functionName args := by
  rw [apply, Material.Program.functionName_surface h, Expression.ofName?_material]

/-! ### The cascade -/

variable {lib : Library} {env : Env} {id : Int} {inp : Datum}

/-- The first item with an index is called. Without one, the statements after the
cascade are next. -/
theorem execAll_chain {ι : Type} {index : ι → Int} {name : ι → String} {items : List ι}
    (hId : env.lookup "id" = some (.int id)) (hInp : env.lookup "inp" = some inp)
    (hNames : ∀ x ∈ items, ∀ args, lib.apply (name x) args = lib.call (name x) args) :
    Stmt.execAll lib env (Stmt.chain (items.map fun x =>
        (.binary .eq (.ident "id") (.int (index x)),
          [.return (some (.call (name x) [.ident "inp"]))]))) =
      match items.find? fun x => id = index x with
      | some x => (lib.call (name x) [inp]).map fun v => .returned (some v)
      | none => some (.running env) := by
  have hCondition (x : ι) : (Expr.binary .eq (.ident "id") (.int (index x))).eval lib env =
      some (.bool (id = index x)) := by
    simp only [Expr.eval, hId, Option.some_or, Option.bind_some]
    rfl
  cases hFound : items.find? fun x => id = index x with
  | none =>
      refine Stmt.execAll_chain_of_forall (List.forall_mem_map.mpr fun x hx => ?_)
      have hOther := List.find?_eq_none.mp hFound x hx
      rw [hCondition, decide_eq_false (by simpa using hOther)]
  | some x =>
      obtain ⟨hSame, passed, others, rfl, hPassed⟩ := List.find?_eq_some_iff_append.mp hFound
      have hCall : Stmt.execAll lib env [.return (some (.call (name x) [.ident "inp"]))] =
          (lib.call (name x) [inp]).map fun v => .returned (some v) := by
        rw [Stmt.execAll_singleton]
        simp only [Stmt.exec, Expr.eval, Expr.evalAll, hInp, Option.some_or, Option.bind_some,
          Option.map_some, hNames x (by simp)]
      rw [List.map_append, List.map_cons, Stmt.execAll_chain_of_first
        (List.forall_mem_map.mpr fun y hy => by rw [hCondition]; simpa using hPassed y hy)
        (by rw [hCondition, hSame]), hCall, Option.map_map]
      rfl

/-- The body of the cascade calls the first material with an index, and the default
material if there is none. -/
theorem execAll_dispatchFunction {materials : List Material.Program}
    (hSurface : ∀ m ∈ materials, m.role = .surface) (lib : Library) (id : Int) (inp : Datum) :
    Stmt.execAll lib [("id", .int id), ("inp", inp)] (dispatchFunction materials).body =
      ((materials.find? fun m => id = m.shaderIndex).elim (lib.call "default_material" [])
        fun m => lib.call m.functionName [inp]).map fun v => .returned (some v) := by
  have hDefault : Stmt.execAll lib [("id", .int id), ("inp", inp)]
      [.return (some (.call "default_material" []))] =
      (lib.call "default_material" []).map fun v => .returned (some v) := by
    have hApply : lib.apply "default_material" [] = lib.call "default_material" [] := rfl
    simp only [Stmt.execAll, Stmt.exec, Expr.eval, Expr.evalAll, Option.bind_some, hApply]
    cases lib.call "default_material" [] <;> rfl
  change Stmt.execAll lib _ (Stmt.chain _ ++ [Stmt.return (some (.call "default_material" []))]) = _
  rw [Stmt.execAll_append, execAll_chain (by rfl) (by rfl) fun m hm args =>
    lib.apply_functionName (hSurface m hm) args]
  cases materials.find? fun m => id = m.shaderIndex with
  | none => exact hDefault
  | some m =>
      simp only [Option.elim_some]
      cases lib.call m.functionName [inp] <;> rfl

/-! ### The functions of a program -/

/-- The function of a material has the name that it is called by. -/
theorem name_of_function {m : Material.Program} {f : Function} (h : m.function = .ok f) :
    f.name = m.functionName := by
  obtain ⟨code, -, rfl⟩ := Material.Program.function_eq_ok_iff.mp h
  rfl

/-- Where indices differ, the name of a material is that of its own function. Names of
materials may be alike after they were made names of functions, and it is the index that
keeps the functions apart. -/
theorem find?_functionName {materials : List Material.Program} {surfaces : List Function}
    (h : List.Forall₂ (fun m f => m.function = .ok f) materials surfaces)
    (hSurface : ∀ m ∈ materials, m.role = .surface)
    (hIndices : (materials.map Material.Program.index).Nodup) (more : List Function) :
    ∀ m ∈ materials, ∃ f, m.function = .ok f ∧
      (surfaces ++ more).find? (fun g => g.name = m.functionName) = some f := by
  induction h with
  | nil => nofun
  | @cons first f rest others hFunction _ ih =>
      obtain ⟨hFirst, hRest⟩ := List.forall_mem_cons.mp hSurface
      obtain ⟨hOther, hNodup⟩ := List.nodup_cons.mp hIndices
      intro m hm
      rw [List.cons_append, List.find?_cons]
      obtain rfl | hMem := List.mem_cons.mp hm
      · exact ⟨f, hFunction, by rw [decide_eq_true (name_of_function hFunction)]⟩
      · have hName : f.name ≠ m.functionName := fun hSame => hOther <| List.mem_map.mpr
          ⟨m, hMem, (Material.Program.index_of_functionName hFirst (hRest m hMem)
            ((name_of_function hFunction).symm.trans hSame)).symm⟩
        rw [decide_eq_false hName]
        exact ih hRest hNodup m hMem

/-- No material has a function of another name than its own. -/
theorem find?_of_not_material {materials : List Material.Program} {surfaces : List Function}
    (h : List.Forall₂ (fun m f => m.function = .ok f) materials surfaces)
    (hSurface : ∀ m ∈ materials, m.role = .surface) (more : List Function) {name : String}
    (hName : name.toList.take 4 ≠ ['m', 'a', 't', 'e']) :
    (surfaces ++ more).find? (fun g => g.name = name) = more.find? fun g => g.name = name := by
  induction h with
  | nil => rfl
  | @cons first f rest others hFunction _ ih =>
      obtain ⟨hFirst, hRest⟩ := List.forall_mem_cons.mp hSurface
      have hOther : f.name ≠ name := by
        rintro rfl
        rw [name_of_function hFunction, Material.Program.functionName_surface hFirst,
          String.toList_append] at hName
        exact hName rfl
      rw [List.cons_append, List.find?_cons, decide_eq_false hOther, ih hRest]

end Shader

end PathTracer
