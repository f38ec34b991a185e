import Mathlib.Data.List.Forall2

/-! Facts on lists, options and results of any elements. The modules that use them say
what the elements are. -/
namespace PathTracer

section lists

variable {α β : Type}

/-- Going through a list gives results exactly if it gives one for each element, in the
order of the elements. -/
theorem mapM_eq_some_iff {f : α → Option β} {xs : List α} {ys : List β} :
    xs.mapM f = some ys ↔ List.Forall₂ (fun x y => f x = some y) xs ys := by
  induction xs generalizing ys with
  | nil => cases ys <;> simp
  | cons x xs ih =>
      rw [List.mapM_cons, List.forall₂_cons_left_iff]
      cases hFirst : f x with
      | none => simp
      | some y =>
          cases hRest : xs.mapM f with
          | none =>
              simp only [Option.bind_eq_bind, Option.bind_some, Option.bind_none, reduceCtorEq,
                false_iff, not_exists, not_and, ← ih, hRest]
              simp
          | some ys =>
              simp only [← ih, hRest]
              simp [eq_comm]

/-- Where nothing fails, the results are those of a function that cannot fail. -/
theorem mapM_eq_some {f : α → Option β} {g : α → β} {xs : List α}
    (h : ∀ x ∈ xs, f x = some (g x)) : xs.mapM f = some (xs.map g) :=
  mapM_eq_some_iff.mpr (List.forall₂_map_right_iff.mpr (List.forall₂_same.mpr h))

/-- Of lists that are related pairwise every element of the second has a partner in the
first. Nothing is said of how many it has. -/
theorem exists_of_forall₂ {R : α → β → Prop} {as : List α} {bs : List β}
    (h : List.Forall₂ R as bs) {b : β} (hb : b ∈ bs) : ∃ a ∈ as, R a b := by
  induction h with
  | nil => cases hb
  | cons hPair _ ih =>
      rcases List.mem_cons.mp hb with rfl | hRest
      · exact ⟨_, List.mem_cons_self, hPair⟩
      · obtain ⟨a, ha, hPartner⟩ := ih hRest
        exact ⟨a, List.mem_cons_of_mem _ ha, hPartner⟩

end lists

section results

variable {ε α β : Type} {x : Except ε α}

theorem bind_eq_ok {f : α → Except ε β} {b : β} :
    x.bind f = .ok b ↔ ∃ a, x = .ok a ∧ f a = .ok b := by
  cases x <;> simp [Except.bind]

theorem map_eq_ok {f : α → β} {b : β} : x.map f = .ok b ↔ ∃ a, x = .ok a ∧ f a = b := by
  cases x <;> simp [Except.map]

theorem exists_ok_of_isOk (h : x.isOk = true) : ∃ a, x = .ok a := by
  cases x with
  | error e => cases h
  | ok a => exact ⟨a, rfl⟩

/-- Where something of a result is known, there is one. -/
theorem exists_ok_of_map {f : α → β} {b : β} (h : x.toOption.map f = some b) :
    ∃ a, x = .ok a ∧ f a = b := by
  cases x with
  | error e => cases h
  | ok a => exact ⟨a, rfl, Option.some.inj h⟩

end results

end PathTracer
