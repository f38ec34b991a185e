import Mathlib.Data.List.Basic
import PathTracer.Expression.Evaluation

/-! Faults of single operations. Joins, calls and constructors fail only because
types or counts do not fit, and name what they expected by a type or a number. -/
namespace PathTracer

theorem ValueType.head?_name (t : ValueType) : t.name.toList.head? ≠ some 's' := by
  cases t <;> decide

namespace Expression

/-- A result whose fault, if any, is that types or counts do not fit. What was
expected does not begin like the fault of a selection. -/
def Mismatches {α : Type} (result : Except Defect α) : Prop :=
  ∀ d, result = .error d → ∃ expected actual,
    d = .typeMismatch expected actual ∧ expected.toList.head? ≠ some 's'

theorem Mismatches.ok {α : Type} (x : α) : Mismatches (.ok x) :=
  nofun

theorem Mismatches.error {α β : Type} {d : Defect} {result : Except Defect α}
    (h : Mismatches result) (hError : result = .error d) :
    Mismatches (.error d : Except Defect β) := by
  intro other hSame
  exact h other (hError.trans (congrArg Except.error (Except.error.inj hSame)))

/-- No variable is missed where all that can be wrong is a mismatch. -/
theorem Mismatches.ne_unknownVariable {α : Type} {result : Except Defect α}
    (h : Mismatches result) (name : String) : result ≠ .error (.unknownVariable name) := by
  intro hError
  obtain ⟨expected, actual, hOther, _⟩ := h _ hError
  cases hOther

theorem mismatches_mismatch {α : Type} {expected : String} (actual : String)
    (h : expected.toList.head? ≠ some 's') :
    Mismatches (mismatch expected actual : Except Defect α) :=
  fun _ hSame => ⟨expected, actual, (Except.error.inj hSame).symm, h⟩

/-- A text that starts with a number starts with a digit. -/
theorem head?_toString_append (n : Nat) (text : String) :
    (toString n ++ text).toList.head? ≠ some 's' := by
  intro h
  have hDigits : (toString n).toList = Nat.toDigits 10 n := by
    change (String.ofList _).toList = _
    exact String.toList_ofList
  rw [String.toList_append, hDigits, List.head?_append_of_ne_nil _ Nat.toDigits_ne_nil] at h
  have hDigit := Nat.isDigit_of_mem_toDigits (by decide) (by decide) (List.mem_of_mem_head? h)
  exact absurd hDigit (by decide)

theorem mismatches_wrongArity {α : Type} (function : String) (expected actual : Nat) :
    Mismatches (wrongArity function expected actual : Except Defect α) := by
  refine mismatches_mismatch _ ?_
  rw [String.append_assoc]
  exact head?_toString_append expected _

theorem mismatches_broadcastTypes (s t : ValueType) : Mismatches (broadcastTypes s t) := by
  unfold broadcastTypes
  split
  · exact .ok _
  · exact mismatches_mismatch _ s.head?_name

theorem mismatches_broadcastAll (first : ValueType) (rest : List ValueType) :
    Mismatches (broadcastAll first rest) := by
  induction rest generalizing first with
  | nil => exact .ok first
  | cons t rest ih =>
      rw [broadcastAll]
      split
      · rename_i d hJoin
        exact (mismatches_broadcastTypes first t).error hJoin
      · exact ih _

/-- Typing a call never fails for a variable, and never for a selection. Its faults are
about the function and the types of the arguments. -/
theorem mismatches_callType (function : String) (f : Builtin) (types : List ValueType) :
    Mismatches (callType function f types) := by
  unfold callType
  split
  case h_1 | h_2 | h_7 => exact .ok _
  case h_3 | h_4 | h_5 => exact mismatches_broadcastAll _ _
  case h_6 s t u =>
    split
    · rename_i d hJoin
      exact (mismatches_broadcastAll s [t]).error hJoin
    · split_ifs
      · exact .ok _
      · exact mismatches_mismatch _ (ValueType.head?_name _)
  case h_8 =>
    split_ifs
    · exact .ok _
    · exact mismatches_mismatch _ (ValueType.head?_name _)
  case h_9 =>
    split_ifs
    · exact mismatches_mismatch _ (by decide)
    · exact mismatches_mismatch _ (by decide)
    · exact .ok _
  case h_10 =>
    dsimp only
    split_ifs
    · exact .ok _
    · refine mismatches_mismatch _ ?_
      rw [String.append_assoc]
      exact head?_toString_append _ _
  all_goals exact mismatches_wrongArity _ _ _

theorem mismatches_construct (type : ValueType) (parts : List Value) :
    Mismatches (construct type parts) := by
  unfold construct
  split
  · exact .ok _
  · dsimp only
    split
    · exact .ok _
    · exact mismatches_mismatch _ type.head?_name

theorem mismatches_applyBuiltin (function : String) (f : Builtin) (type : ValueType)
    (args : List Value) : Mismatches (applyBuiltin function f type args) := by
  unfold applyBuiltin
  split
  case h_10 => exact mismatches_construct _ _
  case h_11 => exact mismatches_wrongArity _ _ _
  all_goals exact .ok _

end Expression

end PathTracer
