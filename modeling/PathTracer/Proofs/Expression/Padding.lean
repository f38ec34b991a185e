import PathTracer.Proofs.Expression.Parsing
import PathTracer.Proofs.Expression.Typing
import PathTracer.Scene.Options

/-! Lanes beyond the type of a value are zero, from the tokens of a text to the values of its
expression. -/
namespace PathTracer

namespace Value

/-- Whether the lanes beyond the type of a value are zero. -/
def Padded (v : Value) : Prop :=
  ofFn v.type v.lanes.lane = v

/-- A value that is made component by component has zeros beyond its type. -/
theorem padded_ofFn (type : ValueType) (f : Component → Float32) : (ofFn type f).Padded := by
  cases type <;> rfl

/-- A scalar has zeros beyond its first lane. -/
theorem padded_float1 (x : Float32) : (float1 x).Padded :=
  rfl

/-- A vector of three has a zero in its last lane. -/
theorem padded_float3 (v : Vec3 Float32) : (float3 v).Padded :=
  rfl

/-- A value that is made of a list has zeros beyond the list. -/
theorem padded_of_ofList? {xs : List Float32} {v : Value} (h : ofList? xs = some v) :
    v.Padded := by
  unfold ofList? at h
  split at h <;> cases h <;> rfl

/-- A value is told by its type and its components. -/
theorem Padded.ext {v w : Value} (hv : v.Padded) (hw : w.Padded) (hType : v.type = w.type)
    (h : v.components = w.components) : v = w := by
  rw [← hv, ← hw]
  obtain ⟨type, lanes⟩ := v
  obtain ⟨other, numbers⟩ := w
  obtain rfl : type = other := hType
  cases type <;> simp_all [components, ofFn, Vec4.toList, Vec4.lane, ValueType.components]

end Value

namespace Expression

/-! ### Constants of a text -/

/-- An expression whose constants have zeros beyond their types. -/
inductive Padded : Expression → Prop where
  | const {v : Value} (h : v.Padded) : Padded (const v)
  | var (name : String) : Padded (var name)
  | neg {e : Expression} (h : Padded e) : Padded (neg e)
  | binary (op : Operator) {a b : Expression} (hLeft : Padded a) (hRight : Padded b) :
    Padded (binary op a b)
  | call (function : String) {args : List Expression} (h : ∀ e ∈ args, Padded e) :
    Padded (call function args)
  | swizzle {e : Expression} (h : Padded e) (selection : List Component) :
    Padded (swizzle e selection)

/-- A text whose colors have zeros beyond their types. -/
def PaddedText (text : List Token) : Prop :=
  ∀ v, .color v ∈ text → v.Padded

/-- Fewer tokens have no other colors. -/
theorem PaddedText.mono {text other : List Token} (h : PaddedText text) (hLess : other ⊆ text) :
    PaddedText other :=
  fun v hv => h v (hLess hv)

mutual

/-- A primary expression has padded literals where its tokens have. -/
theorem IsPrimary.padded {text : List Token} {e : Expression} :
    IsPrimary text e → PaddedText text → e.Padded
  | .number x, _ => .const (Value.padded_float1 x)
  | .color v, h => .const (h v (by simp))
  | .name x, _ => .var x
  | .callNone f, _ => .call f (by simp)
  | @IsPrimary.call f text _ hArgs, h => .call f (hArgs.padded (h.mono (by grind)))
  | .group hInner, h => hInner.padded (h.mono (by simp))

/-- A selection has no literals but those of its base. -/
theorem IsPostfix.padded {text : List Token} {e : Expression} :
    IsPostfix text e → PaddedText text → e.Padded
  | .primary hBase, h => hBase.padded h
  | .select hBase _, h => .swizzle (hBase.padded (h.mono (by simp))) _

/-- Negating a literal keeps its padding at zero, though of the other sign. -/
theorem IsUnary.padded {text : List Token} {e : Expression} :
    IsUnary text e → PaddedText text → e.Padded
  | .postfixed hBase, h => hBase.padded h
  | .minusConst _, _ => .const (Value.padded_ofFn _ _)
  | .minus hBase _, h => .neg (hBase.padded (h.mono (by simp)))

/-- A product has the literals of its factors. -/
theorem IsProduct.padded {text : List Token} {e : Expression} :
    IsProduct text e → PaddedText text → e.Padded
  | .unary hBase, h => hBase.padded h
  | .join hLeft _ hRight, h =>
    .binary _ (hLeft.padded (h.mono (by simp))) (hRight.padded (h.mono (by simp)))

/-- A sum has the literals of its terms. -/
theorem IsSum.padded {text : List Token} {e : Expression} :
    IsSum text e → PaddedText text → e.Padded
  | .product hBase, h => hBase.padded h
  | .join hLeft _ hRight, h =>
    .binary _ (hLeft.padded (h.mono (by simp))) (hRight.padded (h.mono (by simp)))

/-- A list has the literals of its items. -/
theorem IsSums.padded {text : List Token} {items : List Expression} :
    IsSums text items → PaddedText text → ∀ e ∈ items, e.Padded
  | .last hItem, h => by
      simpa using hItem.padded h
  | .more hFirst hRest, h =>
    List.forall_mem_cons.mpr ⟨hFirst.padded (h.mono (by simp)), hRest.padded (h.mono (by simp))⟩

end

/-- A folded list is padded as every value that is made of a list. -/
theorem IsList.padded {text : List Token} {e : Expression} (h : IsList text e)
    (hText : PaddedText text) : e.Padded := by
  cases h with
  | single h => exact h.padded hText
  | constant _ _ _ hValue => exact .const (Value.padded_of_ofList? hValue)
  | vector h _ _ => exact .call _ (h.padded hText)

/-- A color has zeros beyond its digits. -/
theorem padded_of_color {digits : List Char} {v : Value} (h : color digits = .ok v) :
    v.Padded := by
  unfold color at h
  split at h
  · cases h
  · dsimp only at h
    split at h
    · rename_i w hColor
      cases h
      obtain ⟨bytes, _, hValue⟩ := Option.bind_eq_some_iff.mp hColor
      exact Value.padded_of_ofList? hValue
    · cases h

/-- A color that is read has zeros beyond its digits. -/
theorem padded_of_lex {c : Char} {rest : List Char} {lexed : Lexed} (h : lex c rest = .ok lexed)
    {v : Value} (hToken : lexed.1 = .color v) : v.Padded := by
  unfold lex lexNumber lexColor at h
  split at h
  · split at h
    · cases h
      cases hToken
    · cases h
  · split at h
    · split at h
      · rename_i w hColor
        cases h
        cases hToken
        exact padded_of_color hColor
      · cases h
    · split at h
      · cases h
        cases hToken
      · split at h
        · cases h
          cases hToken
        · cases h

/-- All colors of a text have zeros beyond their digits. -/
theorem padded_tokens (source : List Char) :
    ∀ {text : List Token}, tokens source = .ok text → PaddedText text := by
  fun_induction tokens source with
  | case1 =>
      intro text h
      cases h
      simp [PaddedText]
  | case2 c rest _ ih => exact ih
  | case3 => exact nofun
  | case4 => exact nofun
  | case5 c rest _ lexed hLex more hMore ih =>
      intro text h
      cases h
      intro v hv
      rcases List.mem_cons.mp hv with hFirst | hRest
      · exact padded_of_lex hLex hFirst.symm
      · exact ih hMore v hRest

/-- All literals of a parsed expression have zeros beyond their types. -/
theorem padded_of_parse {source : String} {e : Expression} (h : parse source = .ok e) :
    e.Padded := by
  unfold parse at h
  split at h
  · cases h
  · rename_i text hTokens
    refine (ofTokens_eq_ok_iff.mp h).padded (padded_tokens source.toList ?_)
    unfold tokenize at hTokens
    split at hTokens
    · cases hTokens
    · exact hTokens

/-! ### Values -/

/-- A scope whose values have zeros beyond their types. -/
def PaddedScope (scope : ValueScope) : Prop :=
  ∀ name v, scope name = some v → v.Padded

/-- A value that is constructed has zeros beyond its type. -/
theorem padded_of_construct {type : ValueType} {parts : List Value} {v : Value}
    (h : construct type parts = .ok v) : v.Padded := by
  unfold construct at h
  split at h
  · cases h
    exact Value.padded_ofFn _ _
  · dsimp only at h
    split at h
    · rename_i w hValue
      cases h
      exact Value.padded_of_ofList? hValue
    · cases h

/-- Builtins return values with zeros beyond their types. -/
theorem padded_of_applyBuiltin {function : String} {f : Builtin} {type : ValueType}
    {args : List Value} {v : Value} (h : applyBuiltin function f type args = .ok v) :
    v.Padded := by
  unfold applyBuiltin at h
  split at h
  case h_10 => exact padded_of_construct h
  case h_11 => cases h
  all_goals
    cases h
    first | exact Value.padded_ofFn _ _ | exact Value.padded_float1 _ | exact Value.padded_float3 _

/-- A value has zeros beyond its type, or is that of a variable as it stands. -/
theorem Padded.eval_cases {scope : ValueScope} :
    {e : Expression} → e.Padded → {v : Value} → e.eval scope = .ok v →
      v.Padded ∨ ∃ name, scope name = some v
  | .const w, h, v, hEval => by
      cases hEval
      cases h with
      | const h => exact .inl h
  | .var name, _, v, hEval => by
      rw [Expression.eval] at hEval
      split at hEval
      · rename_i w hValue
        cases hEval
        exact .inr ⟨name, hValue⟩
      · cases hEval
  | .neg e, _, v, hEval => by
      rw [Expression.eval] at hEval
      split at hEval
      · cases hEval
      · cases hEval
        exact .inl (Value.padded_ofFn _ _)
  | .binary op a b, _, v, hEval => by
      simp only [Expression.eval] at hEval
      split at hEval
      · cases hEval
      · split at hEval
        · cases hEval
        · split at hEval
          · cases hEval
          · cases hEval
            exact .inl (Value.padded_ofFn _ _)
  | .swizzle e selection, _, v, hEval => by
      simp only [Expression.eval] at hEval
      split at hEval
      · cases hEval
      · split at hEval
        · rename_i w hValue
          cases hEval
          exact .inl (Value.padded_of_ofList? hValue)
        · cases hEval
  | .call function args, _, v, hEval => by
      simp only [Expression.eval] at hEval
      split at hEval
      · cases hEval
      · split at hEval
        · cases hEval
        · split at hEval
          · cases hEval
          · exact .inl (padded_of_applyBuiltin hEval)

/-- Evaluation keeps zeros beyond types, where the scope and the literals have them. -/
theorem Padded.eval {scope : ValueScope} (hScope : PaddedScope scope) {e : Expression}
    (h : e.Padded) {v : Value} (hEval : e.eval scope = .ok v) : v.Padded := by
  obtain hPadded | ⟨name, hValue⟩ := h.eval_cases hEval
  · exact hPadded
  · exact hScope name v hValue

end Expression

/-- The value of an option's text has zeros beyond its type. -/
theorem Options.padded_of_evalSource {name source : String} {v : Value}
    (h : evalSource name source = .ok v) : v.Padded := by
  unfold evalSource at h
  split at h
  · cases h
  · rename_i e hParse
    split at h
    · cases h
    · rename_i w hEval
      cases h
      have hScope : Expression.PaddedScope .empty := fun _ _ hNone => by cases hNone
      exact (Expression.padded_of_parse hParse).eval hScope hEval

end PathTracer
