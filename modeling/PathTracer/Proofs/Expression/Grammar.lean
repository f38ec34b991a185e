import Mathlib
import PathTracer.Expression.Parser
import PathTracer.Proofs.Containers

/-! The grammar of the expression language, with the tree that each derivation
stands for. Sums and products grow to the right of what they have, so that
operators of one precedence associate to the left. -/
namespace PathTracer

/-! ### Selections -/

/-- The letters of a component, by place and by color. -/
def Component.letters : Component → List Char
  | x => ['x', 'r']
  | y => ['y', 'g']
  | z => ['z', 'b']
  | w => ['w', 'a']

theorem Component.ofLetter?_eq_some_iff {c : Char} {k : Component} :
    ofLetter? c = some k ↔ c ∈ k.letters := by
  unfold ofLetter?
  cases k <;> simp only [letters, List.mem_cons, List.not_mem_nil, or_false] <;> grind

theorem Component.utf8Size_of_mem_letters {c : Char} {k : Component} (h : c ∈ k.letters) :
    c.utf8Size = 1 := by
  cases k <;> simp only [letters, List.mem_cons, List.not_mem_nil, or_false] at h <;>
    rcases h with rfl | rfl <;> rfl

namespace Expression

/-- A text of one to four letters, each of which selects a component. -/
structure IsSelection (text : String) (components : List Component) : Prop where
  letters : List.Forall₂ (fun c (k : Component) => c ∈ k.letters) text.toList components
  some_letter : 1 ≤ components.length
  few_letters : components.length ≤ 4

theorem utf8ByteSize_of_letters {text : String} {components : List Component}
    (h : List.Forall₂ (fun c (k : Component) => c ∈ k.letters) text.toList components) :
    text.utf8ByteSize = components.length := by
  rw [← String.ofList_toList (s := text), String.utf8ByteSize_ofList]
  generalize text.toList = letters at h ⊢
  induction h with
  | nil => rfl
  | cons hLetter _ ih =>
      rw [String.utf8Len_cons, ih, Component.utf8Size_of_mem_letters hLetter, List.length_cons]

/-- The text behind a point is a selection exactly if all letters are components, and there
are one to four. -/
theorem selection?_eq_some_iff {text : String} {components : List Component} :
    selection? text = some components ↔ IsSelection text components := by
  have hLetters : text.toList.mapM Component.ofLetter? = some components ↔
      List.Forall₂ (fun c (k : Component) => c ∈ k.letters) text.toList components := by
    rw [mapM_eq_some_iff]
    simp only [Component.ofLetter?_eq_some_iff]
  unfold selection?
  constructor
  · intro h
    split at h
    · cases h
    · rename_i hSize
      have hAll := hLetters.mp h
      have hBytes := utf8ByteSize_of_letters hAll
      rw [Bool.or_eq_true, not_or, String.isEmpty_iff, ← String.utf8ByteSize_eq_zero_iff, hBytes,
        decide_eq_true_eq] at hSize
      exact ⟨hAll, by omega, by omega⟩
  · intro h
    have hBytes := utf8ByteSize_of_letters h.letters
    have hSome := h.some_letter
    have hFew := h.few_letters
    rw [if_neg, hLetters.mpr h.letters]
    rw [Bool.or_eq_true, not_or, String.isEmpty_iff, ← String.utf8ByteSize_eq_zero_iff, hBytes,
      decide_eq_true_eq]
    omega

/-! ### Derivations -/

/-- Operators between terms. -/
inductive IsTermMark : Mark → Operator → Prop where
  | plus : IsTermMark .plus .add
  | minus : IsTermMark .minus .sub

/-- Operators between factors. -/
inductive IsFactorMark : Mark → Operator → Prop where
  | times : IsFactorMark .times .mul
  | slash : IsFactorMark .slash .div

mutual

inductive IsPrimary : List Token → Expression → Prop where
  | number (x : Float32) : IsPrimary [.number x] (const (.float1 x))
  | color (v : Value) : IsPrimary [.color v] (const v)
  | name (x : String) : IsPrimary [.name x] (var x)
  | callNone (f : String) : IsPrimary [.name f, .mark .opening, .mark .closing] (call f [])
  | call (f : String) {text : List Token} {args : List Expression} (hArgs : IsSums text args) :
    IsPrimary (.name f :: .mark .opening :: (text ++ [.mark .closing])) (call f args)
  | group {text : List Token} {e : Expression} (hInner : IsSum text e) :
    IsPrimary (.mark .opening :: (text ++ [.mark .closing])) e

/-- A primary expression with selections after it. -/
inductive IsPostfix : List Token → Expression → Prop where
  | primary {text : List Token} {e : Expression} (h : IsPrimary text e) : IsPostfix text e
  | select {text : List Token} {e : Expression} {s : String} {components : List Component}
    (hBase : IsPostfix text e) (hSelection : IsSelection s components) :
    IsPostfix (text ++ [.mark .point, .name s]) (swizzle e components)

/-- Minus signs before a postfix expression. Before a constant they are part of it. -/
inductive IsUnary : List Token → Expression → Prop where
  | postfixed {text : List Token} {e : Expression} (h : IsPostfix text e) : IsUnary text e
  | minusConst {text : List Token} {v : Value} (h : IsUnary text (const v)) :
    IsUnary (.mark .minus :: text) (const (v.map (-·)))
  | minus {text : List Token} {e : Expression} (h : IsUnary text e) (hOpen : ∀ v, e ≠ const v) :
    IsUnary (.mark .minus :: text) (neg e)

inductive IsProduct : List Token → Expression → Prop where
  | unary {text : List Token} {e : Expression} (h : IsUnary text e) : IsProduct text e
  | join {left right : List Token} {a b : Expression} {mark : Mark} {op : Operator}
    (hLeft : IsProduct left a) (hMark : IsFactorMark mark op) (hRight : IsUnary right b) :
    IsProduct (left ++ .mark mark :: right) (binary op a b)

inductive IsSum : List Token → Expression → Prop where
  | product {text : List Token} {e : Expression} (h : IsProduct text e) : IsSum text e
  | join {left right : List Token} {a b : Expression} {mark : Mark} {op : Operator}
    (hLeft : IsSum left a) (hMark : IsTermMark mark op) (hRight : IsProduct right b) :
    IsSum (left ++ .mark mark :: right) (binary op a b)

/-- Sums with commas between them. -/
inductive IsSums : List Token → List Expression → Prop where
  | last {text : List Token} {e : Expression} (h : IsSum text e) : IsSums text [e]
  | more {text rest : List Token} {e : Expression} {items : List Expression}
    (hFirst : IsSum text e) (hRest : IsSums rest items) :
    IsSums (text ++ .mark .comma :: rest) (e :: items)

end

/-- A constant of one number. -/
inductive IsScalar : Expression → Float32 → Prop where
  | const {v : Value} (h : v.type = .float1) : IsScalar (const v) v.x

/-- The function that makes a vector of so many components. -/
inductive IsVector : Nat → String → Prop where
  | two : IsVector 2 "vec2"
  | three : IsVector 3 "vec3"
  | four : IsVector 4 "vec4"

/-- A whole text: one sum, or two to four that are the components of a vector.
Scalar constants are the components of one constant. -/
inductive IsList : List Token → Expression → Prop where
  | single {text : List Token} {e : Expression} (h : IsSum text e) : IsList text e
  | constant {text : List Token} {items : List Expression} {numbers : List Float32} {v : Value}
    (h : IsSums text items) (hMany : 2 ≤ items.length)
    (hItems : List.Forall₂ IsScalar items numbers) (hValue : Value.ofList? numbers = some v) :
    IsList text (const v)
  | vector {text : List Token} {items : List Expression} {f : String} (h : IsSums text items)
    (hName : IsVector items.length f) (hOpen : ∃ e ∈ items, ∀ x, ¬IsScalar e x) :
    IsList text (call f items)

end Expression

end PathTracer
