import PathTracer.Proofs.Shader.Execution

/-! Which generated expressions are well typed in WGSL. An expression that has no
type here makes the whole program invalid. -/
namespace PathTracer.Shader

namespace Ty

def isVector (type : Ty) : Bool :=
  type = vec2 || type = vec3 || type = vec4

/-- A single number or a vector of them. -/
def isFloat (type : Ty) : Bool :=
  type = f32 || type.isVector

def isNumeric (type : Ty) : Bool :=
  type.isFloat || type = i32 || type = u32

def isScalar (type : Ty) : Bool :=
  type = f32 || type = i32 || type = u32 || type = bool

/-- Operands of arithmetic have one type, or one is a vector and the other a
number. -/
def arithmetic? (s t : Ty) : Option Ty :=
  if s = t then if s.isNumeric then some s else none
  else if s.isVector && t = f32 then some s
  else if s = f32 && t.isVector then some t
  else none

/-- Whether letters name components of a type, where `names` are the letters for
all positions. -/
def names (type : Ty) (names letters : List Char) : Bool :=
  letters.all (names.take (type.width?.getD 0)).contains

/-- Components are selected from vectors only, within their size, and by place
or by color but not by both. -/
def selection? (type : Ty) (letters : List Char) : Option Ty :=
  if type.isVector && letters.length ∈ [1, 2, 3, 4]
      && (type.names ['x', 'y', 'z', 'w'] letters || type.names ['r', 'g', 'b', 'a'] letters) then
    some (.floats letters.length)
  else none

/-- Number of lanes of float types together. -/
def totalWidth? : List Ty → Option Nat
  | [] => some 0
  | type :: rest => type.width?.bind fun width => (totalWidth? rest).map (width + ·)

/-- A vector is made of one number or of as many as it has components, and a
scalar of another scalar. -/
def construct? (type : Ty) (args : List Ty) : Option Ty :=
  if type.isFloat && (args = [f32] || totalWidth? args = type.width?) then some type
  else
    match args with
    | [arg] => if type.isScalar && arg.isScalar then some type else none
    | _ => none

end Ty

def BinaryOp.type? (op : BinaryOp) (s t : Ty) : Option Ty :=
  match op with
  | add | sub | mul | div => s.arithmetic? t
  | eq | ne | lt | le | gt | ge => if s = t && s.isScalar then some .bool else none
  | and | or => if s = .bool && t = .bool then some .bool else none

/-- Type of a call of a function of the expression language. Constructors are
expressions of their own. -/
def builtinType? : Expression.Builtin → List Ty → Option Ty
  | .unary .abs, [t] => if t.isNumeric then some t else none
  | .unary _, [t] => if t.isFloat then some t else none
  | .binary .min, [s, t] | .binary .max, [s, t] => if s = t && s.isNumeric then some s else none
  | .binary _, [s, t] => if s = t && s.isFloat then some s else none
  | .clamp, [s, t, u] => if s = t && t = u && s.isNumeric then some s else none
  | .smoothstep, [s, t, u] => if s = t && t = u && s.isFloat then some s else none
  | .mix, [s, t, u] => if s = t && (u = s || u = .f32) && s.isFloat then some s else none
  | .length, [t] => if t.isFloat then some .f32 else none
  | .normalize, [t] => if t.isVector then some t else none
  | .dot, [s, t] => if s = t && s.isVector then some .f32 else none
  | .cross, [.vec3, .vec3] => some .vec3
  | _, _ => none

/-- What the program around an expression declares. -/
structure Declarations where
  variableType? : String → Option Ty
  /-- Type of a field of a structure. -/
  fieldType? : String → String → Option Ty
  functionType? : String → List Ty → Option Ty

namespace Declarations

/-- Type of a field of a structure, or of a selection of components. -/
def member? (d : Declarations) (base : Ty) (name : String) : Option Ty :=
  match base with
  | .named type => d.fieldType? type name
  | type => type.selection? name.toList

def call? (d : Declarations) (function : String) (args : List Ty) : Option Ty :=
  match Expression.Builtin.ofName? function with
  | some f => builtinType? f args
  | none => d.functionType? function args

end Declarations

namespace Expr

mutual

/-- The type of an expression, if it has one. -/
def type? (d : Declarations) : Expr → Option Ty
  | float _ => some .f32
  | int _ => some .i32
  | uint _ => some .u32
  | ident name => d.variableType? name
  | field base name => (type? d base).bind fun t => d.member? t name
  | index base position =>
    (type? d base).bind fun s => (type? d position).bind fun t =>
      if s.isVector && (t = .i32 || t = .u32) then some .f32 else none
  | neg e => (type? d e).bind fun t => if t.isNumeric && t ≠ .u32 then some t else none
  | not e => (type? d e).bind fun t => if t = .bool then some .bool else none
  | binary op a b => (type? d a).bind fun s => (type? d b).bind fun t => op.type? s t
  | call function args => (types? d args).bind (d.call? function)
  | construct type args => (types? d args).bind type.construct?

def types? (d : Declarations) : List Expr → Option (List Ty)
  | [] => some []
  | e :: rest => (type? d e).bind fun t => (types? d rest).map (t :: ·)

end

/-- Arguments have types if each of them has one. -/
theorem types?_map {α : Type} {d : Declarations} {code : α → Expr} {type : α → Ty}
    {args : List α} (h : ∀ a ∈ args, (code a).type? d = some (type a)) :
    types? d (args.map code) = some (args.map type) := by
  induction args with
  | nil => rfl
  | cons a rest ih =>
      rw [List.forall_mem_cons] at h
      rw [List.map_cons, types?, h.1, Option.bind_some, ih h.2]
      rfl

/-- One argument without a type spoils all of them. -/
theorem types?_eq_none {d : Declarations} {args : List Expr}
    (h : ∃ e ∈ args, e.type? d = none) : types? d args = none := by
  induction args with
  | nil => simp at h
  | cons e rest ih =>
      obtain ⟨x, hMem, hNone⟩ := h
      rw [types?]
      rcases List.mem_cons.mp hMem with rfl | hRest
      · rw [hNone]
        rfl
      · rw [ih ⟨x, hRest, hNone⟩]
        cases e.type? d <;> rfl

end Expr

end PathTracer.Shader
