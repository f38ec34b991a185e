import PathTracer.Expression.Evaluation

/-! What generated shader code does when it runs. Numbers and vectors are lists
of lanes, so that nothing here depends on how expressions hold their values.
Code that mixes widths, reads an unknown name or writes a value of another
shape has no result. -/
namespace PathTracer.Shader

/-- Put a new value at a name. The old value decides whether it fits. -/
def updateAt {α : Type} (name : String) (f : α → Option α) :
    List (String × α) → Option (List (String × α))
  | [] => none
  | (other, old) :: rest =>
    if name = other then (f old).map fun new => (other, new) :: rest
    else (updateAt name f rest).map ((other, old) :: ·)

theorem lookup_cons_ite {α : Type} (name other : String) (value : α)
    (entries : List (String × α)) :
    List.lookup other ((name, value) :: entries) =
      if other = name then some value else entries.lookup other := by
  by_cases hOther : other = name
  · simp [hOther]
  · simp [List.lookup_cons, beq_eq_false_iff_ne.mpr hOther, hOther]

/-- An update changes exactly the name that it is for. -/
theorem lookup_updateAt {α : Type} {name : String} {f : α → Option α} {old new : α}
    {entries : List (String × α)} (hOld : entries.lookup name = some old)
    (hNew : f old = some new) :
    ∃ updated, updateAt name f entries = some updated ∧
      ∀ other, updated.lookup other = if other = name then some new else entries.lookup other := by
  induction entries with
  | nil => cases hOld
  | cons entry rest ih =>
      obtain ⟨key, value⟩ := entry
      by_cases hKey : name = key
      · subst hKey
        rw [List.lookup_cons_self, Option.some.injEq] at hOld
        subst hOld
        refine ⟨(name, new) :: rest, by simp [updateAt, hNew], fun other => ?_⟩
        rw [lookup_cons_ite, lookup_cons_ite]
        split <;> rfl
      · rw [List.lookup_cons, beq_eq_false_iff_ne.mpr hKey] at hOld
        obtain ⟨updated, hUpdated, hLookup⟩ := ih hOld
        refine ⟨(key, value) :: updated, by simp [updateAt, hKey, hUpdated], fun other => ?_⟩
        rw [lookup_cons_ite, lookup_cons_ite, hLookup]
        by_cases hOther : other = key
        · subst hOther
          simp [Ne.symm hKey]
        · simp [hOther]

/-- The same for entries that a list of keys names. -/
theorem updateAt_map {κ α : Type} {name : κ → String} {f : α → Option α} {old new : κ → α}
    {keys : List κ} {key : κ} (hNames : (keys.map name).Nodup) (hKey : key ∈ keys)
    (hNew : f (old key) = some (new key)) (hSame : ∀ other, other ≠ key → new other = old other) :
    updateAt (name key) f (keys.map fun k => (name k, old k)) =
      some (keys.map fun k => (name k, new k)) := by
  induction keys with
  | nil => cases hKey
  | cons first rest ih =>
      rw [List.map_cons, List.nodup_cons] at hNames
      obtain ⟨hFirst, hRest⟩ := hNames
      have hOther : ∀ other ∈ rest, name other ≠ name first := fun other hOther hName =>
        hFirst (hName ▸ List.mem_map_of_mem hOther)
      rcases List.mem_cons.mp hKey with rfl | hMem
      · have hTail : (rest.map fun k => (name k, new k)) = rest.map fun k => (name k, old k) := by
          refine List.map_congr_left fun other hRest => ?_
          rw [hSame other fun h => hOther other hRest (h ▸ rfl)]
        simp [updateAt, hNew, hTail]
      · have hNe : first ≠ key := fun h => hOther key hMem (h ▸ rfl)
        simp [updateAt, hOther key hMem, ih hRest hMem, hSame first hNe]

/-- Values of generated code. -/
inductive Datum where
  /-- A number or a vector. -/
  | floats (lanes : List Float32)
  | int (value : Int)
  | uint (value : Nat)
  | bool (value : Bool)
  /-- A structure whose fields are numbers and vectors. -/
  | record (type : String) (fields : List (String × List Float32))

/-! ### Lanes -/

namespace Lanes

/-- An operand as wide as the result. A single lane fills all of them. -/
def fit (width : Nat) (lanes : List Float32) : Option (List Float32) :=
  if lanes.length = width then some lanes
  else
    match lanes with
    | [x] => some (List.replicate width x)
    | _ => none

/-- Combine two operands lane by lane. -/
def zip (f : Float32 → Float32 → Float32) (a b : List Float32) : Option (List Float32) :=
  let width := max a.length b.length
  (fit width a).bind fun a => (fit width b).map fun b => List.zipWith f a b

/-- Combine three operands lane by lane. -/
def zip3 (f : Float32 → Float32 → Float32 → Float32) (a b c : List Float32) :
    Option (List Float32) :=
  let width := max a.length (max b.length c.length)
  (fit width a).bind fun a => (fit width b).bind fun b => (fit width c).map fun c =>
    List.zipWith (fun g x => g x) (List.zipWith f a b) c

/-- The lanes that the letters of a selection name. -/
def select (lanes : List Float32) (letters : List Char) : Option (List Float32) :=
  letters.mapM fun letter => (Component.ofLetter? letter).bind fun c => lanes[c.index]?

/-- A vector from parts that follow each other, or from one lane for all. -/
def construct (width : Nat) : List (List Float32) → Option (List Float32)
  | [[x]] => some (List.replicate width x)
  | parts => if parts.flatten.length = width then some parts.flatten else none

def dot (a b : List Float32) : Float32 :=
  Expression.sumOf (List.zipWith (· * ·) a b)

def length (a : List Float32) : Float32 :=
  (dot a a).sqrt

/-- A function of the expression language on lanes. -/
def applyBuiltin : Expression.Builtin → List (List Float32) → Option (List Float32)
  | .unary g, [a] => some (a.map g.apply)
  | .binary g, [a, b] => zip g.apply a b
  | .clamp, [a, b, c] => zip3 Expression.clamp a b c
  | .mix, [a, b, c] => zip3 Expression.mix a b c
  | .smoothstep, [a, b, c] => zip3 Expression.smoothstep a b c
  | .length, [a] => some [length a]
  | .normalize, [a] => some (a.map (· / length a))
  | .dot, [a, b] => if a.length = b.length then some [dot a b] else none
  | .cross, [[x, y, z], [u, v, w]] => some (Vec3.cross ⟨x, y, z⟩ ⟨u, v, w⟩).toList
  | .construct type, parts => construct type.components parts
  | _, _ => none

end Lanes

/-! ### Operators -/

namespace BinaryOp

def arithmetic? : BinaryOp → Option (Float32 → Float32 → Float32)
  | add => some (· + ·)
  | sub => some (· - ·)
  | mul => some (· * ·)
  | div => some (· / ·)
  | _ => none

/-- Comparisons, which generated code makes of whole numbers. -/
def comparison? : BinaryOp → Option (Int → Int → Bool)
  | eq => some fun a b => a = b
  | ne => some fun a b => a ≠ b
  | lt => some fun a b => a < b
  | le => some fun a b => a ≤ b
  | gt => some fun a b => b < a
  | ge => some fun a b => b ≤ a
  | _ => none

def connective? : BinaryOp → Option (Bool → Bool → Bool)
  | and => some (· && ·)
  | or => some (· || ·)
  | _ => none

def apply (op : BinaryOp) : Datum → Datum → Option Datum
  | .floats a, .floats b => op.arithmetic?.bind fun f => (Lanes.zip f a b).map .floats
  | .int a, .int b => op.comparison?.map fun r => .bool (r a b)
  | .uint a, .uint b => op.comparison?.map fun r => .bool (r a b)
  | .bool a, .bool b => op.connective?.map fun c => .bool (c a b)
  | _, _ => none

end BinaryOp

/-- Number of lanes of a float type. -/
def Ty.width? : Ty → Option Nat
  | .f32 => some 1
  | .vec2 => some 2
  | .vec3 => some 3
  | .vec4 => some 4
  | _ => none

namespace Datum

def lanes? : Datum → Option (List Float32)
  | floats lanes => some lanes
  | _ => none

def neg : Datum → Option Datum
  | floats lanes => some (floats (lanes.map (-·)))
  | int i => some (int (-i))
  | _ => none

def not : Datum → Option Datum
  | bool b => some (bool !b)
  | _ => none

/-- A field of a structure, or a selection of components. -/
def field? (name : String) : Datum → Option Datum
  | floats lanes => (Lanes.select lanes name.toList).map floats
  | record _ fields => (fields.lookup name).map floats
  | _ => none

/-- The lane of a vector at an index. -/
def at? : Datum → Datum → Option Datum
  | floats lanes, uint i => lanes[i]?.map fun x => floats [x]
  | _, _ => none

def hasType (type : Ty) : Datum → Bool
  | floats lanes => type.width? = some lanes.length
  | int _ => type = .i32
  | uint _ => type = .u32
  | bool _ => type = .bool
  | record name _ => type = .named name

/-- The value that a variable without an initial value has. -/
def zero? : Ty → Option Datum
  | .i32 => some (int 0)
  | .u32 => some (uint 0)
  | .bool => some (bool false)
  | type => type.width?.map fun width => floats (List.replicate width 0.0)

/-- The new value of a variable, which keeps its shape. -/
def replaced (new : Datum) : Datum → Option Datum
  | floats lanes =>
    match new with
    | floats other => if lanes.length = other.length then some new else none
    | _ => none
  | int _ => if new.hasType .i32 then some new else none
  | uint _ => if new.hasType .u32 then some new else none
  | bool _ => if new.hasType .bool then some new else none
  | record type _ => if new.hasType (.named type) then some new else none

/-- A structure with a new value in one of its fields. -/
def withField (name : String) (value : Datum) : Datum → Option Datum
  | record type fields =>
    value.lanes?.bind fun lanes =>
      (updateAt name (fun old => if old.length = lanes.length then some lanes else none)
        fields).map (record type)
  | _ => none

end Datum

/-! ### Programs -/

/-- What generated code finds in the program around it. -/
structure Library where
  global : String → Option Datum
  call : String → List Datum → Option Datum

/-- A call of a function of the expression language or of the program around. -/
def Library.apply (lib : Library) (function : String) (args : List Datum) : Option Datum :=
  match Expression.Builtin.ofName? function with
  | some f => ((args.mapM Datum.lanes?).bind (Lanes.applyBuiltin f)).map .floats
  | none => lib.call function args

/-- Variables of a function with their values, the latest first. -/
abbrev Env : Type := List (String × Datum)

namespace Expr

mutual

/-- The value of an expression. -/
def eval (lib : Library) (env : Env) : Expr → Option Datum
  | float x => some (.floats [x])
  | int i => some (.int i)
  | uint n => some (.uint n)
  | ident name => (env.lookup name).or (lib.global name)
  | field base name => (eval lib env base).bind (Datum.field? name)
  | index base position =>
    (eval lib env base).bind fun base => (eval lib env position).bind base.at?
  | neg e => (eval lib env e).bind Datum.neg
  | not e => (eval lib env e).bind Datum.not
  | binary op a b => (eval lib env a).bind fun x => (eval lib env b).bind (op.apply x)
  | call function args => (evalAll lib env args).bind (lib.apply function)
  | construct type args =>
    (evalAll lib env args).bind fun args => type.width?.bind fun width =>
      ((args.mapM Datum.lanes?).bind (Lanes.construct width)).map .floats

def evalAll (lib : Library) (env : Env) : List Expr → Option (List Datum)
  | [] => some []
  | e :: rest => (eval lib env e).bind fun v => (evalAll lib env rest).map (v :: ·)

end

end Expr

/-- Write to a variable or to a field of one. -/
def Env.write (env : Env) (value : Datum) : Expr → Option Env
  | .ident name => updateAt name value.replaced env
  | .field (.ident name) field => updateAt name (Datum.withField field value) env
  | _ => none

/-- A new variable. No name is declared twice. -/
def Env.declare (env : Env) (name : String) (value : Datum) : Option Env :=
  if (env.lookup name).isNone then some ((name, value) :: env) else none

/-- What a statement leaves behind. -/
inductive Outcome where
  | running (env : Env)
  | returned (value : Option Datum)

/-- The end of a block, where its own variables go out of scope. -/
def Outcome.leave (env : Env) : Outcome → Outcome
  | running inner => running (inner.drop (inner.length - env.length))
  | returned value => returned value

/-- What has left a block is not changed by the end of a block around it that began with
the same variables. -/
theorem Outcome.leave_leave (env : Env) (o : Outcome) : (o.leave env).leave env = o.leave env := by
  cases o with
  | returned value => rfl
  | running inner =>
      simp only [leave, List.drop_drop, List.length_drop]
      congr 2
      omega

namespace Stmt

mutual

/-- Run one statement. -/
def exec (lib : Library) (env : Env) : Stmt → Option Outcome
  | bind name value =>
    (value.eval lib env).bind fun v => (env.declare name v).map .running
  | declare name type value =>
    (value.elim (Datum.zero? type) (Expr.eval lib env)).bind fun v =>
      if v.hasType type then (env.declare name v).map .running else none
  | assign target value =>
    (value.eval lib env).bind fun v => (env.write v target).map .running
  | branch condition yes no =>
    match condition.eval lib env with
    | some (.bool true) => (execAll lib env yes).map (Outcome.leave env)
    | some (.bool false) => (execAll lib env no).map (Outcome.leave env)
    | _ => none
  | .return none => some (.returned none)
  | .return (some value) => (value.eval lib env).map fun v => .returned (some v)
  | comment _ => some (.running env)

/-- Run statements in order until one returns. -/
def execAll (lib : Library) (env : Env) : List Stmt → Option Outcome
  | [] => some (.running env)
  | s :: rest =>
    match exec lib env s with
    | some (.running env) => execAll lib env rest
    | other => other

end

/-- A statement that does not return hands its variables to the next one. -/
theorem execAll_cons_of_running {lib : Library} {env next : Env} {s : Stmt} {rest : List Stmt}
    (h : s.exec lib env = some (.running next)) :
    execAll lib env (s :: rest) = execAll lib next rest := by
  rw [execAll, h]

/-- Statements run after others unless these have returned. What has returned is returned,
whatever stands behind. -/
theorem execAll_append (lib : Library) (env : Env) (first second : List Stmt) :
    execAll lib env (first ++ second) =
      match execAll lib env first with
      | some (.running next) => execAll lib next second
      | other => other := by
  induction first generalizing env with
  | nil => rfl
  | cons s rest ih =>
      rw [List.cons_append, execAll, execAll]
      cases s.exec lib env with
      | none => rfl
      | some outcome =>
          cases outcome with
          | running next => exact ih next
          | returned value => rfl

theorem execAll_append_of_running {lib : Library} {env next : Env} {first second : List Stmt}
    (h : execAll lib env first = some (.running next)) :
    execAll lib env (first ++ second) = execAll lib next second := by
  rw [execAll_append, h]

theorem execAll_singleton (lib : Library) (env : Env) (s : Stmt) :
    execAll lib env [s] = s.exec lib env := by
  rw [execAll]
  split
  · rename_i hRunning
    rw [hRunning, execAll]
  · rfl

/-! ### Chains -/

section Chains

variable {lib : Library} {env : Env}

/-- A chain without an arm that holds does nothing. -/
theorem execAll_chain_of_forall {arms : List (Expr × List Stmt)}
    (h : ∀ arm ∈ arms, arm.1.eval lib env = some (.bool false)) :
    execAll lib env (chain arms) = some (.running env) := by
  induction arms with
  | nil => rfl
  | cons arm rest ih =>
      obtain ⟨condition, body⟩ := arm
      obtain ⟨hFirst, hRest⟩ := List.forall_mem_cons.mp h
      rw [chain, execAll_singleton, exec, hFirst]
      dsimp only
      rw [ih hRest]
      simp [Outcome.leave]

/-- A chain runs the body of the first arm that holds. The conditions before it are
evaluated and do not hold. Those behind it are not evaluated, so that they may have no
value. -/
theorem execAll_chain_of_first {passed others : List (Expr × List Stmt)} {condition : Expr}
    {body : List Stmt} (hPassed : ∀ arm ∈ passed, arm.1.eval lib env = some (.bool false))
    (hHolds : condition.eval lib env = some (.bool true)) :
    execAll lib env (chain (passed ++ (condition, body) :: others)) =
      (execAll lib env body).map (Outcome.leave env) := by
  induction passed with
  | nil => rw [List.nil_append, chain, execAll_singleton, exec, hHolds]
  | cons arm rest ih =>
      obtain ⟨other, skipped⟩ := arm
      obtain ⟨hFirst, hRest⟩ := List.forall_mem_cons.mp hPassed
      rw [List.cons_append, chain, execAll_singleton, exec, hFirst]
      dsimp only
      rw [ih hRest, Option.map_map]
      exact congrArg (Option.map · _) (funext (Outcome.leave_leave env))

end Chains

end Stmt

/-- The result of a function for arguments of its parameter types. -/
def Function.run (f : Function) (lib : Library) (args : List Datum) : Option Datum :=
  if args.length = f.params.length &&
      (args.zip f.params).all (fun x => x.1.hasType x.2.type) then
    match Stmt.execAll lib ((f.params.map Param.name).zip args) f.body with
    | some (.returned (some v)) =>
      if f.result.any fun type => v.hasType type then some v else none
    | _ => none
  else none

theorem Function.run_of_returned {f : Function} {lib : Library} {args : List Datum} {v : Datum}
    {type : Ty} (hLength : args.length = f.params.length)
    (hArgs : (args.zip f.params).all (fun x => x.1.hasType x.2.type) = true)
    (hBody : Stmt.execAll lib ((f.params.map Param.name).zip args) f.body =
      some (.returned (some v)))
    (hResult : f.result = some type) (hType : v.hasType type = true) : f.run lib args = some v := by
  simp [run, hLength, hArgs, hBody, hResult, hType]

end PathTracer.Shader
