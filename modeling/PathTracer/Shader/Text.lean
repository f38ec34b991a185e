import PathTracer.Decimal.Style
import PathTracer.Shader.Basic

/-! Generated code written in WGSL. -/
namespace PathTracer.Shader

def Ty.text : Ty → String
  | .f32 => "f32"
  | .vec2 => "vec2<f32>"
  | .vec3 => "vec3<f32>"
  | .vec4 => "vec4<f32>"
  | .i32 => "i32"
  | .u32 => "u32"
  | .bool => "bool"
  | .named name => name

def BinaryOp.text : BinaryOp → String
  | .add => "+"
  | .sub => "-"
  | .mul => "*"
  | .div => "/"
  | .eq => "=="
  | .ne => "!="
  | .lt => "<"
  | .le => "<="
  | .gt => ">"
  | .ge => ">="
  | .and => "&&"
  | .or => "||"

/-- A literal that always reads as a float. Negative ones stand in
parentheses, and what is not finite becomes zero. -/
def floatText (x : Float32) : String :=
  if !x.isFinite then "0.0"
  else
    let digits := Decimal.spell .debug x
    if x < 0.0 then "(" ++ digits ++ ")" else digits

def intText (i : Int) : String :=
  if i < 0 then "(" ++ toString i ++ "i)" else toString i ++ "i"

/-- Texts with a comma between them. -/
def commaList (texts : List String) : String :=
  ", ".intercalate texts

mutual

def Expr.text : Expr → String
  | .float x => floatText x
  | .int i => intText i
  | .uint u => toString u ++ "u"
  | .ident name => name
  | .field base name => base.text ++ "." ++ name
  | .index base position => base.text ++ "[" ++ position.text ++ "]"
  | .neg e => "-(" ++ e.text ++ ")"
  | .not e => "!(" ++ e.text ++ ")"
  | .binary op a b => "(" ++ a.text ++ " " ++ op.text ++ " " ++ b.text ++ ")"
  | .call function args => function ++ "(" ++ commaList (Expr.texts args) ++ ")"
  | .construct type args => type.text ++ "(" ++ commaList (Expr.texts args) ++ ")"

def Expr.texts : List Expr → List String
  | [] => []
  | e :: rest => e.text :: Expr.texts rest

end

/-- Four spaces for each level. -/
def indent (depth : Nat) : String :=
  String.ofList (List.replicate (4 * depth) ' ')

mutual

/-- A statement with its line ends, indented by its depth. -/
def Stmt.text (depth : Nat) : Stmt → String
  | .bind name value => indent depth ++ "let " ++ name ++ " = " ++ value.text ++ ";\n"
  | .declare name type (some value) =>
    indent depth ++ "var " ++ name ++ ": " ++ type.text ++ " = " ++ value.text ++ ";\n"
  | .declare name type none => indent depth ++ "var " ++ name ++ ": " ++ type.text ++ ";\n"
  | .assign target value => indent depth ++ target.text ++ " = " ++ value.text ++ ";\n"
  | .return (some value) => indent depth ++ "return " ++ value.text ++ ";\n"
  | .return none => indent depth ++ "return;\n"
  | .comment text => indent depth ++ "// " ++ text ++ "\n"
  | .branch condition yes no =>
    indent depth ++ "if (" ++ condition.text ++ ") \x7b\n" ++ Stmt.texts (depth + 1) yes
      ++ Stmt.otherwiseText depth no

def Stmt.texts (depth : Nat) : List Stmt → String
  | [] => ""
  | s :: rest => s.text depth ++ Stmt.texts depth rest

/-- What follows the first body of a branch. An alternative that is exactly
one branch continues the chain; any other becomes an else block. -/
def Stmt.otherwiseText (depth : Nat) : List Stmt → String
  | [] => indent depth ++ "\x7d\n"
  | [.branch condition yes no] =>
    indent depth ++ "\x7d else if (" ++ condition.text ++ ") \x7b\n"
      ++ Stmt.texts (depth + 1) yes ++ Stmt.otherwiseText depth no
  | s :: rest =>
    indent depth ++ "\x7d else \x7b\n" ++ s.text (depth + 1) ++ Stmt.texts (depth + 1) rest
      ++ indent depth ++ "\x7d\n"

end

def Param.text (p : Param) : String :=
  p.name ++ ": " ++ p.type.text

def Function.text (f : Function) : String :=
  let params := commaList (f.params.map Param.text)
  let head := match f.result with
    | some type => "fn " ++ f.name ++ "(" ++ params ++ ") -> " ++ type.text ++ " \x7b\n"
    | none => "fn " ++ f.name ++ "(" ++ params ++ ") \x7b\n"
  head ++ Stmt.texts 1 f.body ++ "\x7d\n"

/-- Functions with a blank line between them. -/
def moduleText (functions : List Function) : String :=
  "\n".intercalate (functions.map Function.text)

end PathTracer.Shader
