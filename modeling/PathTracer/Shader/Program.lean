import PathTracer.Digest
import PathTracer.Material.Program
import PathTracer.Shader.Template.Bindings
import PathTracer.Shader.Template.Geometry
import PathTracer.Shader.Template.Passes
import PathTracer.Shader.Template.Random
import PathTracer.Shader.Template.Scattering
import PathTracer.Shader.Text

/-! The shader program of a scene: fixed parts around the functions that are
generated for its materials, its environment and its primitives. -/
namespace PathTracer.Shader

/-- The material of an index, tried one after the other, and the default
material for every other index. -/
def dispatchFunction (materials : List Material.Program) : Function where
  name := "resolve_material"
  params := [⟨"id", .i32⟩, Material.Program.inputParam]
  result := some (.named "BsdfMaterial")
  body := Stmt.chain (materials.map fun m =>
      (.binary .eq (.ident "id") (.int m.shaderIndex),
        [.return (some (.call m.functionName [.ident "inp"]))]))
    ++ [.return (some (.call "default_material" []))]

/-- The environment of a scene that has none: the plain background. -/
def defaultEnvironment : Function where
  name := "environment"
  params := [Material.Program.inputParam]
  result := some .vec3
  body := [.return (some Material.Program.backgroundCode)]

/-- The nearest hit of a ray among everything that the statements place. -/
def sceneFunction (statements : List Stmt) : Function where
  name := "scene_hit"
  params := [⟨"ro", .vec3⟩, ⟨"rd", .vec3⟩]
  result := some (.named "Hit")
  body := .declare "hit" (.named "Hit") (some (.call "no_hit" []))
    :: (statements ++ [.return (some (.ident "hit"))])

def materialFunctions : List Material.Program → Except CompileError (List Function)
  | [] => .ok []
  | m :: rest =>
    match m.function with
    | .error e => .error e
    | .ok f =>
      match materialFunctions rest with
      | .error e => .error e
      | .ok more => .ok (f :: more)

/-- All generated functions in the order of the program. -/
def generatedFunctions (materials : List Material.Program) (environment : Option Material.Program)
    (scene : List Stmt) : Except CompileError (List Function) :=
  match materialFunctions materials with
  | .error e => .error e
  | .ok surfaces =>
    match environment.elim (.ok defaultEnvironment) Material.Program.function with
    | .error e => .error e
    | .ok env => .ok (surfaces ++ [dispatchFunction materials, env, sceneFunction scene])

/-- A shader program, by the functions that were generated for it. -/
structure Program where
  functions : List Function

namespace Program

/-- The generated part of the program text. -/
def generatedText (p : Program) : String :=
  "// generated\n" ++ moduleText p.functions

/-- The whole program text. -/
def source (p : Program) : String :=
  "\n".intercalate [Template.randomSource ++ "\n" ++ Template.scatteringSource,
    Template.bindingsSource, p.generatedText, Template.geometrySource, Template.passesSource]

/-- The digest under which a program is kept. -/
def hash (p : Program) : UInt64 :=
  Digest.ofText p.source

/-- The program of a scene. -/
def generate (materials : List Material.Program) (environment : Option Material.Program)
    (scene : List Stmt) : Except CompileError Program :=
  (generatedFunctions materials environment scene).map Program.mk

end Program

end PathTracer.Shader
