/-! What can go wrong with a scene or with its rendering, as causes. The wording
is in one function for each kind of error. -/
namespace PathTracer

/-- A structural or semantic fault of a scene graph. -/
inductive Defect where
  /-- The render node has no camera below it. -/
  | missingCamera
  | missingRender
  | duplicateRender
  | duplicateEnvironment
  /-- A node of the given kind has to be named. -/
  | missingName (kind : String)
  /-- No material has this name. -/
  | unresolvedMaterial (name : String)
  /-- A sphere light has no material to emit with. -/
  | missingLightMaterial
  /-- An option does not parse or has the wrong shape. -/
  | malformedOption (option reason : String)
  | unknownVariable (name : String)
  | unknownFunction (name : String)
  /-- Types or counts that do not fit each other. -/
  | typeMismatch (expected actual : String)
  deriving Repr, DecidableEq

def Defect.message : Defect → String
  | .missingCamera => "Project must contain a Camera!"
  | .missingRender => "Project must contain a Render node"
  | .duplicateRender => "Only one Render node is allowed"
  | .duplicateEnvironment => "Only one Environment node is allowed"
  | .missingName kind => s!"{kind} needs a 'Name' parameter"
  | .unresolvedMaterial name => s!"Unknown material '{name}'"
  | .missingLightMaterial => "Sphere light needs a 'Material' parameter"
  | .malformedOption option reason => s!"Malformed option '{option}': {reason}"
  | .unknownVariable name => s!"Unknown variable '{name}'"
  | .unknownFunction name => s!"Unknown function '{name}'"
  | .typeMismatch expected actual => s!"Type mismatch: expected {expected}, got {actual}"

/-- A defect together with the source line it is blamed on. -/
structure CompileError where
  defect : Defect
  line : Nat
  deriving Repr, DecidableEq

def CompileError.message (e : CompileError) : String :=
  s!"line {e.line}: {e.defect.message}"

/-- Failures of the renderer as a whole. -/
inductive Failure where
  | compile (error : CompileError)
  /-- A render target could not be allocated. A later attempt may succeed. -/
  | exhausted (target : String) (width height : Nat)
  /-- The graphics device, its program or a read from it failed. -/
  | device (reason : String)
  /-- The operation does not fit the current state of the renderer. -/
  | invalidState (reason : String)
  | fileNotFound (path : String)
  /-- Settings that are no document of the expected form. -/
  | malformedSettings
  | other (reason : String)
  deriving Repr, DecidableEq

namespace Failure

def message : Failure → String
  | .compile e => s!"Compile error: {e.message}"
  | .exhausted target width height => s!"Could not allocate {target} target at {width}x{height}"
  | .device reason => s!"GPU error: {reason}"
  | .invalidState reason => s!"Invalid state: {reason}"
  | .fileNotFound path => s!"File not found: {path}"
  | .malformedSettings => "JSON error: not a settings document"
  | .other reason => reason

/-- Whether a later attempt may succeed because resources can become free. -/
def isResource : Failure → Bool
  | .exhausted .. => true
  | _ => false

end Failure

end PathTracer
