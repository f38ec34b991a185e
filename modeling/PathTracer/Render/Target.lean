/-! The images that are rendered, their sizes, and stores with a place for each. -/
namespace PathTracer

/-- What is rendered. -/
inductive Target where
  /-- The interactive view at the requested resolution. -/
  | main
  /-- Thumbnails of fixed size. -/
  | icon
  deriving Repr, DecidableEq, Inhabited

def Target.name : Target → String
  | main => "main"
  | icon => "icon"

/-- A size in pixels. -/
structure Extent where
  width : Nat
  height : Nat
  deriving Repr, DecidableEq, Inhabited

namespace Extent

def pixels (e : Extent) : Nat :=
  e.width * e.height

def isEmpty (e : Extent) : Bool :=
  e.width == 0 || e.height == 0

/-- The extent as messages show it. -/
def text (e : Extent) : String :=
  s!"Extent \x7b width: {e.width}, height: {e.height} \x7d"

end Extent

/-- At most one value for each target. -/
structure PerTarget (α : Type) where
  main : Option α
  icon : Option α
  deriving Repr, DecidableEq

namespace PerTarget

variable {α : Type}

def empty : PerTarget α := ⟨none, none⟩

def get? (s : PerTarget α) : Target → Option α
  | .main => s.main
  | .icon => s.icon

/-- Put a value in the place of a target, or clear the place. -/
def put (s : PerTarget α) (value : Option α) : Target → PerTarget α
  | .main => { s with main := value }
  | .icon => { s with icon := value }

def insert (s : PerTarget α) (target : Target) (value : α) : PerTarget α :=
  s.put (some value) target

def erase (s : PerTarget α) (target : Target) : PerTarget α :=
  s.put none target

end PerTarget

end PathTracer
