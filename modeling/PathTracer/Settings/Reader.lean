import PathTracer.Error
import PathTracer.Json.Basic
import PathTracer.Settings.Basic

/-! Reading settings from a document. Fields may be missing and keep their
defaults, unknown ones are ignored, and no known one may stand twice. An array
gives the fields in their order. -/
namespace PathTracer.Settings

/-- A whole number below a bound. -/
def wholeBelow? (bound : Nat) : Json → Option Nat
  | .number n =>
    if n.isWhole && !n.negative && n.wholePart < bound then some n.wholePart else none
  | _ => none

/-- A count of 32 bits. -/
def count? : Json → Option Nat :=
  wholeBelow? 0x100000000

/-- Whether a number is a whole number of 64 bits. One with a minus sign is
signed, and negative zero is none. -/
def isWord (n : Json.Number) : Bool :=
  n.isWhole && (if n.negative then decide (0 < n.wholePart ∧ n.wholePart ≤ 0x8000000000000000)
    else decide (n.wholePart < 0x10000000000000000))

/-- The nearest number to a whole number of 64 bits. Any other number is read
as one of binary64, beyond which there is none. -/
def float? : Json → Option Float32
  | .number n =>
    if isWord n then some (Decimal.ofOrdinal n.negative (Decimal.single.nearest n.wholePart 1))
    else n.throughDouble?
  | _ => none

def color? : Json → Option (Vec3 Float32)
  | .array [x, y, z] => do return ⟨← float? x, ← float? y, ← float? z⟩
  | _ => none

def extent? : Json → Option Extent
  | .array [w, h] => do return ⟨← count? w, ← count? h⟩
  | _ => none

/-- A seed of 64 bits, or none. -/
def seed? : Json → Option (Option Nat)
  | .null => some none
  | j => (wholeBelow? 0x10000000000000000 j).map some

/-- The fields of settings in their order. -/
inductive Field where
  | maxSamples
  | maxDepth
  | background
  | resolution
  | iconSize
  | iconSamples
  | iconMaxDepth
  | iconBackground
  | workers
  | seed
  deriving Repr, DecidableEq

namespace Field

def all : List Field := [maxSamples, maxDepth, background, resolution, iconSize, iconSamples,
  iconMaxDepth, iconBackground, workers, seed]

def name : Field → String
  | maxSamples => "max_samples"
  | maxDepth => "max_depth"
  | background => "background"
  | resolution => "resolution"
  | iconSize => "icon_size"
  | iconSamples => "icon_samples"
  | iconMaxDepth => "icon_max_depth"
  | iconBackground => "icon_background"
  | workers => "workers"
  | seed => "seed"

def ofName? (name : String) : Option Field :=
  all.find? fun f => f.name == name

/-- Read the value of a field into settings. -/
def read? (s : Settings) (value : Json) : Field → Option Settings
  | maxSamples => (count? value).map fun n => { s with maxSamples := n }
  | maxDepth => (count? value).map fun n => { s with maxDepth := n }
  | background => (color? value).map fun v => { s with background := v }
  | resolution => (extent? value).map fun e => { s with resolution := e }
  | iconSize => (count? value).map fun n => { s with iconSize := n }
  | iconSamples => (count? value).map fun n => { s with iconSamples := n }
  | iconMaxDepth => (count? value).map fun n => { s with iconMaxDepth := n }
  | iconBackground => (color? value).map fun v => { s with iconBackground := v }
  | workers => (wholeBelow? 0x10000000000000000 value).map fun n => { s with workers := n }
  | seed => (seed? value).map fun x => { s with seed := x }

end Field

/-- Read known fields in order, each at most once. -/
def readFields? (s : Settings) (seen : List Field) : List (String × Json) → Option Settings
  | [] => some s
  | (name, value) :: rest =>
    match Field.ofName? name with
    | none => readFields? s seen rest
    | some field =>
      if seen.contains field then none
      else
        match field.read? s value with
        | none => none
        | some s => readFields? s (field :: seen) rest

/-- Read values as the fields of the same places. -/
def readItems? (s : Settings) : List Field → List Json → Option Settings
  | _, [] => some s
  | [], _ :: _ => none
  | field :: fields, value :: values =>
    match field.read? s value with
    | none => none
    | some s => readItems? s fields values

/-- The settings that a document describes. -/
def ofJson? : Json → Option Settings
  | .object fields => (readFields? default [] fields).map sanitize
  | .array items => (readItems? default Field.all items).map sanitize
  | _ => none

/-- The settings that a text describes. -/
def parse (text : String) : Except Failure Settings :=
  match (Json.parse? text).bind ofJson? with
  | some s => .ok s
  | none => .error .malformedSettings

/-- Settings from a file with the given content, if there is one. -/
def load (path : String) : Option String → Except Failure Settings
  | none => .error (.fileNotFound path)
  | some content => parse content

end PathTracer.Settings
