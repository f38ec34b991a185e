import PathTracer.Error
import PathTracer.Expression.Evaluation
import PathTracer.Expression.Parser
import PathTracer.Text.Case

/-! Options of scene nodes: named values that are written as text, as an
expression, or as keys of an animation. Names do not distinguish case. -/
namespace PathTracer

/-- The time of a key as its bits. Every number is a moment, and two NaNs that
differ in sign or payload are two moments. -/
structure Moment where
  bits : UInt32
  deriving Repr, DecidableEq

namespace Moment

def ofFloat (x : Float32) : Moment := ⟨x.toBits⟩

def toFloat (m : Moment) : Float32 := .ofBits m.bits

instance : Coe Float32 Moment := ⟨ofFloat⟩

instance : OfScientific Moment := ⟨fun m s e => ofFloat (OfScientific.ofScientific m s e)⟩

end Moment

/-- One key of an animation: the expression that holds at a time. -/
structure Keyframe where
  moment : Moment
  source : String
  deriving Repr, DecidableEq

namespace Keyframe

/-- The time as values at it are computed with. -/
def time (k : Keyframe) : Float32 := k.moment.toFloat

/-- The place of the time in the total order, by which keys are sorted. -/
def rank (k : Keyframe) : Int := Binary32.totalKey k.moment.bits

end Keyframe

inductive OptionValue where
  /-- A name rather than a value. -/
  | text (text : String)
  | source (source : String)
  | animated (keys : List Keyframe)
  deriving Repr, DecidableEq

/-- The source text of a number. -/
def OptionValue.ofFloat (x : Float32) : OptionValue :=
  .source (Decimal.spell .debug x)

/-- The source text of a vector: its components with commas between them. -/
def OptionValue.ofVec3 (v : Vec3 Float32) : OptionValue :=
  .source (", ".intercalate (v.toList.map (Decimal.spell .debug)))

namespace Animation

/-- Keys in the order of their times. Keys of one time keep their order. -/
def sorted (keys : List Keyframe) : List Keyframe :=
  keys.mergeSort fun a b => decide (a.rank ≤ b.rank)

/-- The first two neighbours whose times enclose the given one, ends included. -/
def enclosing? (time : Float32) : List Keyframe → Option (Keyframe × Keyframe)
  | a :: b :: rest =>
    if a.time ≤ time ∧ time ≤ b.time then some (a, b) else enclosing? time (b :: rest)
  | _ => none

/-- How far a time is on the way from one to another. -/
def progress (time start stop : Float32) : Float32 :=
  let span := stop - start
  if 0.0 < span then (time - start) / span else 0.0

end Animation

/-- Options by lower case name, in the order of the names. -/
structure Options where
  entries : List (String × OptionValue)
  deriving Repr, DecidableEq

namespace Options

def empty : Options := ⟨[]⟩

instance : Inhabited Options := ⟨empty⟩

/-- Put an entry at its place in the order of keys, over one of the same key. -/
def insertEntry (key : String) (value : OptionValue) :
    List (String × OptionValue) → List (String × OptionValue)
  | [] => [(key, value)]
  | (k, v) :: rest =>
    if key < k then (key, value) :: (k, v) :: rest
    else if key = k then (key, value) :: rest
    else (k, v) :: insertEntry key value rest

def set (o : Options) (name : String) (value : OptionValue) : Options :=
  ⟨insertEntry (Text.lower name) value o.entries⟩

/-- A text without the quotes around it. -/
def unquoted (text : String) : String :=
  let inner := text.toList.dropWhile (· = '"')
  String.ofList (inner.reverse.dropWhile (· = '"')).reverse

def setText (o : Options) (name text : String) : Options :=
  o.set name (.text (unquoted text))

def get? (o : Options) (name : String) : Option OptionValue :=
  o.entries.lookup (Text.lower name)

def contains (o : Options) (name : String) : Bool :=
  (o.get? name).isSome

def isEmpty (o : Options) : Bool :=
  o.entries.isEmpty

/-- The written text of an option that is not animated. -/
def text? (o : Options) (name : String) : Option String :=
  match o.get? name with
  | some (.text s) => some s
  | some (.source s) => some s
  | _ => none

def isAnimated (o : Options) : Bool :=
  o.entries.any fun e =>
    match e.2 with
    | .animated _ => true
    | _ => false

def malformed {α : Type} (name reason : String) : Except Defect α :=
  .error (.malformedOption name reason)

/-- The value of an expression without variables. -/
def evalSource (name source : String) : Except Defect Value :=
  match Expression.parse source with
  | .error e => malformed name e.message
  | .ok e =>
    match e.eval .empty with
    | .error d => malformed name d.message
    | .ok v => .ok v

/-- The value between two keys of an animation. -/
def valueBetween (name : String) (time : Float32) (a b : Keyframe) : Except Defect Value :=
  match evalSource name a.source with
  | .error d => .error d
  | .ok va =>
    match evalSource name b.source with
    | .error d => .error d
    | .ok vb =>
      if va.type ≠ vb.type then malformed name s!"keys mix {va.type.name} and {vb.type.name}"
      else .ok (va.lerp vb (Animation.progress time a.time b.time))

/-- The value of an animation: that of its first key before it, that of its
last key after it, and in between a mixture of the two keys around the time. -/
def animatedValue (name : String) (time : Float32) (keys : List Keyframe) : Except Defect Value :=
  let sorted := Animation.sorted keys
  match sorted.head?, sorted.getLast? with
  | some first, some last =>
    if time ≤ first.time then evalSource name first.source
    else if last.time ≤ time then evalSource name last.source
    else
      match Animation.enclosing? time sorted with
      | some (a, b) => valueBetween name time a b
      | none => evalSource name last.source
  | _, _ => malformed name "animation without keys"

/-- The value of an option at a time, if the option is there. -/
def value (o : Options) (name : String) (time : Float32) : Except Defect (Option Value) :=
  match o.get? name with
  | none => .ok none
  | some (.text s) => malformed name s!"expected a value, got text \"{s}\""
  | some (.source s) => (evalSource name s).map some
  | some (.animated keys) => (animatedValue name time keys).map some

/-- The value of an option that has to fit a type. -/
def typed (o : Options) (name : String) (want : ValueType) (time : Float32) :
    Except Defect (Option Value) :=
  match o.value name time with
  | .error d => .error d
  | .ok none => .ok none
  | .ok (some v) =>
    if v.type.assignableTo want then .ok (some v)
    else malformed name s!"expected {want.name}, got {v.type.name}"

def float1 (o : Options) (name : String) (default time : Float32) : Except Defect Float32 :=
  (o.typed name .float1 time).map fun v => v.elim default Value.x

def float2 (o : Options) (name : String) (default : Vec2 Float32) (time : Float32) :
    Except Defect (Vec2 Float32) :=
  (o.typed name .float2 time).map fun v => v.elim default Value.asVec2

def float3 (o : Options) (name : String) (default : Vec3 Float32) (time : Float32) :
    Except Defect (Vec3 Float32) :=
  (o.typed name .float3 time).map fun v => v.elim default Value.asVec3

end Options

end PathTracer
