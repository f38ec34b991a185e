import PathTracer.Decimal.Style
import PathTracer.Settings.Reader

/-! Writing settings as a document, with one field and one item on a line. -/
namespace PathTracer.Settings

/-- The written value of a field. -/
inductive Written where
  | word (text : String)
  | items (texts : List String)
  deriving Repr, DecidableEq

def number (n : Nat) : String :=
  String.ofList (Decimal.digitsOf n)

/-- The shortest digits of a number. One that is not finite has none. -/
def float (x : Float32) : String :=
  if x.isFinite then Decimal.spell .settings x else "null"

namespace Field

def written (s : Settings) : Field → Written
  | maxSamples => .word (number s.maxSamples)
  | maxDepth => .word (number s.maxDepth)
  | background => .items (s.background.toList.map float)
  | resolution => .items [number s.resolution.width, number s.resolution.height]
  | iconSize => .word (number s.iconSize)
  | iconSamples => .word (number s.iconSamples)
  | iconMaxDepth => .word (number s.iconMaxDepth)
  | iconBackground => .items (s.iconBackground.toList.map float)
  | workers => .word (number s.workers)
  | seed => .word (s.seed.elim "null" number)

end Field

/-- Lines between an opening and a closing bracket, with commas between them. -/
def block (opening closing indent : String) (lines : List String) : String :=
  opening ++ "\n" ++ ",\n".intercalate (lines.map fun l => indent ++ "  " ++ l) ++ "\n" ++ indent
    ++ closing

def Written.text : Written → String
  | word text => text
  | items texts => block "[" "]" "  " texts

/-- The text of a settings file. -/
def text (s : Settings) : String :=
  block "\x7b" "\x7d" "" (Field.all.map fun f => s!"\"{f.name}\": {(f.written s).text}")

end PathTracer.Settings
