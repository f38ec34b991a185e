import PathTracer.Proofs.Json.Documents
import PathTracer.Settings.Printer

/-! The text of settings is the document of their fields, each with the value it was
written from. -/
namespace PathTracer.Settings

open Decimal Json

/-- A whole number as a document has it. -/
def wholeJson (n : ℕ) : Json :=
  .number ⟨false, digitsOf n, [], none⟩

/-- A number as a document has it: its spelling, or nothing. -/
def floatJson (x : Float32) : Json :=
  if x.isFinite then
    .number ((Style.settings.numeral (literalOf .settings x)).number (Binary32.signBit x))
  else .null

def colorJson (v : Vec3 Float32) : Json :=
  .array (v.toList.map floatJson)

/-- The value that a field is written as. -/
def Field.json (s : Settings) : Field → Json
  | maxSamples => wholeJson s.maxSamples
  | maxDepth => wholeJson s.maxDepth
  | background => colorJson s.background
  | resolution => .array [wholeJson s.resolution.width, wholeJson s.resolution.height]
  | iconSize => wholeJson s.iconSize
  | iconSamples => wholeJson s.iconSamples
  | iconMaxDepth => wholeJson s.iconMaxDepth
  | iconBackground => colorJson s.iconBackground
  | workers => wholeJson s.workers
  | seed => s.seed.elim .null wholeJson

/-- All fields of settings in their order. -/
def json (s : Settings) : List (String × Json) :=
  Field.all.map fun f => (f.name, f.json s)

/-! ### Values -/

theorem spells_number (n : ℕ) : Spells (number n).toList (wholeJson n) := by
  rw [number, String.toList_ofList]
  exact spells_digitsOf n

/-- The text of a float spells its number, and null where it is not finite. -/
theorem spells_float (x : Float32) : Spells (float x).toList (floatJson x) := by
  unfold float floatJson
  split
  · rename_i hFinite
    have hZero : (literalOf .settings x).digits = 0 → (literalOf .settings x).exponent ≤ 0 := by
      unfold literalOf
      split
      · exact fun _ => le_rfl
      · rename_i hSome
        intro hNone
        obtain ⟨ordinal, hNext⟩ := Nat.exists_eq_succ_of_ne_zero hSome
        rw [hNext] at hNone
        have hOrdinal : ordinal + 1 < single.infinity := by
          have hLess := toOrdinal_lt hFinite
          omega
        exact absurd hNone (offered_shortest .even hOrdinal).pos.ne'
    rw [spell_toList _ hFinite]
    exact spells_numeral (Style.settings.wellFormed_numeral _)
      (Style.settings.isWholeNumber_numeral hZero) _
  · exact spells_null

/-! ### Lines -/

theorem toList_block (opening closing indent : String) (lines : List String) :
    (block opening closing indent lines).toList = opening.toList ++
      '\n' :: (joined (indent.toList ++ [' ', ' ']) (lines.map String.toList) ++
        ('\n' :: indent.toList ++ closing.toList)) := by
  unfold block joined
  simp only [String.toList_append, String.toList_intercalate, List.map_map, Function.comp_def]
  simp

/-- Values in lines of their own are an array. -/
theorem spells_block {texts : List String} {items : List Json}
    (h : List.Forall₂ Spells (texts.map String.toList) items) (hSome : texts ≠ []) :
    Spells (block "[" "]" "  " texts).toList (array items) := by
  rw [toList_block]
  exact Spells.array (by simp [isBlank]) (by simp [isBlank]) h (by simpa using hSome)

theorem spells_color (v : Vec3 Float32) :
    Spells (block "[" "]" "  " (v.toList.map float)).toList (colorJson v) :=
  spells_block (.cons (spells_float v.x) (.cons (spells_float v.y) (.cons (spells_float v.z) .nil)))
    (List.cons_ne_nil _ _)

/-- What is written for a field spells its value. -/
theorem spells_written (s : Settings) (f : Field) :
    Spells (f.written s).text.toList (f.json s) := by
  cases f with
  | maxSamples => exact spells_number _
  | maxDepth => exact spells_number _
  | background => exact spells_color _
  | resolution =>
      exact spells_block (.cons (spells_number _) (.cons (spells_number _) .nil))
        (List.cons_ne_nil _ _)
  | iconSize => exact spells_number _
  | iconSamples => exact spells_number _
  | iconMaxDepth => exact spells_number _
  | iconBackground => exact spells_color _
  | workers => exact spells_number _
  | seed =>
      change Spells (s.seed.elim "null" number).toList (s.seed.elim .null wholeJson)
      cases s.seed with
      | none => exact spells_null
      | some n => exact spells_number n

/-- The line of a field. -/
def Field.line (s : Settings) (f : Field) : String :=
  s!"\"{f.name}\": {(f.written s).text}"

theorem spellsField_line (s : Settings) (f : Field) :
    SpellsField (f.line s).toList (f.name, f.json s) := by
  refine ⟨f.name.toList, (f.written s).text.toList, ?_, ?_, String.ofList_toList, spells_written s f⟩
  · change ("\"" ++ f.name ++ "\": " ++ (f.written s).text).toList = _
    simp [String.toList_append]
  · cases f <;> simp [Field.name, isPlain]

theorem spellsFields (s : Settings) (fields : List Field) :
    List.Forall₂ SpellsField ((fields.map (Field.line s)).map String.toList)
      (fields.map fun f => (f.name, f.json s)) := by
  induction fields with
  | nil => exact .nil
  | cons f fields ih => exact .cons (spellsField_line s f) ih

/-- What is written is read as it was meant. -/
theorem parse?_text (s : Settings) : Json.parse? (text s) = some (.object (json s)) := by
  have hMargin : ∀ c ∈ [' ', ' '], isBlank c = true := by simp [isBlank]
  have hBlanks : ∀ c ∈ ['\n'], isBlank c = true := by simp [isBlank]
  refine parse?_fields hMargin hBlanks (spellsFields s Field.all) (by simp [Field.all]) ?_
  exact toList_block "\x7b" "\x7d" "" (Field.all.map (Field.line s))

end PathTracer.Settings
