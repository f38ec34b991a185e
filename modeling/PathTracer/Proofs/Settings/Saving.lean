import PathTracer.Proofs.Settings.Printing

/-! Saved settings. Whatever text settings were read from, what is written of them is
read as the same settings again exactly if their backgrounds are finite. A number too
great for binary32 is read as infinite, and an infinite one is written as nothing. -/
namespace PathTracer.Settings

open Decimal Json

/-! ### Values -/

/-- A whole number below a bound is read back. -/
theorem wholeBelow?_wholeJson {bound n : ℕ} (h : n < bound) :
    wholeBelow? bound (wholeJson n) = some n := by
  have hPart : Json.Number.wholePart ⟨false, digitsOf n, [], none⟩ = n := digitsValue_digitsOf n
  simp [wholeBelow?, wholeJson, Json.Number.isWhole, hPart, h]

/-- A float is read back exactly if it is finite. -/
theorem float?_floatJson (x : Float32) :
    float? (floatJson x) = if x.isFinite then some x else none := by
  unfold floatJson
  split
  · rename_i hFinite
    obtain ⟨hDigits, hReads⟩ := throughDouble?_spelled hFinite
    have hPlain := Style.not_isWhole_numeral (literalOf .settings x) (Binary32.signBit x)
    simp only [float?, isWord, hPlain, Bool.false_and, Bool.false_eq_true, if_false]
    rw [Numeral.throughDouble?_number hDigits, hReads]
  · rfl

/-- The components of a color that are read are those that were written. -/
theorem color?_colorJson (v : Vec3 Float32) :
    color? (colorJson v) = if ∀ x ∈ v.toList, x.isFinite = true then some v else none := by
  obtain ⟨x, y, z⟩ := v
  simp only [color?, colorJson, Vec3.toList, List.map_cons, List.map_nil, float?_floatJson]
  by_cases hx : x.isFinite = true
  · by_cases hy : y.isFinite = true
    · by_cases hz : z.isFinite = true
      · simp [hx, hy, hz]
      · simp [hx, hy, hz]
    · simp [hx, hy]
  · simp [hx]

/-! ### Settings that were read -/

/-- Settings whose counts have 32 bits, and whose other whole numbers have 64. -/
structure InRange (s : Settings) : Prop where
  maxSamples : s.maxSamples < 0x100000000
  maxDepth : s.maxDepth < 0x100000000
  width : s.resolution.width < 0x100000000
  height : s.resolution.height < 0x100000000
  iconSize : s.iconSize < 0x100000000
  iconSamples : s.iconSamples < 0x100000000
  iconMaxDepth : s.iconMaxDepth < 0x100000000
  workers : s.workers < 0x10000000000000000
  seed : ∀ n ∈ s.seed, n < 0x10000000000000000

/-- The settings that come without a document are in range. -/
theorem inRange_default : InRange default := by
  constructor <;> decide

/-- What is read as a whole number is below its bound. -/
theorem wholeBelow?_lt {bound n : ℕ} {j : Json} (h : wholeBelow? bound j = some n) : n < bound := by
  unfold wholeBelow? at h
  split at h
  · split at h
    · rename_i hBelow
      cases h
      simp only [Bool.and_eq_true, decide_eq_true_eq] at hBelow
      exact hBelow.2
    · cases h
  · cases h

theorem extent?_lt {j : Json} {e : Extent} (h : extent? j = some e) :
    e.width < 0x100000000 ∧ e.height < 0x100000000 := by
  unfold extent? at h
  split at h
  · obtain ⟨w, hWidth, h⟩ := Option.bind_eq_some_iff.mp h
    obtain ⟨k, hHeight, h⟩ := Option.bind_eq_some_iff.mp h
    cases h
    exact ⟨wholeBelow?_lt hWidth, wholeBelow?_lt hHeight⟩
  · cases h

theorem seed?_lt {j : Json} {x : Option ℕ} (h : seed? j = some x) :
    ∀ n ∈ x, n < 0x10000000000000000 := by
  unfold seed? at h
  split at h
  · cases h
    exact fun _ hNone => nomatch hNone
  · obtain ⟨n, hSeed, rfl⟩ := Option.map_eq_some_iff.mp h
    rintro _ ⟨⟩
    exact wholeBelow?_lt hSeed

/-- Whatever is read into a field, all whole numbers stay in range. -/
theorem InRange.read? {s s' : Settings} (h : InRange s) {f : Field} {j : Json}
    (hRead : f.read? s j = some s') : InRange s' := by
  cases f with
  | maxSamples =>
      obtain ⟨n, hCount, rfl⟩ := Option.map_eq_some_iff.mp hRead
      exact { h with maxSamples := wholeBelow?_lt hCount }
  | maxDepth =>
      obtain ⟨n, hCount, rfl⟩ := Option.map_eq_some_iff.mp hRead
      exact { h with maxDepth := wholeBelow?_lt hCount }
  | background =>
      obtain ⟨v, -, rfl⟩ := Option.map_eq_some_iff.mp hRead
      exact { h with }
  | resolution =>
      obtain ⟨e, hExtent, rfl⟩ := Option.map_eq_some_iff.mp hRead
      exact { h with width := (extent?_lt hExtent).1, height := (extent?_lt hExtent).2 }
  | iconSize =>
      obtain ⟨n, hCount, rfl⟩ := Option.map_eq_some_iff.mp hRead
      exact { h with iconSize := wholeBelow?_lt hCount }
  | iconSamples =>
      obtain ⟨n, hCount, rfl⟩ := Option.map_eq_some_iff.mp hRead
      exact { h with iconSamples := wholeBelow?_lt hCount }
  | iconMaxDepth =>
      obtain ⟨n, hCount, rfl⟩ := Option.map_eq_some_iff.mp hRead
      exact { h with iconMaxDepth := wholeBelow?_lt hCount }
  | iconBackground =>
      obtain ⟨v, -, rfl⟩ := Option.map_eq_some_iff.mp hRead
      exact { h with }
  | workers =>
      obtain ⟨n, hCount, rfl⟩ := Option.map_eq_some_iff.mp hRead
      exact { h with workers := wholeBelow?_lt hCount }
  | seed =>
      obtain ⟨x, hSeed, rfl⟩ := Option.map_eq_some_iff.mp hRead
      exact { h with seed := seed?_lt hSeed }

/-- Reading the fields of an object keeps all whole numbers in range. -/
theorem InRange.readFields? {s s' : Settings} (h : InRange s) {seen : List Field}
    {fields : List (String × Json)} (hRead : readFields? s seen fields = some s') :
    InRange s' := by
  induction fields generalizing s seen with
  | nil =>
      cases hRead
      exact h
  | cons field rest ih =>
      obtain ⟨name, value⟩ := field
      unfold Settings.readFields? at hRead
      split at hRead
      · exact ih h hRead
      · split at hRead
        · cases hRead
        · split at hRead
          · cases hRead
          · rename_i hField
            exact ih (h.read? hField) hRead

/-- Reading the items of an array, as fields in their order, keeps all whole numbers in
range. -/
theorem InRange.readItems? {s s' : Settings} (h : InRange s) {fields : List Field}
    {items : List Json} (hRead : readItems? s fields items = some s') : InRange s' := by
  induction fields generalizing s items with
  | nil =>
      cases items with
      | nil =>
          cases hRead
          exact h
      | cons value items => cases hRead
  | cons field fields ih =>
      cases items with
      | nil =>
          cases hRead
          exact h
      | cons value items =>
          unfold Settings.readItems? at hRead
          split at hRead
          · cases hRead
          · rename_i hField
            exact ih (h.read? hField) hRead

/-- Cleaning settings keeps them in range. -/
theorem InRange.sanitize {s : Settings} (h : InRange s) : InRange s.sanitize :=
  { h with
    maxDepth := max_lt h.maxDepth (by decide)
    iconMaxDepth := max_lt h.iconMaxDepth (by decide)
    iconSize := max_lt h.iconSize (by decide)
    width := max_lt h.width (by decide)
    height := max_lt h.height (by decide) }

/-- Cleaning twice is cleaning once. -/
theorem sanitize_sanitize (s : Settings) : s.sanitize.sanitize = s.sanitize := by
  simp [sanitize]

/-- Settings that were read are in range, and need no more sanitizing. -/
theorem inRange_of_parse {document : String} {s : Settings} (h : parse document = .ok s) :
    InRange s ∧ s.sanitize = s := by
  unfold parse at h
  split at h
  · rename_i s' hRead
    cases h
    obtain ⟨j, -, hSettings⟩ := Option.bind_eq_some_iff.mp hRead
    unfold ofJson? at hSettings
    split at hSettings
    · obtain ⟨raw, hFields, rfl⟩ := Option.map_eq_some_iff.mp hSettings
      exact ⟨(inRange_default.readFields? hFields).sanitize, sanitize_sanitize raw⟩
    · obtain ⟨raw, hItems, rfl⟩ := Option.map_eq_some_iff.mp hSettings
      exact ⟨(inRange_default.readItems? hItems).sanitize, sanitize_sanitize raw⟩
    · cases hSettings
  · cases h

/-! ### Reading what was written -/

theorem ofName?_name (f : Field) : Field.ofName? f.name = some f := by
  cases f <;> decide

/-- Written fields are read one after the other. None of them may come twice, which the
reader would refuse. -/
theorem readFields?_written (t : Settings) {fields seen : List Field} (hOnce : fields.Nodup)
    (hNew : ∀ f ∈ fields, f ∉ seen) (s : Settings) :
    readFields? s seen (fields.map fun f => (f.name, f.json t)) =
      fields.foldlM (fun s f => f.read? s (f.json t)) s := by
  induction fields generalizing s seen with
  | nil => rfl
  | cons f fields ih =>
      obtain ⟨hFirst, hRest⟩ := List.nodup_cons.mp hOnce
      have hUnseen : seen.contains f = false := by
        simpa using hNew f List.mem_cons_self
      rw [List.map_cons, readFields?, ofName?_name, List.foldlM_cons]
      simp only [hUnseen, Bool.false_eq_true, if_false]
      cases f.read? s (f.json t) with
      | none => rfl
      | some s' =>
          refine ih hRest (fun g hg hSeen => ?_) s'
          obtain rfl | hSeen := List.mem_cons.mp hSeen
          · exact hFirst hg
          · exact hNew g (List.mem_cons_of_mem _ hg) hSeen

theorem count?_wholeJson {n : ℕ} (h : n < 0x100000000) : count? (wholeJson n) = some n :=
  wholeBelow?_wholeJson h

/-- An extent is read back as it is written. -/
theorem extent?_written {e : Extent} (hWidth : e.width < 0x100000000)
    (hHeight : e.height < 0x100000000) :
    extent? (.array [wholeJson e.width, wholeJson e.height]) = some e := by
  simp [extent?, count?_wholeJson hWidth, count?_wholeJson hHeight]

/-- A seed is read back as it is written, and so is a missing one. -/
theorem seed?_written {x : Option ℕ} (h : ∀ n ∈ x, n < 0x10000000000000000) :
    seed? (x.elim .null wholeJson) = some x := by
  cases x with
  | none => rfl
  | some n =>
      change (wholeBelow? 0x10000000000000000 (wholeJson n)).map some = _
      rw [wholeBelow?_wholeJson (h n rfl)]
      rfl

/-- The components of the background colors. -/
def floats (s : Settings) : List Float32 :=
  s.background.toList ++ s.iconBackground.toList

/-- All fields are read as they were written, if the background colors are finite. -/
theorem readFields?_json {t : Settings} (h : InRange t) :
    readFields? default [] (json t) =
      if ∀ x ∈ floats t, x.isFinite = true then some t else none := by
  have hOnce : Field.all.Nodup := by decide
  rw [json, readFields?_written t hOnce (fun _ _ => List.not_mem_nil) default]
  simp only [Field.all, List.foldlM_cons, List.foldlM_nil, Field.read?, Field.json,
    count?_wholeJson h.maxSamples, count?_wholeJson h.maxDepth, count?_wholeJson h.iconSize,
    count?_wholeJson h.iconSamples, count?_wholeJson h.iconMaxDepth,
    wholeBelow?_wholeJson h.workers, extent?_written h.width h.height, seed?_written h.seed,
    color?_colorJson, floats, List.forall_mem_append]
  by_cases hMain : ∀ x ∈ t.background.toList, x.isFinite = true
  · by_cases hIcon : ∀ x ∈ t.iconBackground.toList, x.isFinite = true
    · rw [if_pos hMain, if_pos hIcon, if_pos ⟨hMain, hIcon⟩]
      rfl
    · rw [if_pos hMain, if_neg hIcon, if_neg fun hBoth => hIcon hBoth.2]
      rfl
  · have hSome : ¬((∀ x ∈ t.background.toList, x.isFinite = true) ∧
        ∀ x ∈ t.iconBackground.toList, x.isFinite = true) := fun hBoth => hMain hBoth.1
    rw [if_neg hMain, if_neg hSome]
    rfl

/-- What the text of settings is read as. -/
theorem parse_text {t : Settings} (hRange : InRange t) (hSane : t.sanitize = t) :
    parse (text t) = if ∀ x ∈ floats t, x.isFinite = true then .ok t
      else .error .malformedSettings := by
  unfold parse
  rw [parse?_text, Option.bind_some, ofJson?, readFields?_json hRange]
  split
  · rename_i s hRead
    split at hRead
    · rename_i hFinite
      rw [Option.map_some, hSane] at hRead
      cases hRead
      rw [if_pos hFinite]
    · cases hRead
  · rename_i hRead
    split at hRead
    · cases hRead
    · rename_i hSome
      rw [if_neg hSome]

/-- Settings that were read from a text are read again from what is saved of them exactly if
their background colors are finite. The settings have been read and cleaned before, so that
all their whole numbers are in range. What is not finite is written as null, which is no
number. -/
theorem load_text_iff {document : String} {s : Settings} (h : parse document = .ok s)
    (path : String) :
    load path (some (text s)) = .ok s ↔ ∀ x ∈ floats s, x.isFinite = true := by
  obtain ⟨hRange, hSane⟩ := inRange_of_parse h
  rw [load, parse_text hRange hSane]
  split
  · rename_i hFinite
    exact iff_of_true rfl hFinite
  · rename_i hSome
    exact iff_of_false (fun hSame => nomatch hSame) hSome

/-- The settings of a new installation survive. -/
theorem load_text_default : parse (text default) = .ok default ∧
    load "render.json" (some (text default)) = .ok default := by
  have hParse : parse (text default) = .ok default := by
    rw [parse_text inRange_default rfl]
    rfl
  exact ⟨hParse, (load_text_iff hParse _).mpr (by decide)⟩

/-- A color of a component beyond the range of binary32, as a document. -/
def greatColor : Json :=
  .array [.number ⟨false, ['1'], [], some 39⟩, .number ⟨false, ['0'], [], none⟩,
    .number ⟨false, ['0'], [], none⟩]

/-- The document is one of the three numbers, the first of which no float is near to. -/
theorem parse?_greatColor : Json.parse? "\x7b\"background\":[1e39,0,0]\x7d" =
    some (.object [("background", greatColor)]) := by
  have hZero : Spells ['0'] (.number ⟨false, ['0'], [], none⟩) := spells_digitsOf 0
  have hFormed : Numeral.WellFormed ⟨['1'], [], ['3', '9']⟩ :=
    ⟨by simp, by simp, by simp, .inr (.plain (by simp) (by simp))⟩
  have hGreat : Spells ['1', 'e', '3', '9'] (.number ⟨false, ['1'], [], some 39⟩) :=
    spells_numeral hFormed rfl false
  have hItems : ReadsItems ['1', 'e', '3', '9', ',', '0', ',', '0', ']', '\x7d']
      [.number ⟨false, ['1'], [], some 39⟩, .number ⟨false, ['0'], [], none⟩,
        .number ⟨false, ['0'], [], none⟩] ['\x7d'] :=
    readsItems_more (hGreat.reads (follows_cons rfl)) rfl
      (readsItems_more (hZero.reads (follows_cons rfl)) rfl
        (readsItems_last (hZero.reads (follows_cons rfl)) rfl))
  have hColor : Reads false (skipBlanks ['[', '1', 'e', '3', '9', ',', '0', ',', '0', ']', '\x7d'])
      greatColor ['\x7d'] :=
    reads_items (fun _ hClose => absurd (List.cons.inj hClose).1 (by decide)) hItems
  have hFields : ReadsFields true _ [("background", greatColor)] [] :=
    readsFields_last (show ∀ c ∈ "background".toList, isPlain c = true by simp [isPlain]) hColor rfl
  refine parse?_of_reads (reads_fields (fun _ hClose => ?_) hFields) rfl
  exact absurd (List.cons.inj hClose).1 (by decide)

theorem color?_greatColor : color? greatColor = some ⟨.ofBits 0x7f800000, 0.0, 0.0⟩ := by
  decide +kernel

/-- Settings with such a color are read and saved, and what is saved is no settings. -/
theorem load_text_of_greatColor : ∃ s, parse "\x7b\"background\":[1e39,0,0]\x7d" = .ok s ∧
    load "render.json" (some (text s)) = .error .malformedSettings := by
  have hParse : parse "\x7b\"background\":[1e39,0,0]\x7d" =
      .ok { default with background := ⟨.ofBits 0x7f800000, 0.0, 0.0⟩ } := by
    have hField : Field.background.read? default greatColor =
        some { default with background := ⟨.ofBits 0x7f800000, 0.0, 0.0⟩ } := by
      rw [Field.read?, color?_greatColor]
      rfl
    unfold parse
    rw [parse?_greatColor, Option.bind_some, ofJson?, readFields?,
      show Field.ofName? "background" = some .background from ofName?_name .background]
    simp only [List.contains_nil, Bool.false_eq_true, if_false, hField]
    rfl
  obtain ⟨hRange, hSane⟩ := inRange_of_parse hParse
  refine ⟨_, hParse, ?_⟩
  rw [load, parse_text hRange hSane, if_neg (by decide)]

end PathTracer.Settings
