import PathTracer.Proofs.Shader.Words

/-! Expressions read by the grammar of WGSL. A selection or an index binds tighter than a
negation before it, so a negation stands outside all that follows its bracket. -/
namespace PathTracer.Shader

/-- What is found at the start of words, and the words behind it. -/
abbrev Phrase (α : Type) : Type := List Word → Option (α × List Word)

namespace Phrase

/-! ### The grammar -/

/-- The words behind those that have to stand at their start. -/
def expect (found words : List Word) : Option (List Word) :=
  if found.isPrefixOf words then some (words.drop found.length) else none

/-- A literal. A minus directly before it belongs to it. -/
def literal : Phrase Expr
  | .float ordinal :: rest => some (.float (Decimal.ofOrdinal false ordinal), rest)
  | .operator .sub :: .float ordinal :: rest => some (.float (Decimal.ofOrdinal true ordinal), rest)
  | .int magnitude :: rest => some (.int magnitude, rest)
  | .operator .sub :: .int magnitude :: rest => some (.int (-magnitude), rest)
  | .uint value :: rest => some (.uint value, rest)
  | _ => none

/-- What stands behind a parenthesis: an operand, or two with an operator between them. -/
def enclosed (operand : Phrase Expr) : Phrase Expr := fun words =>
  (operand words).bind fun (left, rest) =>
    match rest with
    | .closing :: rest => some (left, rest)
    | .operator op :: rest => (operand rest).bind fun (right, rest) =>
        (expect [.closing] rest).map fun rest => (.binary op left right, rest)
    | _ => none

/-- Arguments up to the parenthesis behind them. -/
def arguments (operand : Phrase Expr) : Nat → Phrase (List Expr)
  | 0, _ => none
  | _ + 1, .closing :: rest => some ([], rest)
  | n + 1, words => (operand words).bind fun (e, rest) =>
    match rest with
    | .closing :: rest => some ([e], rest)
    | .comma :: rest => (arguments operand n rest).map fun (more, rest) => (e :: more, rest)
    | _ => none

/-- A construction, a call or a variable, behind its first word. -/
def named (operand : Phrase Expr) (n : Nat) (word : String) : Phrase Expr := fun words =>
  match Ty.ofWord? word with
  | some type => (expect (type.argumentWords ++ [.opening]) words).bind fun rest =>
      (arguments operand n rest).map fun (args, rest) => (.construct type args, rest)
  | none =>
    match words with
    | .opening :: rest =>
      (arguments operand n rest).map fun (args, rest) => (.call word args, rest)
    | rest => some (.ident word, rest)

/-- What stands in parentheses, what starts with a name, or a literal. -/
def primary (operand : Phrase Expr) (n : Nat) : Phrase Expr
  | .opening :: rest => enclosed operand rest
  | .name word :: rest => named operand n word rest
  | words => literal words

/-- The selections and indices behind an expression. -/
def suffixes (operand : Phrase Expr) : Nat → Expr → Phrase Expr
  | 0, _, _ => none
  | n + 1, e, .point :: .name name :: rest => suffixes operand n (.field e name) rest
  | n + 1, e, .openingIndex :: rest => (operand rest).bind fun (position, rest) =>
    (expect [.closingIndex] rest).bind fun rest => suffixes operand n (.index e position) rest
  | _ + 1, e, rest => some (e, rest)

/-- An operand, in which less than `n` are nested: a primary expression with its suffixes, or
a prefix operator and an operand. -/
def operand : Nat → Phrase Expr
  | 0, _ => none
  | n + 1, words =>
    match primary (operand n) n words with
    | some (e, rest) => suffixes (operand n) n e rest
    | none =>
      match words with
      | .operator .sub :: rest => (operand n rest).map fun (e, rest) => (.neg e, rest)
      | .not :: rest => (operand n rest).map fun (e, rest) => (.not e, rest)
      | _ => none

end Phrase

namespace Expr

/-- The expression that a text is. -/
def parse (text : String) : Option Expr :=
  (wordsOf text.toList).bind fun words =>
    match Phrase.operand (words.length + 1) words with
    | some (e, []) => some e
    | _ => none

/-! ### Negations before suffixes -/

/-- Put a suffix on an expression as it is read behind the text of the expression. -/
def under (suffix : Expr → Expr) : Expr → Expr
  | .neg e => .neg (suffix e)
  | .not e => .not (suffix e)
  | e => suffix e

mutual

/-- The expression that the text of another one is read as. -/
def regrouped : Expr → Expr
  | .float x => .float x
  | .int i => .int i
  | .uint n => .uint n
  | .ident name => .ident name
  | .field base name => base.regrouped.under fun e => .field e name
  | .index base position => base.regrouped.under fun e => .index e position.regrouped
  | .neg e => .neg e.regrouped
  | .not e => .not e.regrouped
  | .binary op a b => .binary op a.regrouped b.regrouped
  | .call function args => .call function (allRegrouped args)
  | .construct type args => .construct type (allRegrouped args)

def allRegrouped : List Expr → List Expr
  | [] => []
  | e :: rest => e.regrouped :: allRegrouped rest

end

/-- Whether an expression is a negation. -/
def isPrefixed : Expr → Bool
  | .neg _ => true
  | .not _ => true
  | _ => false

mutual

/-- Whether nothing is selected from a negation, and no negation is indexed. -/
def isGrouped : Expr → Bool
  | .field base _ => !base.isPrefixed && base.isGrouped
  | .index base position => !base.isPrefixed && base.isGrouped && position.isGrouped
  | .neg e => e.isGrouped
  | .not e => e.isGrouped
  | .binary _ a b => a.isGrouped && b.isGrouped
  | .call _ args => allGrouped args
  | .construct _ args => allGrouped args
  | _ => true

def allGrouped : List Expr → Bool
  | [] => true
  | e :: rest => e.isGrouped && allGrouped rest

end

/-- Without a suffix an expression is read as itself. -/
theorem under_id (e : Expr) : e.under id = e := by
  cases e <;> rfl

/-- A suffix applies to all of an expression that is no negation. -/
theorem under_of_isPrefixed {e : Expr} (h : e.isPrefixed = false) (suffix : Expr → Expr) :
    e.under suffix = suffix e := by
  cases e <;> first | rfl | cases h

/-- Suffixes go under a negation one after the other. -/
theorem under_under {put : Expr → Expr} (hPlain : ∀ e, (put e).isPrefixed = false) (e : Expr)
    (suffix : Expr → Expr) : (e.under put).under suffix = e.under fun e => suffix (put e) := by
  cases hPrefixed : e.isPrefixed with
  | true => cases e <;> first | rfl | cases hPrefixed
  | false =>
      rw [under_of_isPrefixed hPrefixed, under_of_isPrefixed hPrefixed,
        under_of_isPrefixed (hPlain e)]

/-- An expression that is no negation has its last suffix outside. -/
theorem under_eq_iff {e other : Expr} {suffix : Expr → Expr} (hOther : other.isPrefixed = false) :
    e.under suffix = other ↔ e.isPrefixed = false ∧ suffix e = other := by
  cases hPrefixed : e.isPrefixed with
  | false => simp [under_of_isPrefixed hPrefixed]
  | true =>
      refine iff_of_false ?_ (by simp)
      rintro rfl
      cases e <;> simp_all [under, isPrefixed]

/-- The text of an expression is read as the expression just where no negation stands before
a suffix. -/
theorem regrouped_eq_iff {e : Expr} (h : e.Printable) : e.regrouped = e ↔ e.isGrouped = true := by
  have hAll {args : List Expr} (hArgs : ∀ e ∈ args, (e.regrouped = e ↔ e.isGrouped = true)) :
      allRegrouped args = args ↔ allGrouped args = true := by
    induction args with
    | nil => simp [allRegrouped, allGrouped]
    | cons e more ih =>
        obtain ⟨hFirst, hMore⟩ := List.forall_mem_cons.mp hArgs
        simp [allRegrouped, allGrouped, hFirst, ih hMore]
  induction h with
  | field hBase hName ih =>
      simp only [regrouped, under_eq_iff (rfl : (field _ _).isPrefixed = false), field.injEq,
        and_true, isGrouped, Bool.and_eq_true, Bool.not_eq_true', ← ih]
      -- A grouped base is read as itself, so it is a negation where its reading is one.
      exact and_congr_left fun hSame => by rw [hSame]
  | index hBase hPosition ihBase ihPosition =>
      simp only [regrouped, under_eq_iff (rfl : (index _ _).isPrefixed = false), index.injEq,
        isGrouped, Bool.and_eq_true, Bool.not_eq_true', ← ihBase, ← ihPosition, and_assoc]
      exact and_congr_left fun hSame => by rw [hSame.1]
  | call hName hType hArgs ih => simp [regrouped, isGrouped, hAll ih]
  | construct hType hArgs ih => simp [regrouped, isGrouped, hAll ih]
  | _ => simp_all [regrouped, isGrouped]

end Expr

/-! ### Reading words -/

namespace Phrase

/-- Words in which nothing more belongs to the expression before them. -/
def Ends (words : List Word) : Prop :=
  ∀ word ∈ words.head?, word ≠ .point ∧ word ≠ .openingIndex ∧ word ≠ .opening

/-- Words that have to stand first are found where they do. -/
theorem expect_append (found rest : List Word) : expect found (found ++ rest) = some rest := by
  simp [expect]

/-- A word that has to stand first is found where it does. -/
theorem expect_singleton (word : Word) (rest : List Word) :
    expect [word] (word :: rest) = some rest :=
  expect_append [word] rest

/-- Where an expression ends there is no suffix to read. -/
theorem suffixes_of_ends {inner : Phrase Expr} (n : Nat) (e : Expr) {words : List Word}
    (h : Ends words) : suffixes inner (n + 1) e words = some (e, words) := by
  unfold suffixes
  split
  · contradiction
  · exact absurd rfl (h _ rfl).1
  · exact absurd rfl (h _ rfl).2.1
  · simp_all

/-- Reading the words of an expression leads to the suffixes behind it, with a negation around
what is read then. -/
def Reads (e : Expr) : Prop :=
  ∃ (core : Expr) (around : Expr → Expr), (∀ suffix, e.regrouped.under suffix = around (suffix core)) ∧
    ∀ ⦃n : Nat⦄ ⦃rest : List Word⦄, e.words.length ≤ n → rest.head? ≠ some .opening →
      ∃ m k, n ≤ m + 1 ∧ n < k + e.words.length ∧ operand (n + 1) (e.words ++ rest) =
        (suffixes (operand m) k core rest).map fun (e, rest) => (around e, rest)

/-- Up to where nothing more belongs to it, the words of an expression are read whole. -/
theorem Reads.ends {e : Expr} (h : Reads e) {n : Nat} {rest : List Word}
    (hLength : e.words.length < n) (hRest : Ends rest) :
    operand n (e.words ++ rest) = some (e.regrouped, rest) := by
  obtain ⟨core, around, hUnder, hReads⟩ := h
  obtain ⟨n, rfl⟩ := Nat.exists_eq_succ_of_ne_zero (Nat.ne_of_gt (Nat.zero_lt_of_lt hLength))
  have hOpening : rest.head? ≠ some .opening := fun hHead => (hRest _ hHead).2.2 rfl
  obtain ⟨m, k, -, hFuel, hOperand⟩ := hReads (Nat.le_of_lt_succ hLength) hOpening
  obtain ⟨k, rfl⟩ : ∃ j, k = j + 1 := Nat.exists_eq_succ_of_ne_zero (by omega)
  have hAround : e.regrouped = around core := (Expr.under_id _).symm.trans (hUnder id)
  rw [Nat.succ_eq_add_one, hOperand, suffixes_of_ends k core hRest, Option.map_some, hAround]

/-- A primary expression is read with the suffixes behind it. -/
theorem operand_of_primary {n : Nat} {e : Expr} {words rest : List Word}
    (h : primary (operand n) n words = some (e, rest)) :
    operand (n + 1) words = suffixes (operand n) n e rest := by
  unfold operand
  rw [h]

/-- What is read as a primary expression reads as it has to. The premise excludes negations,
under which suffixes go. -/
theorem reads_of_primary {e : Expr} (hPlain : e.regrouped.isPrefixed = false) (hSome : e.words ≠ [])
    (h : ∀ ⦃n : Nat⦄ ⦃rest : List Word⦄, e.words.length ≤ n → rest.head? ≠ some .opening →
      primary (operand n) n (e.words ++ rest) = some (e.regrouped, rest)) : Reads e := by
  refine ⟨e.regrouped, id, Expr.under_of_isPrefixed hPlain, fun n rest hLength hRest => ?_⟩
  have hPositive := List.length_pos_iff.mpr hSome
  refine ⟨n, n, Nat.le_succ n, by omega, ?_⟩
  rw [operand_of_primary (h hLength hRest)]
  exact Option.map_id_apply.symm

/-- A parenthesis around one operand is closed behind it. -/
theorem enclosed_closing {inner : Phrase Expr} {words rest : List Word} {e : Expr}
    (h : inner words = some (e, .closing :: rest)) : enclosed inner words = some (e, rest) := by
  simp [enclosed, h]

/-! ### Literals -/

/-- A finite float is read from its words, the minus before a negative one included. -/
theorem primary_floatWords {x : Float32} (h : x.isFinite = true) (inner : Phrase Expr) (n : Nat)
    (rest : List Word) : primary inner n (floatWords x ++ rest) = some (.float x, rest) := by
  have hValue := Decimal.ofOrdinal_toOrdinal h
  unfold floatWords
  cases hSign : Binary32.signBit x <;> rw [hSign] at hValue <;> simp [primary, literal, hValue]

/-- A literal in parentheses of its own is read as the literal. -/
theorem primary_enclosed {e : Expr} {words rest : List Word} {n : Nat} (hFuel : 2 ≤ n)
    (h : ∀ inner n rest, primary inner n (words ++ rest) = some (e, rest)) :
    primary (operand n) n (Word.opening :: (words ++ [Word.closing]) ++ rest) = some (e, rest) := by
  obtain ⟨n, rfl⟩ := Nat.exists_eq_add_of_le' hFuel
  have hInner : operand (n + 2) (words ++ .closing :: rest) = some (e, .closing :: rest) := by
    rw [operand_of_primary (h _ _ _)]
    exact suffixes_of_ends n e (by simp [Ends])
  rw [List.cons_append, List.append_assoc]
  exact enclosed_closing hInner

/-- Every finite float is read as itself. -/
theorem reads_float {x : Float32} (h : x.isFinite = true) : Reads (.float x) := by
  have hPlain := primary_floatWords h
  refine reads_of_primary rfl ?_ fun n rest hLength _ => ?_
  · rw [Expr.words]
    split <;> simp [floatWords]
  · rw [Expr.words] at hLength ⊢
    split at hLength
    · rename_i hNegative
      rw [if_pos hNegative]
      exact primary_enclosed (by simp at hLength; omega) hPlain
    · rename_i hPositive
      rw [if_neg hPositive]
      exact hPlain _ _ _

/-- Every integer is read as itself. -/
theorem reads_int (i : Int) : Reads (.int i) := by
  refine reads_of_primary rfl ?_ fun n rest hLength _ => ?_
  · rw [Expr.words]
    split <;> simp
  · rw [Expr.words] at hLength ⊢
    split at hLength
    · rename_i hNegative
      have hPlain (inner : Phrase Expr) (n : Nat) (rest : List Word) :
          primary inner n ([Word.operator .sub, .int i.natAbs] ++ rest) = some (.int i, rest) := by
        have hValue : -(i.natAbs : Int) = i := by omega
        change some (Expr.int (-(i.natAbs : Int)), rest) = _
        rw [hValue]
      rw [if_pos hNegative]
      exact primary_enclosed (by simp at hLength; omega) hPlain
    · rename_i hPositive
      have hValue : (i.natAbs : Int) = i := by omega
      rw [if_neg hPositive]
      change some (Expr.int i.natAbs, rest) = _
      rw [hValue, Expr.regrouped]

/-- Every unsigned integer is read as itself. -/
theorem reads_uint (k : Nat) : Reads (.uint k) :=
  reads_of_primary rfl (by simp [Expr.words]) fun _ _ _ _ => rfl

/-! ### Suffixes -/

/-- One more suffix is read behind those of the base, so a negation stays outside of it.
This is where the reader and the printer differ: printed was the suffix of a negation. -/
theorem Reads.suffix {base e : Expr} (hBase : Reads base) {words : List Word} {put : Expr → Expr}
    (hWords : e.words = base.words ++ words) (hTwo : 2 ≤ words.length)
    (hPut : e.regrouped = base.regrouped.under put) (hPlain : ∀ core, (put core).isPrefixed = false)
    (hHead : ∀ rest, (words ++ rest).head? ≠ some .opening)
    (hSuffix : ∀ ⦃m k core rest⦄, words.length ≤ m + 1 →
      suffixes (operand m) (k + 1) core (words ++ rest) = suffixes (operand m) k (put core) rest) :
    Reads e := by
  obtain ⟨core, around, hUnder, hReads⟩ := hBase
  refine ⟨put core, around, fun suffix => ?_, fun n rest hLength hRest => ?_⟩
  · rw [hPut, Expr.under_under hPlain, hUnder]
  · rw [hWords, List.length_append] at hLength
    -- The base has used up less of the count than it has words, so one more suffix is read.
    obtain ⟨m, k, hDepth, hFuel, hOperand⟩ := hReads (n := n) (by omega) (hHead rest)
    obtain ⟨k, rfl⟩ : ∃ j, k = j + 1 := Nat.exists_eq_succ_of_ne_zero (by omega)
    refine ⟨m, k, hDepth, ?_, ?_⟩
    · rw [hWords, List.length_append]
      omega
    · rw [hWords, List.append_assoc, hOperand, hSuffix (by omega)]

/-- A component is read as one of what its base is read as, or under its negation. -/
theorem Reads.field {base : Expr} {name : String} (hBase : Reads base) :
    Reads (.field base name) :=
  hBase.suffix (by rw [Expr.words]) (by simp) (by rw [Expr.regrouped]) (fun _ => rfl)
    (fun _ => by simp) fun m k core rest _ => rfl

/-- An element is read as one of what its base is read as, or under its negation. -/
theorem Reads.index {base position : Expr} (hBase : Reads base) (hPosition : Reads position) :
    Reads (.index base position) := by
  refine hBase.suffix (by rw [Expr.words]) (by simp) (by rw [Expr.regrouped]) (fun _ => rfl)
    (fun _ => by simp) fun m k core rest hLength => ?_
  have hInner : operand m (position.words ++ .closingIndex :: rest) =
      some (position.regrouped, .closingIndex :: rest) :=
    hPosition.ends (by simp at hLength; omega) (by simp [Ends])
  simp only [List.cons_append, List.append_assoc, List.nil_append, suffixes, hInner,
    Option.bind_some, expect_singleton]

/-! ### Operators -/

/-- A prefix operator stands around the suffixes of the bracket behind it. -/
theorem Reads.prefixed {e operand : Expr} (h : Reads operand) {word : Word} {around : Expr → Expr}
    (hWords : e.words = word :: .opening :: (operand.words ++ [Word.closing]))
    (hUnder : ∀ suffix, e.regrouped.under suffix = around (suffix operand.regrouped))
    (hOperator : ∀ n rest, Phrase.operand (n + 1) (word :: .opening :: rest) =
      (Phrase.operand n (.opening :: rest)).map fun (e, rest) => (around e, rest)) :
    Reads e := by
  refine ⟨operand.regrouped, around, hUnder, fun n rest hLength _ => ?_⟩
  rw [hWords] at hLength ⊢
  simp only [List.length_cons, List.length_append, List.length_nil] at hLength ⊢
  obtain ⟨n, rfl⟩ : ∃ m, n = m + 1 := Nat.exists_eq_succ_of_ne_zero (by omega)
  have hInner : Phrase.operand n (operand.words ++ .closing :: rest) =
      some (operand.regrouped, .closing :: rest) := h.ends (by omega) (by simp [Ends])
  have hPrimary : primary (Phrase.operand n) n (.opening :: (operand.words ++ .closing :: rest)) =
      some (operand.regrouped, rest) := enclosed_closing hInner
  refine ⟨n, n, Nat.le_refl _, by omega, ?_⟩
  rw [List.cons_append, List.cons_append, List.append_assoc, List.singleton_append, hOperator,
    operand_of_primary hPrimary]

/-- A negation is read as one, with all that follows under it. -/
theorem Reads.neg {e : Expr} (h : Reads e) : Reads (.neg e) :=
  h.prefixed rfl (fun _ => rfl) fun _ _ => rfl

/-- A denial is read as one, in parentheses of its own. -/
theorem Reads.not {e : Expr} (h : Reads e) : Reads (.not e) :=
  h.prefixed rfl (fun _ => rfl) fun _ _ => rfl

/-- An operation stands in parentheses, so that what follows applies to all of it. -/
theorem Reads.binary (op : BinaryOp) {a b : Expr} (ha : Reads a) (hb : Reads b) :
    Reads (.binary op a b) := by
  refine reads_of_primary rfl (by simp [Expr.words]) fun n rest hLength _ => ?_
  simp only [Expr.words, List.length_cons, List.length_append, List.length_nil] at hLength
  have hLeft : operand n (a.words ++ .operator op :: (b.words ++ .closing :: rest)) =
      some (a.regrouped, .operator op :: (b.words ++ .closing :: rest)) :=
    ha.ends (by omega) (by simp [Ends])
  have hRight : operand n (b.words ++ .closing :: rest) = some (b.regrouped, .closing :: rest) :=
    hb.ends (by omega) (by simp [Ends])
  simp [Expr.words, primary, enclosed, hLeft, hRight, expect_singleton, Expr.regrouped]

/-! ### Names -/

/-- A name that is no type is read as a variable. -/
theorem reads_ident {name : String} (hType : Ty.ofWord? name = none) : Reads (.ident name) := by
  refine reads_of_primary rfl (by simp [Expr.words]) fun n rest _ hRest => ?_
  change named (operand n) n name rest = some (.ident name, rest)
  unfold named
  rw [hType]
  cases rest with
  | nil => rfl
  | cons word more =>
      have hOther : word ≠ .opening := fun hSame => hRest (congrArg some hSame)
      simp [hOther]

/-- An operand does not start with a mark that closes. -/
theorem operand_closing (n : Nat) (rest : List Word) : operand n (.closing :: rest) = none := by
  cases n <;> rfl

/-- An argument is read up to the comma or the parenthesis behind it. -/
theorem arguments_operand {n k : Nat} {e : Expr} {words rest : List Word}
    (h : operand n words = some (e, rest)) :
    arguments (operand n) (k + 1) words = (some (e, rest)).bind fun (e, rest) =>
      match rest with
      | .closing :: rest => some ([e], rest)
      | .comma :: rest => (arguments (operand n) k rest).map fun (more, rest) => (e :: more, rest)
      | _ => none := by
  rw [arguments, h]
  rintro more rfl
  rw [operand_closing] at h
  cases h

/-- Arguments are not longer than their list, and not more than its words. -/
theorem length_allWords (args : List Expr) :
    args.length ≤ (Expr.allWords args).length + 1 ∧
      ∀ e ∈ args, e.words.length ≤ (Expr.allWords args).length := by
  induction args with
  | nil => simp
  | cons e more ih =>
      cases more with
      | nil => simp [Expr.allWords]
      | cons second others =>
          obtain ⟨hCount, hEach⟩ := ih
          simp only [Expr.allWords, List.length_append, List.length_cons, List.mem_cons]
            at hCount hEach ⊢
          refine ⟨by omega, ?_⟩
          rintro other (rfl | hOther)
          · omega
          · have hLength := hEach other hOther
            omega

/-- Arguments are read up to the parenthesis behind them. -/
theorem arguments_allWords {args : List Expr} (hArgs : ∀ e ∈ args, Reads e) {n k : Nat}
    (hInner : ∀ e ∈ args, e.words.length < n) (hFuel : args.length < k) (rest : List Word) :
    arguments (operand n) k (Expr.allWords args ++ .closing :: rest) =
      some (Expr.allRegrouped args, rest) := by
  induction args generalizing k with
  | nil =>
      obtain ⟨k, rfl⟩ : ∃ j, k = j + 1 := Nat.exists_eq_succ_of_ne_zero (by omega)
      rfl
  | cons e more ih =>
      obtain ⟨k, rfl⟩ : ∃ j, k = j + 1 := Nat.exists_eq_succ_of_ne_zero (by omega)
      have hFirst {tail : List Word} (hEnds : Ends tail) := (hArgs e List.mem_cons_self).ends
        (hInner e List.mem_cons_self) hEnds
      have hMore := ih (fun e he => hArgs e (List.mem_cons_of_mem _ he))
        (fun e he => hInner e (List.mem_cons_of_mem _ he)) (k := k) (by simpa using hFuel)
      cases more with
      | nil =>
          rw [Expr.allWords, arguments_operand (hFirst (by simp [Ends]))]
          rfl
      | cons second others =>
          rw [Expr.allWords, List.append_assoc, List.cons_append,
            arguments_operand (hFirst (by simp [Ends]))]
          simp only [Option.bind_some, hMore, Option.map_some, Expr.allRegrouped]

/-- What stands in the parentheses of a call. -/
theorem arguments_closing {args : List Expr} (hArgs : ∀ e ∈ args, Reads e) {n : Nat}
    (hLength : (Expr.allWords args).length + 2 ≤ n) (rest : List Word) :
    arguments (operand n) n (Expr.allWords args ++ .closing :: rest) =
      some (Expr.allRegrouped args, rest) := by
  obtain ⟨hCount, hEach⟩ := length_allWords args
  exact arguments_allWords hArgs (fun e he => by have hEach := hEach e he; omega) (by omega) rest

/-- A call is read with its arguments, each regrouped. -/
theorem Reads.call {function : String} (hType : Ty.ofWord? function = none) {args : List Expr}
    (hArgs : ∀ e ∈ args, Reads e) : Reads (.call function args) := by
  refine reads_of_primary rfl (by simp [Expr.words]) fun n rest hLength _ => ?_
  simp only [Expr.words, List.length_cons, List.length_append, List.length_nil] at hLength
  have hInner := arguments_closing hArgs (n := n) (by omega) rest
  simp [Expr.words, primary, named, hType, hInner, Expr.regrouped]

/-- A construction is read with its arguments, each regrouped. -/
theorem Reads.construct {type : Ty} (hType : ∀ name, type ≠ .named name) {args : List Expr}
    (hArgs : ∀ e ∈ args, Reads e) : Reads (.construct type args) := by
  have hWord : Ty.ofWord? type.word = some type := by
    cases type with
    | named name => exact absurd rfl (hType name)
    | _ => decide
  refine reads_of_primary rfl (by simp [Expr.words]) fun n rest hLength _ => ?_
  simp only [Expr.words, Ty.words, List.length_cons, List.length_append, List.length_nil] at hLength
  have hInner := arguments_closing hArgs (n := n) (by omega) rest
  have hExpect := expect_append (type.argumentWords ++ [Word.opening])
    (Expr.allWords args ++ .closing :: rest)
  rw [List.append_assoc, List.singleton_append] at hExpect
  simp [Expr.words, Ty.words, primary, named, hWord, hExpect, hInner, Expr.regrouped]

end Phrase

namespace Expr

/-- Every expression that can be printed is read as it has to be. The induction is on the
expression. -/
theorem Printable.reads {e : Expr} (h : e.Printable) : Phrase.Reads e := by
  induction h with
  | float hFinite => exact Phrase.reads_float hFinite
  | int i => exact Phrase.reads_int i
  | uint n => exact Phrase.reads_uint n
  | ident hName hType => exact Phrase.reads_ident hType
  | field hBase hName ih => exact ih.field
  | index hBase hPosition ihBase ihPosition => exact ihBase.index ihPosition
  | neg hOperand ih => exact ih.neg
  | not hOperand ih => exact ih.not
  | binary op hLeft hRight ihLeft ihRight => exact .binary op ihLeft ihRight
  | call hName hType hArgs ih => exact .call hType ih
  | construct hType hArgs ih => exact .construct hType ih

/-- The text of an expression reads back with its negations outside the suffixes behind them. -/
theorem parse_text {e : Expr} (h : e.Printable) : parse e.text = some e.regrouped := by
  have hWords : wordsOf e.text.toList = some e.words := by
    simpa [wordsOf] using h.cuts [] (by simp)
  have hOperand : Phrase.operand (e.words.length + 1) e.words = some (e.regrouped, []) := by
    simpa using h.reads.ends (Nat.lt_succ_self _) (show Phrase.Ends [] by simp [Phrase.Ends])
  rw [parse, hWords, Option.bind_some, hOperand]

/-- The text of an expression reads back as the expression, every float bit for bit, if and
only if nothing is selected from a negation and no negation is indexed. An expression is
printable where its names are names and its floats are finite. The reader goes by the
grammar of the shader language, where a sign binds less than a selection behind its operand.
-/
theorem parse_text_iff_isGrouped {e : Expr} (h : e.Printable) :
    parse e.text = some e ↔ e.isGrouped = true := by
  rw [parse_text h, Option.some.injEq, regrouped_eq_iff h]

/-- A negated component times a negative number, as `(-(a.x) * (-0.5))`. -/
theorem parse_text_of_negated_component :
    let e := binary .mul (.neg (.field (.ident "a") "x")) (.float (-0.5))
    e.Printable ∧ parse e.text = some e := by
  have hPrintable : (binary .mul (.neg (.field (.ident "a") "x")) (.float (-0.5))).Printable :=
    .binary .mul (.neg (.field (.ident (by decide) (by decide)) (by decide))) (.float (by decide))
  exact ⟨hPrintable, (parse_text_iff_isGrouped hPrintable).mpr rfl⟩

/-- The component of a negation is written like the negation of a component. -/
theorem parse_text_of_component_of_negation :
    let e := field (.neg (.ident "a")) "x"
    e.Printable ∧ e.text = "-(a).x" ∧ parse e.text = some (.neg (.field (.ident "a") "x")) ∧
      parse e.text ≠ some e := by
  have hPrintable : (field (.neg (.ident "a")) "x").Printable :=
    .field (.neg (.ident (by decide) (by decide))) (by decide)
  have hParse := parse_text hPrintable
  refine ⟨hPrintable, rfl, hParse, ?_⟩
  rw [hParse]
  simp [regrouped, under]

end Expr

end PathTracer.Shader
