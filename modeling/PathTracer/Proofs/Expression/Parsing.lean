import PathTracer.Proofs.Expression.Grammar

/-! The parser against the grammar: it accepts the texts that the grammar derives,
with their trees, and no others. -/
namespace PathTracer

/-- What was read and what is left, without the proof about its length. -/
def Parsed.pair {τ α : Type} {text : List τ} (p : Parsed α text) : α × List τ :=
  (p.value, p.rest)

def Continued.pair {τ α : Type} {text : List τ} (c : Continued α text) : α × List τ :=
  (c.value, c.rest)

namespace Expression

/-- What comes of reading, an error or a value with the tokens that are left. -/
abbrev Outcome (α : Type) : Type := Except ParseError (α × List Token)

/-! ### The readers without their proofs -/

section readers

variable {text rest : List Token} {e : Expression}

/-- What a reading leaves is shorter than the text it started from. The parser carries this
bound in its result, and the pair of a result keeps it. -/
theorem length_of_pair {α : Type} {r : Except ParseError (Parsed α text)} {x : α}
    (h : r.map Parsed.pair = .ok (x, rest)) : rest.length < text.length := by
  cases r with
  | error e => cases h
  | ok p =>
      cases h
      exact p.shorter

/-- A mark is expected successfully exactly where it is the next token, and then nothing
else is consumed. -/
theorem expect_pair (mark : Mark) (text : List Token) :
    (expect mark text).map Parsed.pair = .ok ((), rest) ↔ text = .mark mark :: rest := by
  cases text with
  | nil => simp [expect, Except.map]
  | cons token more =>
      rw [expect]
      split <;> simp_all [Except.map, Parsed.pair]

/-- What follows a first part is joined to it. -/
theorem continue_pair (first : Except ParseError (Parsed Expression text))
    (tail : Expression → (more : List Token) → Except ParseError (Continued Expression more)) :
    Except.map Parsed.pair (match first with
      | .error e => .error e
      | .ok p =>
        match tail p.value p.rest with
        | .error e => .error e
        | .ok c => .ok (p.continue c)) =
      (first.map Parsed.pair).bind fun p => (tail p.1 p.2).map Continued.pair := by
  cases first with
  | error e => rfl
  | ok p =>
      change _ = (tail p.value p.rest).map Continued.pair
      dsimp only
      cases tail p.value p.rest <;> rfl

/-- Reading a primary and then its selections, without the bounds that the parser carries
along. -/
theorem selected_pair (text : List Token) :
    (selected text).map Parsed.pair =
      ((primary text).map Parsed.pair).bind fun p => (postfixTail p.1 p.2).map Continued.pair := by
  rw [selected]
  exact continue_pair _ postfixTail

/-- The items of a list: a sum, and then whatever commas lead to. -/
theorem sums_pair (text : List Token) :
    (sums text).map Parsed.pair =
      ((sum text).map Parsed.pair).bind fun p =>
        ((sumsTail p.2).map Continued.pair).map fun q => (p.1 :: q.1, q.2) := by
  rw [sums]
  cases sum text with
  | error e => rfl
  | ok first =>
      change _ = ((sumsTail first.rest).map Continued.pair).map _
      dsimp only
      cases sumsTail first.rest <;> rfl

/-- A leading minus negates what is read behind it. A literal takes the sign into itself. -/
theorem unary_minus_pair (rest : List Token) :
    (unary (.mark .minus :: rest)).map Parsed.pair =
      ((unary rest).map Parsed.pair).map fun p => (negated p.1, p.2) := by
  rw [unary]
  cases unary rest <;> rfl

/-- Where no minus stands first, a unary expression is a primary with its selections. -/
theorem unary_pair (h : ∀ rest, text ≠ .mark .minus :: rest) :
    (unary text).map Parsed.pair = (selected text).map Parsed.pair := by
  rw [unary]
  exact h

end readers

/-! ### Levels whose operators join from the left -/

/-- A level of precedence: operands of the next level, and after the first of them
operators with one more operand each. The tail takes what is read so far as the left
operand of what follows. -/
structure Level where
  marks : List Mark
  operator? : Token → Option Operator
  operand : (text : List Token) → Except ParseError (Parsed Expression text)
  tail : Expression → (text : List Token) → Except ParseError (Continued Expression text)
  chain : (text : List Token) → Except ParseError (Parsed Expression text)
  operator?_eq_none (token : Token) (h : ∀ m ∈ marks, token ≠ .mark m) : operator? token = none
  tail_nil (left : Expression) : (tail left []).map Continued.pair = .ok (left, [])
  tail_cons (left : Expression) (token : Token) (rest : List Token) :
    (tail left (token :: rest)).map Continued.pair =
      match operator? token with
      | none => .ok (left, token :: rest)
      | some op => ((operand rest).map Parsed.pair).bind fun p =>
        (tail (binary op left p.1) p.2).map Continued.pair
  chain_pair (text : List Token) :
    (chain text).map Parsed.pair =
      ((operand text).map Parsed.pair).bind fun p => (tail p.1 p.2).map Continued.pair

/-- One more operator with its operand, and what follows them. The operand on the left is
what was read before, which makes the level associate to the left. -/
theorem joined_pair (left : Expression) (token : Token) {rest : List Token} (op? : Option Operator)
    (operand : Except ParseError (Parsed Expression rest))
    (tail : Expression → (more : List Token) → Except ParseError (Continued Expression more)) :
    Except.map Continued.pair (match op? with
      | none => .ok (⟨left, token :: rest, Nat.le_refl _⟩ : Continued Expression (token :: rest))
      | some op =>
        match operand with
        | .error e => .error e
        | .ok right =>
          match tail (binary op left right.value) right.rest with
          | .error e => .error e
          | .ok c => .ok (right.complete (Nat.le_succ _) c)) =
      match op? with
      | none => .ok (left, token :: rest)
      | some op => (operand.map Parsed.pair).bind fun p =>
        (tail (binary op left p.1) p.2).map Continued.pair := by
  cases op? with
  | none => rfl
  | some op =>
      cases operand with
      | error e => rfl
      | ok right =>
          change _ = (tail (binary op left right.value) right.rest).map Continued.pair
          dsimp only
          cases tail (binary op left right.value) right.rest <;> rfl

namespace Level

/-- Factors between `*` and `/`. -/
def products : Level where
  marks := [.times, .slash]
  operator? := productOperator?
  operand := unary
  tail := productTail
  chain := product
  operator?_eq_none token h := by
    unfold productOperator?
    split
    · exact absurd rfl (h .times (by simp))
    · exact absurd rfl (h .slash (by simp))
    · rfl
  tail_nil left := by
    rw [productTail]
    rfl
  tail_cons left token rest := by
    rw [productTail]
    exact joined_pair left token _ _ productTail
  chain_pair text := by
    rw [product]
    exact continue_pair _ productTail

/-- Terms between `+` and `-`. -/
def sums : Level where
  marks := [.plus, .minus]
  operator? := sumOperator?
  operand := product
  tail := sumTail
  chain := sum
  operator?_eq_none token h := by
    unfold sumOperator?
    split
    · exact absurd rfl (h .plus (by simp))
    · exact absurd rfl (h .minus (by simp))
    · rfl
  tail_nil left := by
    rw [sumTail]
    rfl
  tail_cons left token rest := by
    rw [sumTail]
    exact joined_pair left token _ _ sumTail
  chain_pair text := by
    rw [sum]
    exact continue_pair _ sumTail

end Level

/-! ### What stands at the ends of a derivation -/

/-- A text that does not go on with one of some marks. -/
def Stops (marks : List Mark) (rest : List Token) : Prop :=
  ∀ m ∈ marks, rest.head? ≠ some (.mark m)

/-- A text that stops more levels also stops fewer. -/
theorem Stops.mono {many few : List Mark} {rest : List Token} (h : Stops many rest)
    (hSub : few ⊆ many) : Stops few rest :=
  fun m hm => h m (hSub hm)

/-- A text that begins with a word, or with one of some marks. -/
def Begins (marks : List Mark) (text : List Token) : Prop :=
  ∃ token rest, text = token :: rest ∧ ∀ m, token = .mark m → m ∈ marks

/-- What a text begins with does not depend on what follows it, since it is not empty. -/
theorem Begins.append {marks : List Mark} {text : List Token} (h : Begins marks text)
    (more : List Token) : Begins marks (text ++ more) := by
  obtain ⟨token, rest, rfl, hMark⟩ := h
  exact ⟨token, rest ++ more, rfl, hMark⟩

/-- A text may begin with more marks than it has to. -/
theorem Begins.mono {few many : List Mark} {text : List Token} (h : Begins few text)
    (hSub : few ⊆ many) : Begins many text := by
  obtain ⟨token, rest, rfl, hMark⟩ := h
  exact ⟨token, rest, rfl, fun m hm => hSub (hMark m hm)⟩

/-- A text does not start with a mark that is not among those it may begin with. This is how
the parser tells a first argument from an empty list. -/
theorem Begins.ne_cons {marks : List Mark} {text : List Token} (h : Begins marks text) {m : Mark}
    (hMark : m ∉ marks) (rest : List Token) : text ≠ .mark m :: rest := by
  obtain ⟨token, more, rfl, hMarks⟩ := h
  rintro hSame
  obtain ⟨rfl, _⟩ := List.cons.inj hSame
  exact hMark (hMarks m rfl)

/-- A primary starts with a number, a name or a parenthesis, and never with an operator. -/
theorem IsPrimary.begins {text : List Token} {e : Expression} (h : IsPrimary text e) :
    Begins [.opening] text := by
  cases h with
  | number x => exact ⟨_, _, rfl, nofun⟩
  | color v => exact ⟨_, _, rfl, nofun⟩
  | name x => exact ⟨_, _, rfl, nofun⟩
  | callNone f => exact ⟨_, _, rfl, nofun⟩
  | call f _ => exact ⟨_, _, rfl, nofun⟩
  | group _ => exact ⟨_, _, rfl, fun m hm => by cases hm; simp⟩

/-- A selection starts as the primary does that it is made from. -/
theorem IsPostfix.begins {text : List Token} {e : Expression} :
    IsPostfix text e → Begins [.opening] text
  | .primary h => h.begins
  | .select hBase _ => hBase.begins.append _

/-- Only here may a minus stand first. -/
theorem IsUnary.begins {text : List Token} {e : Expression} :
    IsUnary text e → Begins [.opening, .minus] text
  | .postfixed h => h.begins.mono (by simp)
  | .minusConst _ => ⟨_, _, rfl, fun m hm => by cases hm; simp⟩
  | .minus _ _ => ⟨_, _, rfl, fun m hm => by cases hm; simp⟩

/-- A product starts as its first factor does. -/
theorem IsProduct.begins {text : List Token} {e : Expression} :
    IsProduct text e → Begins [.opening, .minus] text
  | .unary h => h.begins
  | .join hLeft _ _ => hLeft.begins.append _

/-- A sum starts as its first term does. -/
theorem IsSum.begins {text : List Token} {e : Expression} :
    IsSum text e → Begins [.opening, .minus] text
  | .product h => h.begins
  | .join hLeft _ _ => hLeft.begins.append _

/-- A list that is not empty starts as its first item does. -/
theorem IsSums.begins {text : List Token} {items : List Expression} :
    IsSums text items → Begins [.opening, .minus] text
  | .last h => h.begins
  | .more hFirst _ => hFirst.begins.append _

/-! ### Where the tails stop -/

/-- Where no point follows, an expression takes no selection. -/
theorem postfixTail_stop (e : Expression) {rest : List Token} (h : Stops [.point] rest) :
    (postfixTail e rest).map Continued.pair = .ok (e, rest) := by
  unfold postfixTail
  split
  · exact absurd rfl (h .point (by simp))
  · exact absurd rfl (h .point (by simp))
  · rfl

/-- A point with the letters of a selection applies to all that was read before, and reading
goes on behind it. -/
theorem postfixTail_select {s : String} {components : List Component} (e : Expression)
    (rest : List Token) (h : selection? s = some components) :
    (postfixTail e (.mark .point :: .name s :: rest)).map Continued.pair =
      (postfixTail (swizzle e components) rest).map Continued.pair := by
  rw [postfixTail, h]
  dsimp only
  cases postfixTail (swizzle e components) rest <;> rfl

/-- The tail of a level leaves a text that does not go on with one of its marks. -/
theorem Level.tail_stop (l : Level) (e : Expression) {rest : List Token} (h : Stops l.marks rest) :
    (l.tail e rest).map Continued.pair = .ok (e, rest) := by
  cases rest with
  | nil => exact l.tail_nil e
  | cons token more =>
      have hNone := l.operator?_eq_none token fun m hm hSame => h m hm (congrArg some hSame)
      rw [l.tail_cons, hNone]

/-- A product ends where neither a multiplication nor a division follows. -/
theorem productTail_stop (e : Expression) {rest : List Token} (h : Stops [.times, .slash] rest) :
    (productTail e rest).map Continued.pair = .ok (e, rest) :=
  Level.products.tail_stop e h

/-- A sum ends where neither an addition nor a subtraction follows. -/
theorem sumTail_stop (e : Expression) {rest : List Token} (h : Stops [.plus, .minus] rest) :
    (sumTail e rest).map Continued.pair = .ok (e, rest) :=
  Level.sums.tail_stop e h

/-- A list of items ends where no comma follows. -/
theorem sumsTail_stop {rest : List Token} (h : Stops [.comma] rest) :
    (sumsTail rest).map Continued.pair = .ok ([], rest) := by
  unfold sumsTail
  split
  · exact absurd rfl (h .comma (by simp))
  · rfl

/-- Behind a comma at least one further item has to stand: a list does not end with a comma.
-/
theorem sumsTail_comma_pair (rest : List Token) :
    (sumsTail (.mark .comma :: rest)).map Continued.pair = (sums rest).map Parsed.pair := by
  rw [sumsTail, sums]
  cases sum rest with
  | error e => rfl
  | ok next =>
      dsimp only
      cases sumsTail next.rest <;> rfl

/-- The parser knows the marks of factors of the grammar. -/
theorem IsFactorMark.productOperator? {m : Mark} {op : Operator} (h : IsFactorMark m op) :
    productOperator? (.mark m) = some op := by
  cases h <;> rfl

/-- The parser knows the marks of terms of the grammar. -/
theorem IsTermMark.sumOperator? {m : Mark} {op : Operator} (h : IsTermMark m op) :
    sumOperator? (.mark m) = some op := by
  cases h <;> rfl

/-! ### What the grammar derives is read -/

namespace Level

variable (l : Level) {left right rest : List Token} {a b : Expression}

/-- After an operand the reader is where it would look for more of the level. -/
theorem read_operand (h : (l.operand (left ++ rest)).map Parsed.pair = .ok (a, rest)) :
    (l.chain (left ++ rest)).map Parsed.pair = (l.tail a rest).map Continued.pair := by
  rw [l.chain_pair, h]
  rfl

/-- So it is after an operator with its right operand, which it has joined to the left
one. -/
theorem read_join {m : Mark} {op : Operator} (hMark : l.operator? (.mark m) = some op)
    (hLeft : (l.chain (left ++ .mark m :: (right ++ rest))).map Parsed.pair =
      (l.tail a (.mark m :: (right ++ rest))).map Continued.pair)
    (hRight : (l.operand (right ++ rest)).map Parsed.pair = .ok (b, rest)) :
    (l.chain (left ++ .mark m :: right ++ rest)).map Parsed.pair =
      (l.tail (binary op a b) rest).map Continued.pair := by
  rw [List.append_assoc, List.cons_append, hLeft, l.tail_cons, hMark, hRight]
  rfl

end Level

/-- A name before a parenthesis is a call. Where the parenthesis is not closed at once, a
list of sums and a closing mark have to follow. -/
theorem primary_call_pair (f : String) {text : List Token}
    (h : ∀ rest, text ≠ .mark .closing :: rest) :
    (primary (.name f :: .mark .opening :: text)).map Parsed.pair =
      ((sums text).map Parsed.pair).bind fun p =>
        ((expect .closing p.2).map Parsed.pair).map fun q => (call f p.1, q.2) := by
  rw [primary]
  · cases sums text with
    | error e => rfl
    | ok args =>
        change _ = ((expect .closing args.rest).map Parsed.pair).map _
        dsimp only
        cases expect .closing args.rest <;> rfl
  · exact h

/-- A parenthesis around a sum leaves no trace in the tree. -/
theorem primary_group_pair (text : List Token) :
    (primary (.mark .opening :: text)).map Parsed.pair =
      ((sum text).map Parsed.pair).bind fun p =>
        ((expect .closing p.2).map Parsed.pair).map fun q => (p.1, q.2) := by
  rw [primary]
  cases sum text with
  | error e => rfl
  | ok inner =>
      change _ = ((expect .closing inner.rest).map Parsed.pair).map _
      dsimp only
      cases expect .closing inner.rest <;> rfl

/-- A name that is no call is a variable, whatever its letters. -/
theorem primary_name_pair (x : String) {rest : List Token} (h : Stops [.opening] rest) :
    (primary (.name x :: rest)).map Parsed.pair = .ok (var x, rest) := by
  rw [primary]
  · rfl
  · rintro more rfl
    exact h .opening (by simp) rfl
  · rintro more rfl
    exact h .opening (by simp) rfl

mutual

/-- The parser reads a primary of the grammar with its tree, and leaves what follows. The
induction is on the derivation, and the condition on what follows keeps a name from being
taken for a call. -/
theorem IsPrimary.read {text : List Token} {e : Expression} :
    IsPrimary text e → ∀ {rest : List Token}, Stops [.opening] rest →
      (primary (text ++ rest)).map Parsed.pair = .ok (e, rest)
  | .number x, rest, _ => by
      rw [List.singleton_append, primary]
      rfl
  | .color v, rest, _ => by
      rw [List.singleton_append, primary]
      rfl
  | .name x, rest, h => primary_name_pair x h
  | .callNone f, rest, _ => by
      rw [List.cons_append, List.cons_append, List.singleton_append, primary]
      rfl
  | @IsPrimary.call f text args hArgs, rest, _ => by
      have hText : text ++ [Token.mark .closing] ++ rest = text ++ .mark .closing :: rest := by
        simp
      have hStops : Stops [.opening, .point, .times, .slash, .plus, .minus, .comma]
          (.mark .closing :: rest) := by simp [Stops]
      have hRead := hArgs.read hStops
      have hBegins :=
        (hArgs.begins.append (.mark .closing :: rest)).ne_cons (m := .closing) (by simp)
      rw [List.cons_append, List.cons_append, hText, primary_call_pair f hBegins, hRead]
      dsimp only [Except.bind]
      rw [(expect_pair .closing _).mpr rfl]
      rfl
  | @IsPrimary.group text _ hInner, rest, _ => by
      have hText : text ++ [Token.mark .closing] ++ rest = text ++ .mark .closing :: rest := by
        simp
      have hStops : Stops [.opening, .point, .times, .slash] (.mark .closing :: rest) := by
        simp [Stops]
      have hRead := hInner.read hStops
      rw [List.cons_append, hText, primary_group_pair, hRead]
      rw [sumTail_stop e (by simp [Stops])]
      dsimp only [Except.bind]
      rw [(expect_pair .closing _).mpr rfl]
      rfl

/-- After a postfix expression the reader is where it would look for more of it. It goes on
from the whole postfix expression, so that selections apply to all that stands before them.
-/
theorem IsPostfix.read {text : List Token} {e : Expression} :
    IsPostfix text e → ∀ {rest : List Token}, Stops [.opening] rest →
      (selected (text ++ rest)).map Parsed.pair = (postfixTail e rest).map Continued.pair
  | .primary h, rest, hStops => by
      rw [selected_pair, h.read hStops]
      rfl
  | @IsPostfix.select text base _ _ hBase hSelection, rest, hStops => by
      rw [List.append_assoc, hBase.read (by simp [Stops])]
      exact postfixTail_select base rest (selection?_eq_some_iff.mpr hSelection)

/-- A unary expression is read with its tree where no selection can follow. -/
theorem IsUnary.read {text : List Token} {e : Expression} :
    IsUnary text e → ∀ {rest : List Token}, Stops [.opening, .point] rest →
      (unary (text ++ rest)).map Parsed.pair = .ok (e, rest)
  | .postfixed h, rest, hStops => by
      have hBegins := (h.begins.append rest).ne_cons (m := .minus) (by simp)
      rw [unary_pair hBegins, h.read (hStops.mono (by simp))]
      exact postfixTail_stop e (hStops.mono (by simp))
  | .minusConst h, rest, hStops => by
      rw [List.cons_append, unary_minus_pair, h.read hStops]
      rfl
  | .minus (e := inner) h hOpen, rest, hStops => by
      have hNeg : negated inner = neg inner := by
        cases inner with
        | const v => exact absurd rfl (hOpen v)
        | _ => rfl
      rw [List.cons_append, unary_minus_pair, h.read hStops, ← hNeg]
      rfl

/-- Reading a product comes to reading what follows with the product as its left operand.
This is the form that the left-associative levels need, where the derivation ends with the
last operator. -/
theorem IsProduct.read {text : List Token} {e : Expression} :
    IsProduct text e → ∀ {rest : List Token}, Stops [.opening, .point] rest →
      (product (text ++ rest)).map Parsed.pair = (productTail e rest).map Continued.pair
  | .unary h, rest, hStops => Level.products.read_operand (h.read hStops)
  | @IsProduct.join _ right _ _ _ _ hLeft hMark hRight, rest, hStops => by
      have hNext : ∀ {m : Mark} {op : Operator}, IsFactorMark m op →
          Stops [.opening, .point] (.mark m :: (right ++ rest)) := by
        intro m op h
        cases h <;> simp [Stops]
      exact Level.products.read_join hMark.productOperator? (hLeft.read (hNext hMark))
        (hRight.read hStops)

/-- Reading a sum comes to reading what follows with the sum as its left operand, where no
factor can follow the last term. -/
theorem IsSum.read {text : List Token} {e : Expression} :
    IsSum text e → ∀ {rest : List Token}, Stops [.opening, .point, .times, .slash] rest →
      (sum (text ++ rest)).map Parsed.pair = (sumTail e rest).map Continued.pair
  | .product h, rest, hStops => Level.sums.read_operand <|
      (h.read (hStops.mono (by simp))).trans (productTail_stop e (hStops.mono (by simp)))
  | @IsSum.join _ right _ b _ _ hLeft hMark hRight, rest, hStops => by
      have hNext : ∀ {m : Mark} {op : Operator}, IsTermMark m op →
          Stops [.opening, .point, .times, .slash] (.mark m :: (right ++ rest)) := by
        intro m op h
        cases h <;> simp [Stops]
      refine Level.sums.read_join hMark.sumOperator? (hLeft.read (hNext hMark)) ?_
      exact (hRight.read (hStops.mono (by simp))).trans
        (productTail_stop b (hStops.mono (by simp)))

/-- A list of sums is read with all of its trees, in their order, where nothing that follows
could continue the last of them. -/
theorem IsSums.read {text : List Token} {items : List Expression} :
    IsSums text items → ∀ {rest : List Token},
      Stops [.opening, .point, .times, .slash, .plus, .minus, .comma] rest →
      (sums (text ++ rest)).map Parsed.pair = .ok (items, rest)
  | .last (e := e) h, rest, hStops => by
      rw [sums_pair, h.read (hStops.mono (by simp)), sumTail_stop e (hStops.mono (by simp))]
      dsimp only [Except.bind]
      rw [sumsTail_stop (hStops.mono (by simp))]
      rfl
  | @IsSums.more _ _ e _ hFirst hRest, rest, hStops => by
      rw [List.append_assoc, List.cons_append, sums_pair, hFirst.read (by simp [Stops]),
        sumTail_stop e (by simp [Stops])]
      dsimp only [Except.bind]
      rw [sumsTail_comma_pair, hRest.read hStops]
      rfl

end

/-! ### What is read has a derivation -/

/-- A text whose start, up to what is left, has some property. -/
def Consumes (text rest : List Token) (P : List Token → Prop) : Prop :=
  ∃ used, text = used ++ rest ∧ P used

/-- What the parser takes for selections extends whatever derivation there was of their
base. -/
theorem postfixTail_consumes {base e : Expression} {text rest : List Token}
    (h : (postfixTail base text).map Continued.pair = .ok (e, rest)) :
    Consumes text rest fun used =>
      ∀ {before}, IsPostfix before base → IsPostfix (before ++ used) e := by
  fun_induction postfixTail base text with
  | case1 => cases h
  | case2 => cases h
  | case3 base s more components hSelection c hTail ih =>
      rw [hTail] at ih
      obtain ⟨used, hText, hDerives⟩ := ih h
      refine ⟨.mark .point :: .name s :: used, by rw [hText]; rfl, fun {before} hBase => ?_⟩
      have hMore := hDerives (.select hBase (selection?_eq_some_iff.mp hSelection))
      simpa using hMore
  | case4 => cases h
  | case5 base text =>
      cases h
      exact ⟨[], rfl, fun hBase => by simpa using hBase⟩

/-- The operators of products are marks of factors of the grammar. -/
theorem exists_factorMark {token : Token} {op : Operator} (h : productOperator? token = some op) :
    ∃ m, token = .mark m ∧ IsFactorMark m op := by
  unfold productOperator? at h
  split at h
  · cases h
    exact ⟨_, rfl, .times⟩
  · cases h
    exact ⟨_, rfl, .slash⟩
  · cases h

/-- The operators of sums are marks of terms of the grammar. -/
theorem exists_termMark {token : Token} {op : Operator} (h : sumOperator? token = some op) :
    ∃ m, token = .mark m ∧ IsTermMark m op := by
  unfold sumOperator? at h
  split at h
  · cases h
    exact ⟨_, rfl, .plus⟩
  · cases h
    exact ⟨_, rfl, .minus⟩
  · cases h

namespace Level

variable (l : Level)

/-- What a level consists of is told of the operands, for texts up to a length, and of an
operator between what is to its left and an operand. -/
structure Derives (size : Nat) (IsOperand IsChain : List Token → Expression → Prop) : Prop where
  operand {text rest : List Token} {e : Expression} (hSize : text.length ≤ size)
    (h : (l.operand text).map Parsed.pair = .ok (e, rest)) : Consumes text rest (IsOperand · e)
  first {text : List Token} {e : Expression} (h : IsOperand text e) : IsChain text e
  join {left right : List Token} {a b : Expression} {token : Token} {op : Operator}
    (hOperator : l.operator? token = some op) (hLeft : IsChain left a)
    (hRight : IsOperand right b) : IsChain (left ++ token :: right) (binary op a b)

variable {l} {size : Nat} {IsOperand IsChain : List Token → Expression → Prop}
  (h : l.Derives size IsOperand IsChain)

include h

/-- What the tail of a level consumes completes what is derived to its left. -/
theorem Derives.tail_consumes {left e : Expression} {text rest : List Token}
    (hSize : text.length ≤ size) (hTail : (l.tail left text).map Continued.pair = .ok (e, rest)) :
    Consumes text rest fun used => ∀ {before}, IsChain before left → IsChain (before ++ used) e := by
  match text with
  | [] =>
      rw [l.tail_nil] at hTail
      cases hTail
      exact ⟨[], rfl, fun hLeft => by simpa using hLeft⟩
  | token :: more =>
      rw [l.tail_cons] at hTail
      cases hOperator : l.operator? token with
      | none =>
          rw [hOperator] at hTail
          cases hTail
          exact ⟨[], rfl, fun hLeft => by simpa using hLeft⟩
      | some op =>
          rw [hOperator] at hTail
          obtain ⟨⟨right, last⟩, hRight, hRest⟩ := bind_eq_ok.mp hTail
          have hShorter := length_of_pair hRight
          rw [List.length_cons] at hSize
          obtain ⟨start, hStart, hOperand⟩ := h.operand (by omega) hRight
          obtain ⟨used, rfl, hDerives⟩ := tail_consumes (by dsimp only; omega) hRest
          refine ⟨token :: (start ++ used), by rw [hStart]; simp, fun hLeft => ?_⟩
          simpa using hDerives (h.join hOperator hLeft hOperand)
termination_by text.length

/-- What the parser reads at a left-associative level is a chain of the grammar. This is the
one lemma for products and sums. -/
theorem Derives.chain_consumes {e : Expression} {text rest : List Token}
    (hSize : text.length ≤ size) (hChain : (l.chain text).map Parsed.pair = .ok (e, rest)) :
    Consumes text rest (IsChain · e) := by
  rw [l.chain_pair] at hChain
  obtain ⟨⟨first, more⟩, hFirst, hTail⟩ := bind_eq_ok.mp hChain
  have hShorter := length_of_pair hFirst
  obtain ⟨start, hStart, hOperand⟩ := h.operand hSize hFirst
  obtain ⟨used, rfl, hDerives⟩ := h.tail_consumes (by dsimp only; omega) hTail
  exact ⟨start ++ used, by rw [hStart, List.append_assoc], hDerives (h.first hOperand)⟩

end Level

/-- A minus before what the grammar derives derives its negation, the one of a literal
included. -/
theorem IsUnary.negated {text : List Token} {e : Expression} (h : IsUnary text e) :
    IsUnary (.mark .minus :: text) (negated e) := by
  cases e with
  | const v => exact .minusConst h
  | _ => exact .minus h nofun

mutual

/-- The tokens that the parser takes for a primary are a primary of the grammar, and what it
leaves is the rest of the text. -/
theorem primary_consumes {text rest : List Token} {e : Expression}
    (h : (primary text).map Parsed.pair = .ok (e, rest)) :
    Consumes text rest (IsPrimary · e) := by
  unfold primary at h
  split at h
  · cases h
  · cases h
    exact ⟨[_], rfl, .number _⟩
  · cases h
    exact ⟨[_], rfl, .color _⟩
  · cases h
    exact ⟨[_, _, _], rfl, .callNone _⟩
  · rename_i f inner hNotEmpty
    have hCall : ((sums inner).map Parsed.pair).bind (fun p =>
        ((expect .closing p.2).map Parsed.pair).map fun q => (Expression.call f p.1, q.2)) =
        .ok (e, rest) := by
      rw [← primary_call_pair f hNotEmpty, primary]
      · exact h
      · exact hNotEmpty
    obtain ⟨⟨args, closed⟩, hSums, hClosed⟩ := bind_eq_ok.mp hCall
    obtain ⟨⟨⟨⟩, more⟩, hExpect, hSame⟩ := map_eq_ok.mp hClosed
    cases hSame
    obtain ⟨used, rfl, hArgs⟩ := sums_consumes hSums
    obtain rfl := (expect_pair _ _).mp hExpect
    exact ⟨.name f :: .mark .opening :: (used ++ [Token.mark .closing]), by simp, .call f hArgs⟩
  · cases h
    exact ⟨[_], rfl, .name _⟩
  · rename_i inner
    have hGroup : ((sum inner).map Parsed.pair).bind (fun p =>
        ((expect .closing p.2).map Parsed.pair).map fun q => (p.1, q.2)) = .ok (e, rest) := by
      rw [← primary_group_pair, primary]
      exact h
    obtain ⟨⟨found, closed⟩, hSum, hClosed⟩ := bind_eq_ok.mp hGroup
    obtain ⟨⟨⟨⟩, more⟩, hExpect, hSame⟩ := map_eq_ok.mp hClosed
    cases hSame
    obtain ⟨used, rfl, hInner⟩ := sum_consumes hSum
    obtain rfl := (expect_pair _ _).mp hExpect
    exact ⟨.mark .opening :: (used ++ [Token.mark .closing]), by simp, .group hInner⟩
  · cases h
termination_by (text.length, 0)
decreasing_by all_goals exact Prod.Lex.left _ _ (by subst_vars; simp only [List.length_cons]; omega)

/-- What the parser takes for a primary with selections is one of the grammar. -/
theorem selected_consumes {text rest : List Token} {e : Expression}
    (h : (selected text).map Parsed.pair = .ok (e, rest)) :
    Consumes text rest (IsPostfix · e) := by
  rw [selected_pair] at h
  obtain ⟨⟨base, more⟩, hBase, hTail⟩ := bind_eq_ok.mp h
  obtain ⟨first, rfl, hPrimary⟩ := primary_consumes hBase
  obtain ⟨used, rfl, hDerives⟩ := postfixTail_consumes hTail
  exact ⟨first ++ used, by simp, hDerives (.primary hPrimary)⟩
termination_by (text.length, 1)
decreasing_by exact Prod.Lex.right _ (by decide)

/-- What the parser takes for a unary expression is one of the grammar. -/
theorem unary_consumes {text rest : List Token} {e : Expression}
    (h : (unary text).map Parsed.pair = .ok (e, rest)) : Consumes text rest (IsUnary · e) := by
  by_cases hMinus : ∃ more, text = .mark .minus :: more
  · obtain ⟨more, rfl⟩ := hMinus
    rw [unary_minus_pair] at h
    obtain ⟨⟨inner, left⟩, hInner, hSame⟩ := map_eq_ok.mp h
    cases hSame
    obtain ⟨used, rfl, hUnary⟩ := unary_consumes hInner
    exact ⟨.mark .minus :: used, rfl, hUnary.negated⟩
  · rw [unary_pair fun more hMore => hMinus ⟨more, hMore⟩] at h
    obtain ⟨used, rfl, hPostfix⟩ := selected_consumes h
    exact ⟨used, rfl, .postfixed hPostfix⟩
termination_by (text.length, 2)
decreasing_by
  · exact Prod.Lex.left _ _ (by subst_vars; exact Nat.lt_succ_self _)
  · exact Prod.Lex.right _ (by decide)

/-- What the parser takes for a product is one of the grammar. -/
theorem product_consumes {text rest : List Token} {e : Expression}
    (h : (product text).map Parsed.pair = .ok (e, rest)) : Consumes text rest (IsProduct · e) := by
  have hDerives : Level.products.Derives text.length IsUnary IsProduct :=
    { operand := fun hSize hRead => unary_consumes hRead
      first := .unary
      join := fun hOperator hLeft hRight => by
        obtain ⟨mark, rfl, hMark⟩ := exists_factorMark hOperator
        exact .join hLeft hMark hRight }
  exact hDerives.chain_consumes (Nat.le_refl _) h
termination_by (text.length, 3)
decreasing_by exact Prod.lex_def.mpr (by omega)

/-- What the parser takes for a sum is one of the grammar. -/
theorem sum_consumes {text rest : List Token} {e : Expression}
    (h : (sum text).map Parsed.pair = .ok (e, rest)) : Consumes text rest (IsSum · e) := by
  have hDerives : Level.sums.Derives text.length IsProduct IsSum :=
    { operand := fun hSize hRead => product_consumes hRead
      first := .product
      join := fun hOperator hLeft hRight => by
        obtain ⟨mark, rfl, hMark⟩ := exists_termMark hOperator
        exact .join hLeft hMark hRight }
  exact hDerives.chain_consumes (Nat.le_refl _) h
termination_by (text.length, 4)
decreasing_by exact Prod.lex_def.mpr (by omega)

/-- What the parser takes for a list of items is one of the grammar. -/
theorem sums_consumes {text rest : List Token} {items : List Expression}
    (h : (sums text).map Parsed.pair = .ok (items, rest)) :
    Consumes text rest (IsSums · items) := by
  rw [sums_pair] at h
  obtain ⟨⟨first, more⟩, hFirst, hTail⟩ := bind_eq_ok.mp h
  obtain ⟨⟨others, last⟩, hOthers, hSame⟩ := map_eq_ok.mp hTail
  cases hSame
  have hShorter := length_of_pair hFirst
  obtain ⟨start, hStart, hSum⟩ := sum_consumes hFirst
  by_cases hComma : ∃ tail, more = .mark .comma :: tail
  · obtain ⟨tail, rfl⟩ := hComma
    rw [sumsTail_comma_pair] at hOthers
    obtain ⟨used, hUsed, hRest⟩ := sums_consumes hOthers
    exact ⟨start ++ .mark .comma :: used, by rw [hStart, hUsed]; simp, .more hSum hRest⟩
  · rw [sumsTail_stop] at hOthers
    · cases hOthers
      exact ⟨start, hStart, .last hSum⟩
    · intro m hm hHead
      obtain rfl := List.mem_singleton.mp hm
      exact hComma (List.head?_eq_some_iff.mp hHead)
termination_by (text.length, 5)
decreasing_by
  · exact Prod.Lex.right _ (by decide)
  · exact Prod.Lex.left _ _ (Nat.lt_of_succ_lt hShorter)

end

/-- The grammar has no empty list of items. -/
theorem IsSums.length_pos {text : List Token} {items : List Expression} :
    IsSums text items → 0 < items.length
  | .last _ => Nat.one_pos
  | .more _ _ => Nat.succ_pos _

/-- Sums are read up to the end of a text exactly where the grammar derives it. -/
theorem sums_pair_eq_ok_iff {text : List Token} {items : List Expression} :
    (sums text).map Parsed.pair = .ok (items, []) ↔ IsSums text items := by
  constructor
  · intro h
    obtain ⟨used, hText, hSums⟩ := sums_consumes h
    rw [List.append_nil] at hText
    exact hText ▸ hSums
  · intro h
    have hEnd : Stops [.opening, .point, .times, .slash, .plus, .minus, .comma] [] :=
      fun _ _ => nofun
    have hRead := h.read hEnd
    rwa [List.append_nil] at hRead

/-! ### Lists -/

/-- An item counts as a number if it is a literal or a folded scalar, with the sign that was
folded into it. -/
theorem scalar?_eq_some_iff {e : Expression} {x : Float32} :
    scalar? e = some x ↔ IsScalar e x := by
  constructor
  · intro h
    unfold scalar? at h
    split at h
    · split at h
      · rename_i hType
        cases h
        exact .const hType
      · cases h
    · cases h
  · rintro ⟨hType⟩
    rw [scalar?, if_pos hType]

/-- A vector has two to four components. -/
theorem exists_isVector_iff {n : Nat} : (∃ f, IsVector n f) ↔ 2 ≤ n ∧ n ≤ 4 := by
  constructor
  · rintro ⟨f, hVector⟩
    cases hVector <;> omega
  · rintro ⟨hMany, hFew⟩
    obtain rfl | rfl | rfl : n = 2 ∨ n = 3 ∨ n = 4 := by omega
    · exact ⟨_, .two⟩
    · exact ⟨_, .three⟩
    · exact ⟨_, .four⟩

/-- One to four numbers are a value, and no others are. -/
theorem exists_ofList?_iff {numbers : List Float32} :
    (∃ v, Value.ofList? numbers = some v) ↔ 1 ≤ numbers.length ∧ numbers.length ≤ 4 := by
  unfold Value.ofList?
  split
  · simp
  · simp
  · simp
  · simp
  · rename_i hOne hTwo hThree hFour
    simp only [reduceCtorEq, exists_false, false_iff, not_and, not_le]
    intro hSome
    rcases numbers with _ | ⟨a, _ | ⟨b, _ | ⟨c, _ | ⟨d, _ | ⟨e, rest⟩⟩⟩⟩⟩
    · simp at hSome
    · exact absurd rfl (hOne a)
    · exact absurd rfl (hTwo a b)
    · exact absurd rfl (hThree a b c)
    · exact absurd rfl (hFour a b c d)
    · simp

/-- The call that makes a vector of some items, as far as there is one. There is one for two
to four items only, and more are an error. -/
theorem vectorCall_eq_ok_iff {items : List Expression} {e : Expression} :
    (match items.length with
      | 2 => .ok (call "vec2" items)
      | 3 => .ok (call "vec3" items)
      | 4 => .ok (call "vec4" items)
      | n => .error (.listLength n) : Except ParseError Expression) = .ok e ↔
      ∃ f, IsVector items.length f ∧ e = call f items := by
  generalize items.length = n
  constructor
  · intro h
    split at h
    · cases h
      exact ⟨_, .two, rfl⟩
    · cases h
      exact ⟨_, .three, rfl⟩
    · cases h
      exact ⟨_, .four, rfl⟩
    · cases h
  · rintro ⟨f, hVector, rfl⟩
    cases hVector <;> rfl

/-- Several items are one literal vector if all are scalars and at most four, and a list
otherwise. -/
theorem ofItems_of_many {items : List Expression} (hMany : 2 ≤ items.length) :
    ofItems items =
      match (items.mapM scalar?).bind Value.ofList? with
      | some v => .ok (const v)
      | none =>
        match items.length with
        | 2 => .ok (call "vec2" items)
        | 3 => .ok (call "vec3" items)
        | 4 => .ok (call "vec4" items)
        | n => .error (.listLength n) := by
  match items, hMany with
  | _ :: _ :: _, _ => rfl

/-- Scalar constants make one constant, as many as fit. -/
theorem ofItems_of_scalars {items : List Expression} {numbers : List Float32}
    (hMany : 2 ≤ items.length) (hItems : List.Forall₂ IsScalar items numbers) {e : Expression} :
    ofItems items = .ok e ↔ ∃ v, Value.ofList? numbers = some v ∧ e = const v := by
  have hNumbers : items.mapM scalar? = some numbers :=
    mapM_eq_some_iff.mpr (hItems.imp fun _ _ => scalar?_eq_some_iff.mpr)
  rw [ofItems_of_many hMany, hNumbers, Option.bind_some]
  cases hValue : Value.ofList? numbers with
  | some v => simp [eq_comm]
  | none =>
      have hLength : 4 < items.length := by
        by_contra hFew
        obtain ⟨v, hSome⟩ := exists_ofList?_iff.mpr
          ⟨by rw [← hItems.length_eq]; omega, by rw [← hItems.length_eq]; omega⟩
        rw [hValue] at hSome
        cases hSome
      dsimp only
      rw [vectorCall_eq_ok_iff]
      refine iff_of_false ?_ nofun
      rintro ⟨f, hVector, _⟩
      have hFew := (exists_isVector_iff.mp ⟨f, hVector⟩).2
      omega

/-- Items that are not all scalar constants are arguments of a vector. -/
theorem ofItems_of_open {items : List Expression} (hMany : 2 ≤ items.length)
    (hOpen : ∃ item ∈ items, ∀ x, ¬IsScalar item x) {e : Expression} :
    ofItems items = .ok e ↔ ∃ f, IsVector items.length f ∧ e = call f items := by
  have hNone : items.mapM scalar? = none := by
    rw [Option.eq_none_iff_forall_ne_some]
    intro numbers hNumbers
    obtain ⟨item, hMember, hNot⟩ := hOpen
    have hAll := mapM_eq_some_iff.mp hNumbers
    obtain ⟨i, hi, rfl⟩ := List.getElem_of_mem hMember
    exact hNot _ (scalar?_eq_some_iff.mp (hAll.get hi (hAll.length_eq ▸ hi)))
  rw [ofItems_of_many hMany, hNone, Option.bind_none]
  exact vectorCall_eq_ok_iff

/-- Either all items are scalars or one of them is not. Folding a list depends on nothing
else. -/
theorem exists_scalars_or_open (items : List Expression) :
    (∃ numbers, List.Forall₂ IsScalar items numbers) ∨ ∃ item ∈ items, ∀ x, ¬IsScalar item x := by
  induction items with
  | nil => exact .inl ⟨[], .nil⟩
  | cons e rest ih =>
      by_cases hScalar : ∃ x, IsScalar e x
      · obtain ⟨x, hFirst⟩ := hScalar
        rcases ih with ⟨numbers, hRest⟩ | ⟨item, hMember, hNot⟩
        · exact .inl ⟨x :: numbers, .cons hFirst hRest⟩
        · exact .inr ⟨item, List.mem_cons_of_mem e hMember, hNot⟩
      · exact .inr ⟨e, List.mem_cons_self, fun x hFirst => hScalar ⟨x, hFirst⟩⟩

/-- A whole text stands for what its items amount to. -/
theorem isList_iff {text : List Token} {e : Expression} :
    IsList text e ↔ ∃ items, IsSums text items ∧ ofItems items = .ok e := by
  constructor
  · intro h
    cases h with
    | single hSum => exact ⟨_, .last hSum, rfl⟩
    | constant hSums hMany hItems hValue =>
        exact ⟨_, hSums, (ofItems_of_scalars hMany hItems).mpr ⟨_, hValue, rfl⟩⟩
    | vector hSums hName hOpen =>
        exact ⟨_, hSums, (ofItems_of_open (exists_isVector_iff.mp ⟨_, hName⟩).1 hOpen).mpr
          ⟨_, hName, rfl⟩⟩
  · rintro ⟨items, hSums, hItems⟩
    by_cases hMany : 2 ≤ items.length
    · rcases exists_scalars_or_open items with ⟨numbers, hScalars⟩ | hOpen
      · obtain ⟨v, hValue, rfl⟩ := (ofItems_of_scalars hMany hScalars).mp hItems
        exact .constant hSums hMany hScalars hValue
      · obtain ⟨f, hName, rfl⟩ := (ofItems_of_open hMany hOpen).mp hItems
        exact .vector hSums hName hOpen
    · cases hSums with
      | last hSum =>
          cases hItems
          exact .single hSum
      | more hFirst hRest =>
          have hSome : 0 < _ := hRest.length_pos
          exact absurd (Nat.succ_le_succ hSome) hMany

/-- A text is read exactly as the grammar derives it, to its last token. -/
theorem ofTokens_eq_ok_iff {text : List Token} {e : Expression} :
    ofTokens text = .ok e ↔ IsList text e := by
  rw [isList_iff]
  simp only [← sums_pair_eq_ok_iff]
  unfold ofTokens
  cases sums text with
  | error d => simp [Except.map]
  | ok items =>
      obtain ⟨value, rest, _⟩ := items
      cases hItems : ofItems value with
      | error d => simp_all [Except.map, Parsed.pair]
      | ok found => cases rest <;> simp_all [Except.map, Parsed.pair]

/-- Parsing a text with tokens is parsing the tokens. -/
theorem parse_of_tokenize {source : String} {text : List Token}
    (h : tokenize source = .ok text) : parse source = ofTokens text := by
  rw [parse, h]

/-- A text whose tokens are derived is parsed to the tree of the derivation. -/
theorem IsList.parse_eq_ok {source : String} {text : List Token} {e : Expression}
    (h : IsList text e) (hTokens : tokenize source = .ok text) : parse source = .ok e :=
  (parse_of_tokenize hTokens).trans (ofTokens_eq_ok_iff.mpr h)

/-- What is accepted is derived by the grammar, with the tree that was returned. -/
theorem isList_of_parse {source : String} {text : List Token} {e : Expression}
    (h : parse source = .ok e) (hTokens : tokenize source = .ok text) : IsList text e :=
  ofTokens_eq_ok_iff.mp ((parse_of_tokenize hTokens).symm.trans h)

/-- A text has one tree at most. -/
theorem IsList.unique {text : List Token} {a b : Expression} (hFirst : IsList text a)
    (hSecond : IsList text b) : a = b :=
  Except.ok.inj ((ofTokens_eq_ok_iff.mpr hFirst).symm.trans (ofTokens_eq_ok_iff.mpr hSecond))

/-- The parser accepts what its grammar derives, and nothing else, with the tree of the
derivation. The tokens may be any, and the nesting may be of any depth. The grammar is
stated without the parser, level by level, and folds negative literals and constant lists as
it derives them. It leaves no choice of the tree. -/
theorem parse_eq_ok_iff_isList {source : String} {text : List Token}
    (h : tokenize source = .ok text) (e : Expression) :
    parse source = .ok e ↔ IsList text e := by
  rw [parse, h]
  exact ofTokens_eq_ok_iff

/-- Differences associate to the left, a minus becomes part of a constant, and a
selection belongs to the variable before it. -/
theorem parse_eq_ok_iff_isList_difference :
    tokenize "p.xy - -2 - q" = .ok [.name "p", .mark .point, .name "xy", .mark .minus,
        .mark .minus, .number 2.0, .mark .minus, .name "q"] ∧
      parse "p.xy - -2 - q" = .ok (binary .sub (binary .sub (swizzle (var "p") [.x, .y])
        (const (Value.float1 2.0 |>.map (-·)))) (var "q")) := by
  have hTokens : tokenize "p.xy - -2 - q" = .ok [.name "p", .mark .point, .name "xy",
      .mark .minus, .mark .minus, .number 2.0, .mark .minus, .name "q"] := by decide +kernel
  refine ⟨hTokens, (parse_eq_ok_iff_isList hTokens _).mpr (.single ?_)⟩
  have hSelection : IsSelection "xy" [.x, .y] :=
    ⟨.cons (by decide) (.cons (by decide) .nil), by decide, by decide⟩
  have hFirst : IsSum [.name "p", .mark .point, .name "xy"] (swizzle (var "p") [.x, .y]) :=
    .product (.unary (.postfixed (.select (.primary (.name "p")) hSelection)))
  have hSecond : IsProduct [.mark .minus, .number 2.0] (const (Value.float1 2.0 |>.map (-·))) :=
    .unary (.minusConst (.postfixed (.primary (.number 2.0))))
  have hThird : IsProduct [.name "q"] (var "q") :=
    .unary (.postfixed (.primary (.name "q")))
  exact .join (.join hFirst .minus hSecond) .minus hThird

end Expression

end PathTracer
