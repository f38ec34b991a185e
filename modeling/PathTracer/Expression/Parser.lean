import PathTracer.Expression.Basic
import PathTracer.Expression.Token

/-! Reading expressions by recursive descent, one function for each level of
precedence. Every function returns the tokens that it left, with a proof that
there are fewer of them. -/
namespace PathTracer.Expression

/-- The components that the letters of a text select, one to four of them. -/
def selection? (text : String) : Option (List Component) :=
  if text.isEmpty || 4 < text.utf8ByteSize then none
  else text.toList.mapM Component.ofLetter?

def sumOperator? : Token → Option Operator
  | .mark .plus => some .add
  | .mark .minus => some .sub
  | _ => none

def productOperator? : Token → Option Operator
  | .mark .times => some .mul
  | .mark .slash => some .div
  | _ => none

/-- The opposite of an expression. That of a constant is a constant. -/
def negated : Expression → Expression
  | const v => const (v.map (-·))
  | e => neg e

/-- Component selections that follow an expression. -/
def postfixTail (base : Expression) :
    (text : List Token) → Except ParseError (Continued Expression text)
  | .mark .point :: .name s :: rest =>
    match selection? s with
    | none => .error (.invalidSelection s)
    | some components =>
      match postfixTail (swizzle base components) rest with
      | .error e => .error e
      | .ok c => .ok ⟨c.value, c.rest, by have := c.notLonger; simp; omega⟩
  | .mark .point :: _ => .error .selectionExpected
  | text => .ok ⟨base, text, Nat.le_refl _⟩

/-- The text after a mark that has to be there. -/
def expect (mark : Mark) : (text : List Token) → Except ParseError (Parsed Unit text)
  | token :: rest =>
    if token = .mark mark then .ok ⟨(), rest, Nat.lt_succ_self _⟩ else .error (.expected mark)
  | [] => .error (.expected mark)

mutual

/-- A number, a color, a variable, a call, or a sum in parentheses. -/
def primary (text : List Token) : Except ParseError (Parsed Expression text) :=
  match text with
  | [] => .error .unexpectedEnd
  | .number x :: rest => .ok ⟨const (.float1 x), rest, Nat.lt_succ_self _⟩
  | .color v :: rest => .ok ⟨const v, rest, Nat.lt_succ_self _⟩
  | .name f :: .mark .opening :: .mark .closing :: rest =>
    .ok ⟨call f [], rest, by simp; omega⟩
  | .name f :: .mark .opening :: rest =>
    match sums rest with
    | .error e => .error e
    | .ok args =>
      match expect .closing args.rest with
      | .error e => .error e
      | .ok closed => .ok ⟨call f args.value, closed.rest, by
          have := args.shorter; have := closed.shorter; simp; omega⟩
  | .name x :: rest => .ok ⟨var x, rest, Nat.lt_succ_self _⟩
  | .mark .opening :: rest =>
    match sum rest with
    | .error e => .error e
    | .ok inner =>
      match expect .closing inner.rest with
      | .error e => .error e
      | .ok closed => .ok ⟨inner.value, closed.rest, by
          have := inner.shorter; have := closed.shorter; simp; omega⟩
  | .mark m :: _ => .error (.unexpectedToken (.mark m))
termination_by (text.length, 0)

/-- A primary expression with the selections after it. -/
def selected (text : List Token) : Except ParseError (Parsed Expression text) :=
  match primary text with
  | .error e => .error e
  | .ok base =>
    match postfixTail base.value base.rest with
    | .error e => .error e
    | .ok c => .ok (base.continue c)
termination_by (text.length, 1)

/-- Any number of minus signs before a postfix expression. -/
def unary (text : List Token) : Except ParseError (Parsed Expression text) :=
  match text with
  | .mark .minus :: rest =>
    match unary rest with
    | .error e => .error e
    | .ok p => .ok ⟨negated p.value, p.rest, Nat.lt_succ_of_lt p.shorter⟩
  | text => selected text
termination_by (text.length, 2)

def product (text : List Token) : Except ParseError (Parsed Expression text) :=
  match unary text with
  | .error e => .error e
  | .ok first =>
    have := first.shorter
    match productTail first.value first.rest with
    | .error e => .error e
    | .ok c => .ok (first.continue c)
termination_by (text.length, 3)

/-- Further factors, joined from the left. -/
def productTail (left : Expression) (text : List Token) :
    Except ParseError (Continued Expression text) :=
  match text with
  | [] => .ok ⟨left, [], Nat.le_refl _⟩
  | token :: rest =>
    match productOperator? token with
    | none => .ok ⟨left, token :: rest, Nat.le_refl _⟩
    | some op =>
      match unary rest with
      | .error e => .error e
      | .ok right =>
        have := right.shorter
        match productTail (binary op left right.value) right.rest with
        | .error e => .error e
        | .ok c => .ok (right.complete (Nat.le_succ _) c)
termination_by (text.length, 0)

def sum (text : List Token) : Except ParseError (Parsed Expression text) :=
  match product text with
  | .error e => .error e
  | .ok first =>
    have := first.shorter
    match sumTail first.value first.rest with
    | .error e => .error e
    | .ok c => .ok (first.continue c)
termination_by (text.length, 4)

/-- Further terms, joined from the left. -/
def sumTail (left : Expression) (text : List Token) :
    Except ParseError (Continued Expression text) :=
  match text with
  | [] => .ok ⟨left, [], Nat.le_refl _⟩
  | token :: rest =>
    match sumOperator? token with
    | none => .ok ⟨left, token :: rest, Nat.le_refl _⟩
    | some op =>
      match product rest with
      | .error e => .error e
      | .ok right =>
        have := right.shorter
        match sumTail (binary op left right.value) right.rest with
        | .error e => .error e
        | .ok c => .ok (right.complete (Nat.le_succ _) c)
termination_by (text.length, 0)

/-- Sums with commas between them, at least one. -/
def sums (text : List Token) : Except ParseError (Parsed (List Expression) text) :=
  match sum text with
  | .error e => .error e
  | .ok first =>
    have := first.shorter
    match sumsTail first.rest with
    | .error e => .error e
    | .ok c => .ok ⟨first.value :: c.value, c.rest, by have := c.notLonger; omega⟩
termination_by (text.length, 5)

/-- Further sums, each after a comma. -/
def sumsTail (text : List Token) : Except ParseError (Continued (List Expression) text) :=
  match text with
  | .mark .comma :: rest =>
    match sum rest with
    | .error e => .error e
    | .ok next =>
      have := next.shorter
      match sumsTail next.rest with
      | .error e => .error e
      | .ok c => .ok ⟨next.value :: c.value, c.rest, by have := c.notLonger; simp; omega⟩
  | text => .ok ⟨[], text, Nat.le_refl _⟩
termination_by (text.length, 0)

end

/-- The number that an item of a list consists of, if it is a scalar constant. -/
def scalar? : Expression → Option Float32
  | const v => if v.type = .float1 then some v.x else none
  | _ => none

/-- The expression of a list. Up to four scalar constants are one constant,
and other lists are calls of the constructor with that many components. -/
def ofItems : List Expression → Except ParseError Expression
  | [e] => .ok e
  | items =>
    match (items.mapM scalar?).bind Value.ofList? with
    | some v => .ok (const v)
    | none =>
      match items.length with
      | 2 => .ok (call "vec2" items)
      | 3 => .ok (call "vec3" items)
      | 4 => .ok (call "vec4" items)
      | n => .error (.listLength n)

/-- The expression that a list of tokens writes, all of them used. -/
def ofTokens (text : List Token) : Except ParseError Expression :=
  match sums text with
  | .error e => .error e
  | .ok items =>
    match ofItems items.value with
    | .error e => .error e
    | .ok e =>
      match items.rest with
      | [] => .ok e
      | token :: _ => .error (.unexpectedToken token)

/-- Read the source text of an option or of a statement. -/
def parse (source : String) : Except ParseError Expression :=
  match tokenize source with
  | .error e => .error e
  | .ok text => ofTokens text

end PathTracer.Expression
