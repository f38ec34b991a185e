import PathTracer.Decimal.Scaling
import PathTracer.Parsed

/-! Documents in the JSON format. A number keeps whether it was written as a
whole number, because a reader may not take `1.0` for one. -/
namespace PathTracer

/-- A number as it is written. -/
structure Json.Number where
  negative : Bool
  /-- The digits before the point. -/
  whole : List Char
  /-- The digits after the point, if there is one. -/
  fraction : List Char
  /-- The exponent, if there is one. -/
  power : Option Int
  deriving Repr, DecidableEq

namespace Json.Number

/-- Written without a fraction and without an exponent. -/
def isWhole (n : Number) : Bool :=
  n.fraction.isEmpty && n.power.isNone

/-- The digits before the point as a number. -/
def wholePart (n : Number) : Nat :=
  Decimal.digitsValue n.whole 0

/-- The number of binary64 that scaling reads, rounded to binary32. There is
none beyond the range of binary64. -/
def throughDouble? (n : Number) : Option Float32 :=
  (Decimal.fitted n.whole n.fraction (n.power.getD 0)).throughDouble? n.negative

end Json.Number

inductive Json where
  | null
  | bool (value : Bool)
  | number (value : Json.Number)
  | string (text : String)
  | array (items : List Json)
  | object (fields : List (String × Json))
  deriving Inhabited

namespace Json

/-- White space between the words of a document. -/
def isBlank (c : Char) : Bool :=
  c = ' ' || c = '\n' || c = '\t' || c = '\r'

def skipBlanks (text : List Char) : List Char :=
  text.dropWhile isBlank

theorem length_skipBlanks_le (text : List Char) :
    (skipBlanks text).length ≤ text.length :=
  length_dropWhile_le isBlank text

/-- The digits of the fraction at the start of a text: none without a point,
and some after one. -/
def fraction? : List Char → Option (List Char × List Char)
  | '.' :: rest =>
    if (rest.takeWhile Char.isDigit).isEmpty then none
    else some (rest.takeWhile Char.isDigit, rest.dropWhile Char.isDigit)
  | text => some ([], text)

/-- The exponent at the start of a text: nothing, or a letter, a sign if there
is one, and digits. -/
def exponent? : List Char → Option (Option Int × List Char)
  | c :: rest =>
    if c = 'e' || c = 'E' then
      let (negative, digits) := match rest with
        | '-' :: more => (true, more)
        | '+' :: more => (false, more)
        | more => (false, more)
      if (digits.takeWhile Char.isDigit).isEmpty then none
      else
        let value := Decimal.digitsValue (digits.takeWhile Char.isDigit) 0
        some (some (if negative then -(value : Int) else value), digits.dropWhile Char.isDigit)
    else some (none, c :: rest)
  | [] => some (none, [])

/-- Whether digits are a whole number without superfluous zeros. -/
def isWholeNumber : List Char → Bool
  | [] => false
  | ['0'] => true
  | c :: _ => c != '0'

/-- The number at the start of a text, after its sign. -/
def magnitude? (negative : Bool) (text : List Char) : Option (Number × List Char) := do
  let whole := text.takeWhile Char.isDigit
  if !isWholeNumber whole then none
  let (fraction, afterFraction) ← fraction? (text.dropWhile Char.isDigit)
  let (power, rest) ← exponent? afterFraction
  return (⟨negative, whole, fraction, power⟩, rest)

def number? : List Char → Option (Number × List Char)
  | '-' :: rest => magnitude? true rest
  | text => magnitude? false text

/-- The value of a hexadecimal digit. -/
def hexDigit? (c : Char) : Option Nat :=
  if c.isDigit then some (c.toNat - '0'.toNat)
  else if 'a' ≤ c ∧ c ≤ 'f' then some (c.toNat - 'a'.toNat + 10)
  else if 'A' ≤ c ∧ c ≤ 'F' then some (c.toNat - 'A'.toNat + 10)
  else none

/-- The character that an escape of one letter stands for. -/
def escaped? : Char → Option Char
  | '"' => some '"'
  | '\\' => some '\\'
  | '/' => some '/'
  | 'b' => some '\x08'
  | 'f' => some '\x0c'
  | 'n' => some '\n'
  | 'r' => some '\r'
  | 't' => some '\t'
  | _ => none

/-- The codes of a string up to its closing quote. Escapes of four digits
give their code, which may be half of a pair. -/
def stringCodes : (text : List Char) → Option (List Nat × List Char)
  | [] => none
  | '"' :: rest => some ([], rest)
  | '\\' :: 'u' :: a :: b :: c :: d :: rest => do
    let a ← hexDigit? a
    let b ← hexDigit? b
    let c ← hexDigit? c
    let d ← hexDigit? d
    let (codes, after) ← stringCodes rest
    return ((((a * 16 + b) * 16 + c) * 16 + d) :: codes, after)
  | '\\' :: c :: rest => do
    let e ← escaped? c
    let (codes, after) ← stringCodes rest
    return (e.toNat :: codes, after)
  | c :: rest => do
    if c.toNat < 0x20 || c = '\\' then none
    let (codes, after) ← stringCodes rest
    return (c.toNat :: codes, after)

def isHighHalf (code : Nat) : Bool :=
  0xd800 ≤ code && code < 0xdc00

def isLowHalf (code : Nat) : Bool :=
  0xdc00 ≤ code && code < 0xe000

/-- Join the halves of pairs. A half without its partner is no character. -/
def joinPairs : List Nat → List (Option Char)
  | high :: low :: rest =>
    if isHighHalf high && isLowHalf low then
      some (Char.ofNat (0x10000 + (high - 0xd800) * 0x400 + (low - 0xdc00))) :: joinPairs rest
    else if isHighHalf high || isLowHalf high then none :: joinPairs (low :: rest)
    else some (Char.ofNat high) :: joinPairs (low :: rest)
  | [code] => [if isHighHalf code || isLowHalf code then none else some (Char.ofNat code)]
  | [] => []

/-- The text of a string, with a replacement for what is no character. -/
def lenientText (codes : List Nat) : String :=
  String.ofList ((joinPairs codes).map fun c => c.getD '\ufffd')

/-- The text of a string that consists of characters. -/
def strictText? (codes : List Nat) : Option String :=
  ((joinPairs codes).mapM id).map String.ofList

/-- A reading that consumed something, with the proof of it. -/
def consumed? {α : Type} (text : List Char) (r : α × List Char) : Option (Parsed α text) :=
  if h : r.2.length < text.length then some ⟨r.1, r.2, h⟩ else none

/-- The key of a field, with the colon after it. A strict key consists of
characters. -/
def key? (strict : Bool) (text : List Char) : Option (Parsed String text) :=
  match text with
  | '"' :: rest => do
    let (codes, after) ← stringCodes rest
    let name ← if strict then strictText? codes else some (lenientText codes)
    match skipBlanks after with
    | ':' :: more => consumed? _ (name, more)
    | _ => none
  | _ => none

mutual

/-- The value at the start of a text that starts without white space. Its own
keys can be strict, and those of values within it are not. -/
def value? (strict : Bool) (text : List Char) : Option (Parsed Json text) :=
  match text with
  | 'n' :: 'u' :: 'l' :: 'l' :: rest => consumed? _ (null, rest)
  | 't' :: 'r' :: 'u' :: 'e' :: rest => consumed? _ (bool true, rest)
  | 'f' :: 'a' :: 'l' :: 's' :: 'e' :: rest => consumed? _ (bool false, rest)
  | '"' :: rest =>
    match stringCodes rest with
    | none => none
    | some (codes, after) => consumed? _ (string (lenientText codes), after)
  | '[' :: rest =>
    have := length_skipBlanks_le rest
    match skipBlanks rest with
    | ']' :: after => consumed? _ (array [], after)
    | _ =>
      match items? (skipBlanks rest) with
      | none => none
      | some items => consumed? _ (array items.value, items.rest)
  | '\x7b' :: rest =>
    have := length_skipBlanks_le rest
    match skipBlanks rest with
    | '\x7d' :: after => consumed? _ (object [], after)
    | _ =>
      match fields? strict (skipBlanks rest) with
      | none => none
      | some fields => consumed? _ (object fields.value, fields.rest)
  | text =>
    match number? text with
    | none => none
    | some (n, rest) => consumed? _ (number n, rest)
termination_by (text.length, 0)

/-- Values with commas between them, up to the closing bracket. -/
def items? (text : List Char) : Option (Parsed (List Json) text) :=
  match value? false text with
  | none => none
  | some first =>
    match skipBlanks first.rest with
    | ']' :: after => consumed? _ ([first.value], after)
    | ',' :: more =>
      match consumed? text ((), skipBlanks more) with
      | none => none
      | some next =>
        have := next.shorter
        match items? next.rest with
        | none => none
        | some items => consumed? _ (first.value :: items.value, items.rest)
    | _ => none
termination_by (text.length, 1)

/-- Fields with commas between them, up to the closing brace. -/
def fields? (strict : Bool) (text : List Char) :
    Option (Parsed (List (String × Json)) text) :=
  match key? strict text with
  | none => none
  | some key =>
    match consumed? text ((), skipBlanks key.rest) with
    | none => none
    | some start =>
      have := start.shorter
      match value? false start.rest with
      | none => none
      | some first =>
        match skipBlanks first.rest with
        | '\x7d' :: after => consumed? _ ([(key.value, first.value)], after)
        | ',' :: more =>
          match consumed? text ((), skipBlanks more) with
          | none => none
          | some next =>
            have := next.shorter
            match fields? strict next.rest with
            | none => none
            | some fields => consumed? _ ((key.value, first.value) :: fields.value, fields.rest)
        | _ => none
termination_by (text.length, 2)

end

/-- The document that a text holds, with nothing but white space around it. -/
def parse? (text : String) : Option Json :=
  match value? true (skipBlanks text.toList) with
  | some p => if (skipBlanks p.rest).isEmpty then some p.value else none
  | none => none

end Json

end PathTracer
