/-! Results of readers that consume a list from its start. Each carries a
proof about what is left, so that readers that call each other terminate. -/
namespace PathTracer

/-- A value read from the start of a list, of which something was consumed. -/
structure Parsed {τ : Type} (α : Type) (text : List τ) where
  value : α
  rest : List τ
  shorter : rest.length < text.length

/-- A value that the start of a list may have completed. -/
structure Continued {τ : Type} (α : Type) (text : List τ) where
  value : α
  rest : List τ
  notLonger : rest.length ≤ text.length

variable {τ α β : Type}

/-- A reading completed by what follows it. -/
def Parsed.continue {text : List τ} (p : Parsed α text) (c : Continued β p.rest) :
    Parsed β text :=
  ⟨c.value, c.rest, Nat.lt_of_le_of_lt c.notLonger p.shorter⟩

/-- A continuation that starts before a reading which it continues. -/
def Parsed.complete {text longer : List τ} (p : Parsed α text)
    (h : text.length ≤ longer.length) (c : Continued β p.rest) : Continued β longer :=
  ⟨c.value, c.rest, by have := p.shorter; have := c.notLonger; omega⟩

theorem length_dropWhile_le (p : τ → Bool) (text : List τ) :
    (text.dropWhile p).length ≤ text.length :=
  (List.dropWhile_sublist p).length_le

end PathTracer
