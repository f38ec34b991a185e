import PathTracer.Decimal.Literal

/-! The shortest decimal literal that reads back as a given binary32 number.
Decimal grids are tried from coarse to fine. On each of them only the two
neighbours of the number can read back, and the first grid with such a
neighbour has the fewest digits. A number in the middle between its two
neighbours leaves the choice to a rule for ties. -/
namespace PathTracer.Decimal

/-- Which neighbour stands for a number in the middle between two. -/
inductive Tie where
  | above
  /-- The one whose last digit is even. -/
  | even
  deriving Repr, DecidableEq

/-- `num / den` in units of `10 ^ exponent`, as a ratio of whole numbers. -/
def inTens (num den : Nat) (exponent : Int) : Nat × Nat :=
  match exponent with
  | .ofNat e => (num, den * Nat.pow 10 e)
  | .negSucc e => (num * Nat.pow 10 (e + 1), den)

/-- Whether a literal reads back as the number with this ordinal. -/
def readsBack (ordinal : Nat) (d : Literal) : Bool :=
  d.nearest single == ordinal

/-- Whether the whole number below `n / d` is preferred to the one above. -/
def prefersBelow (tie : Tie) (n d : Nat) : Bool :=
  decide (2 * (n % d) < d) || (tie == .even && decide (2 * (n % d) = d ∧ n / d % 2 = 0))

/-- The neighbour of a number on the grid of `10 ^ exponent` that reads back.
The nearer one is preferred. -/
def neighbour? (tie : Tie) (ordinal : Nat) (exponent : Int) : Option Literal :=
  let (num, den) := (single.magnitude ordinal).ratio
  let (n, d) := inTens num den exponent
  let below : Literal := ⟨n / d, exponent⟩
  let above : Literal := ⟨n / d + 1, exponent⟩
  if 2 * n < d then none
  else
    let (near, far) := if prefersBelow tie n d then (below, above) else (above, below)
    if readsBack ordinal near then some near
    else if readsBack ordinal far then some far
    else none

/-- The number itself, written out on the grid of the least exponent. -/
def exact (ordinal : Nat) : Literal :=
  let (num, den) := (single.magnitude ordinal).ratio
  ⟨num * Nat.pow 10 149 / den, -149⟩

/-- Try this many grids, each ten times finer than the one before. -/
def shortestFrom (tie : Tie) (ordinal : Nat) (exponent : Int) : Nat → Literal
  | 0 => exact ordinal
  | grids + 1 =>
    match neighbour? tie ordinal exponent with
    | some d => d
    | none => shortestFrom tie ordinal (exponent - 1) grids

/-- An exponent of ten above the number: its binary order times the
logarithm of two, rounded up. -/
def coarsestGrid (ordinal : Nat) : Int :=
  let d := single.magnitude ordinal
  (d.exponent + Nat.log2 d.significand + 1) * 30103 / 100000 + 1

/-- The shortest literal of a positive finite number, the nearest of those, and
of two equally near ones that which the tie rule chooses. -/
def shortest (tie : Tie) (ordinal : Nat) : Literal :=
  let coarsest := coarsestGrid ordinal
  shortestFrom tie ordinal coarsest (coarsest + 149).toNat

end PathTracer.Decimal
