import GraphSchema.Decimal.Binary64

/-!
# The fewest digits that read back

A finite number of the binary format stands for every real number that rounds to it: an
interval around its exact value, with its ends included when the significand is even.  Among
the decimal grids (the multiples of a power of ten) `shortest` takes the coarsest one with a
point in that interval, and of the points of that grid the one nearest to the exact value.  If
a grid has a point in the interval at all, one of the two neighbours of the exact value on the
grid is in it, so only those two are tried.
-/

namespace GraphSchema.Decimal

/-- Which of two equally near neighbours is taken. -/
inductive Tie where
  | even
  | up
  deriving DecidableEq

/-- A positive decimal number, `digits * 10 ^ exponent`. -/
structure Scaled where
  digits : Nat
  exponent : Int
  deriving DecidableEq

/-- The reals that round to a number, in quarters of its last place: the bounds, the exact
value between them, and whether the bounds belong to the interval. -/
structure Interval where
  low : Nat
  mid : Nat
  high : Nat
  closed : Bool

/-- The interval of `significand * 2 ^ exponent`.  Below a power of two the numbers of the
format lie twice as close, except at the bottom of the range. -/
def Interval.around (significand : Nat) (exponent : Int) : Interval where
  low :=
    if significand = Nat.pow 2 52 ∧ exponent ≠ Binary64.leastExponent then 4 * significand - 1
    else 4 * significand - 2
  mid := 4 * significand
  high := 4 * significand + 2
  closed := significand % 2 == 0

/-- The point of the grid `10 ^ grid` that lies in the interval and is nearest to its exact
value, as a multiple of the grid; the interval counts in quarters of `2 ^ exponent`. -/
def gridPoint? (tie : Tie) (interval : Interval) (exponent grid : Int) : Option Nat :=
  let up := Nat.pow 2 (exponent - 2).toNat * Nat.pow 10 (-grid).toNat
  let down := Nat.pow 2 (2 - exponent).toNat * Nat.pow 10 grid.toNat
  let inside (point : Nat) : Bool :=
    if interval.closed then interval.low * up ≤ point * down && point * down ≤ interval.high * up
    else interval.low * up < point * down && point * down < interval.high * up
  let below := interval.mid * up / down
  let above := below + 1
  let missing := interval.mid * up - below * down
  let excess := above * down - interval.mid * up
  match inside below, inside above with
  | false, false => none
  | true, false => some below
  | false, true => some above
  | true, true =>
    if missing < excess then some below
    else if excess < missing then some above
    else if tie = .even ∧ below % 2 = 0 then some below
    else some above

/-- The first grid with a point in the interval, among `steps` grids from `grid` downward. -/
def coarsest (tie : Tie) (interval : Interval) (exponent : Int) : Nat → Int → Scaled
  | 0, grid => ⟨0, grid⟩
  | steps + 1, grid =>
    match gridPoint? tie interval exponent grid with
    | some point => ⟨point, grid⟩
    | none => coarsest tie interval exponent steps (grid - 1)

/-- The shortest decimal that reads back as `significand * 2 ^ exponent`.  No number of the
format reaches `10 ^ 309`, and the grid `10 ^ (-343)` is finer than every interval. -/
def shortest (tie : Tie) (significand : Nat) (exponent : Int) : Scaled :=
  coarsest tie (Interval.around significand exponent) exponent 653 309

/-- Of `4e-324` and `5e-324`, which both read back, the nearer one is taken. -/
example : shortest .even 1 (-1074) = ⟨5, -324⟩ := by decide +kernel

end GraphSchema.Decimal
