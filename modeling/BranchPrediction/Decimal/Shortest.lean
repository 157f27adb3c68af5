/-!
# Shortest decimals

A float stands for the numbers that round to it, an interval around its own
value. The *shortest decimal* of a float is the one of fewest digits in this
interval, and of these the one next to the value.

Decimals of few digits are the points of a coarse grid, the multiples of a
power of ten. So the grids are tried from coarse to fine. Where a grid meets
the interval, it does so at one of the two points next to the value, since the
interval contains the value. All comparisons are of natural numbers.
-/

namespace BranchPrediction

/-- The number `digits * 10 ^ exponent`. -/
structure Decimal where
  digits : Nat
  exponent : Int
  deriving DecidableEq

namespace Decimal

/-- The number `mantissa * 2 ^ exponent`. -/
structure Binary where
  mantissa : Nat
  exponent : Int
  deriving DecidableEq

/-- The exponent of the smallest float that is not zero. -/
def minExponent : Int := -1074

/-- The mantissas of all but the smallest floats start here. -/
def minMantissa : Nat := 1 <<< 52

/-- The absolute value of a finite float. -/
def Binary.ofFloat (x : Float) : Binary :=
  let bits := x.toBits.toNat
  let fraction := bits % minMantissa
  let exponent : Nat := bits / minMantissa % 2048
  if exponent = 0 then ⟨fraction, minExponent⟩
  else ⟨minMantissa + fraction, minExponent + exponent - 1⟩

/-- What is left of the interval of `b`, in quarters of its unit. The float
    below is only half as far away if the exponent changes there. -/
def Binary.quartersBelow (b : Binary) : Nat :=
  if b.mantissa = minMantissa ∧ minExponent < b.exponent then 1 else 2

/-- What is right of the interval of `b`, in quarters of its unit. -/
def Binary.quartersAbove (_ : Binary) : Nat := 2

/-- The point of the grid of multiples of `10 ^ k` that stands for `b`: of those
    next to its value, the nearer one that rounds to it. Of two that are
    equally near, the even one is taken. -/
def Binary.onGrid? (b : Binary) (k : Int) : Option Nat :=
  -- Quarters of the unit of `b` and steps of the grid, in a common measure.
  let quarter := Nat.pow 2 (b.exponent - 2).toNat * Nat.pow 10 (-k).toNat
  let step := Nat.pow 2 (2 - b.exponent).toNat * Nat.pow 10 k.toNat
  let value := 4 * b.mantissa * quarter
  let low := (4 * b.mantissa - b.quartersBelow) * quarter
  let high := (4 * b.mantissa + b.quartersAbove) * quarter
  let inside (d : Nat) : Bool :=
    if b.mantissa % 2 = 0 then low ≤ d * step && d * step ≤ high
    else low < d * step && d * step < high
  let below := value / step
  let above := below + 1
  match inside below, inside above with
  | false, false => none
  | true, false => some below
  | false, true => some above
  | true, true =>
    match compare (value - below * step) (above * step - value) with
    | .lt => some below
    | .gt => some above
    | .eq => some (if below % 2 = 0 then below else above)

/-- The powers of ten of the grids that are tried. All floats are below the
    first, and the last is finer than the distance between any two. -/
def gridExponents : List Int := (List.range 634).map fun (i : Nat) => 309 - (i : Int)

/-- The shortest decimal of a float. -/
def Binary.shortest (b : Binary) : Decimal :=
  if b.mantissa = 0 then ⟨0, 0⟩
  else (gridExponents.findSome? fun k => (b.onGrid? k).map (⟨·, k⟩)).getD ⟨0, 0⟩

end Decimal

end BranchPrediction
