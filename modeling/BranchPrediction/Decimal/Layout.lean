import BranchPrediction.Decimal.Shortest

/-!
# Writing decimals

A float is written with the digits of its shortest decimal. If the power of
ten of the first digit is neither too small nor too large, they stand around
a point, with at least one on either side. Otherwise the point comes behind
the first digit, if there are more, and the power follows with its sign.
-/

namespace BranchPrediction.Decimal

/-- The powers of ten of the first digit for which no power is written. -/
def plainFrom : Int := -5

/-- The last of these powers. -/
def plainTo : Int := 15

/-- The power of ten of the first digit. -/
def leading (d : Decimal) : Int :=
  d.exponent + (Nat.toDigits 10 d.digits).length - 1

/-- A decimal written without a power. -/
def plain (d : Decimal) : List Char :=
  let ds := Nat.toDigits 10 d.digits
  if 0 ≤ d.exponent then ds ++ List.replicate d.exponent.toNat '0' ++ ['.', '0']
  else if 0 ≤ d.leading then
    let (whole, fraction) := ds.splitAt (d.leading.toNat + 1)
    whole ++ '.' :: fraction
  else ['0', '.'] ++ List.replicate (-d.leading - 1).toNat '0' ++ ds

/-- A decimal written with a power. -/
def scientific (d : Decimal) : List Char :=
  let power := (if d.leading < 0 then '-' else '+') :: Nat.toDigits 10 d.leading.natAbs
  match Nat.toDigits 10 d.digits with
  | first :: second :: rest => first :: '.' :: second :: rest ++ 'e' :: power
  | single => single ++ 'e' :: power

/-- A finite float as it is written. -/
def ofFloat (x : Float) : String :=
  let d := (Binary.ofFloat x).shortest
  let sign := if x.toBits >>> 63 = 1 then ['-'] else []
  .ofList (sign ++ if plainFrom ≤ d.leading ∧ d.leading ≤ plainTo then d.plain else d.scientific)

end BranchPrediction.Decimal
