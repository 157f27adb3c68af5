import BranchPrediction.Json.Value

/-!
# JSON numerals

A numeral is a sign, digits before and perhaps behind a point, and perhaps an
exponent. It is split into these parts by `Numeral.read?`; `Numeral.number?`
says which number they are.

A numeral that is not an integer is read as a *significand*, its leading
digits as far as they fit into a word of 64 bits, times a power of ten. This
word and the power are both rounded to a float, and so is their product or
quotient, which is therefore not always the float next to the numeral.
-/

namespace BranchPrediction.Json

/-- The parts of a numeral. -/
structure Numeral where
  negative : Bool
  /-- The digits before the point, at least one. -/
  whole : List Char
  /-- The digits behind the point, none if there is no point. -/
  fraction : List Char
  exponent : Option Int
  deriving DecidableEq

namespace Numeral

/-! ## Reading -/

/-- The digits at the start of a text, and the rest of it. -/
def digits (cs : List Char) : List Char × List Char :=
  (cs.takeWhile Char.isDigit, cs.dropWhile Char.isDigit)

/-- The value of a digit. -/
def digitValue (c : Char) : Nat := c.toNat - '0'.toNat

/-- The number that a row of digits stands for. -/
def natOfDigits (ds : List Char) : Nat := ds.foldl (fun n d => 10 * n + digitValue d) 0

/-- Whether there is a minus, and the rest behind it. -/
def readMinus : List Char → Bool × List Char
  | '-' :: cs => (true, cs)
  | cs => (false, cs)

/-- Whether there is a minus, and the rest behind the sign. -/
def readSign : List Char → Bool × List Char
  | '+' :: cs => (false, cs)
  | cs => readMinus cs

/-- The digits at the start of a text, of which there must be some, and the
    rest of it. -/
def readDigits? (cs : List Char) : Option (List Char × List Char) :=
  if (digits cs).1 = [] then none else some (digits cs)

/-- The digits before the point. No zero comes before other digits. -/
def readWhole? (cs : List Char) : Option (List Char × List Char) := do
  let (ds, rest) ← readDigits? cs
  if ds.head? = some '0' ∧ 1 < ds.length then none else some (ds, rest)

/-- The digits behind the point, if there is one. -/
def readFraction? : List Char → Option (List Char × List Char)
  | '.' :: cs => readDigits? cs
  | cs => some ([], cs)

/-- The exponent, if there is one. -/
def readExponent? : List Char → Option (Option Int × List Char)
  | [] => some (none, [])
  | c :: cs =>
    if c = 'e' ∨ c = 'E' then do
      let (ds, rest) ← readDigits? (readSign cs).2
      return (some (if (readSign cs).1 then -natOfDigits ds else natOfDigits ds), rest)
    else some (none, c :: cs)

/-- The numeral at the start of a text, and the rest of it. -/
def read? (cs : List Char) : Option (Numeral × List Char) := do
  let (negative, cs) := readMinus cs
  let (whole, cs) ← readWhole? cs
  let (fraction, cs) ← readFraction? cs
  let (exponent, cs) ← readExponent? cs
  return ({ negative, whole, fraction, exponent }, cs)

/-- Looking for a minus adds nothing to the text. -/
theorem length_readMinus (cs : List Char) : (readMinus cs).2.length ≤ cs.length := by
  unfold readMinus
  split <;> simp

/-- Looking for a sign adds nothing to the text. -/
theorem length_readSign (cs : List Char) : (readSign cs).2.length ≤ cs.length := by
  unfold readSign
  split
  · simp
  · exact length_readMinus cs

/-- Digits that must be there are taken from the text. -/
theorem length_of_readDigits? {cs ds rest : List Char} (h : readDigits? cs = some (ds, rest)) :
    rest.length < cs.length := by
  have hlen : cs.length = (digits cs).1.length + (digits cs).2.length := by
    simp [digits, ← List.length_append]
  unfold readDigits? at h
  split at h
  · simp at h
  · next hds =>
    have hpos := List.length_pos_iff.2 hds
    rw [Option.some.inj h] at hpos hlen
    simp only at hpos hlen
    omega

/-- The digits before the point are taken from the text. -/
theorem length_of_readWhole? {cs ds rest : List Char} (h : readWhole? cs = some (ds, rest)) :
    rest.length < cs.length := by
  simp only [readWhole?, Option.bind_eq_bind, Option.bind_eq_some_iff, Prod.exists] at h
  obtain ⟨_, _, hds, h⟩ := h
  split at h
  · simp at h
  · obtain ⟨rfl, rfl⟩ := Prod.mk.inj (Option.some.inj h)
    exact length_of_readDigits? hds

/-- Looking for a fraction adds nothing to the text. -/
theorem length_of_readFraction? {cs ds rest : List Char} (h : readFraction? cs = some (ds, rest)) :
    rest.length ≤ cs.length := by
  unfold readFraction? at h
  split at h
  · exact Nat.le_succ_of_le (Nat.le_of_lt (length_of_readDigits? h))
  · simp_all

/-- Looking for an exponent adds nothing to the text. -/
theorem length_of_readExponent? {cs rest : List Char} {e : Option Int}
    (h : readExponent? cs = some (e, rest)) : rest.length ≤ cs.length := by
  unfold readExponent? at h
  split at h
  · simp_all
  · next c cs =>
    split at h
    · simp only [Option.bind_eq_bind, Option.bind_eq_some_iff, Prod.exists] at h
      obtain ⟨_, _, hds, h⟩ := h
      obtain ⟨_, rfl⟩ := Prod.mk.inj (Option.some.inj h)
      have := length_of_readDigits? hds
      have := length_readSign cs
      simp only [List.length_cons]
      omega
    · simp_all

/-- A numeral is taken from the text. -/
theorem length_of_read? {cs rest : List Char} {n : Numeral} (h : read? cs = some (n, rest)) :
    rest.length < cs.length := by
  simp only [read?, Option.bind_eq_bind, Option.bind_eq_some_iff, Prod.exists] at h
  obtain ⟨_, _, hw, _, _, hf, _, _, he, h⟩ := h
  obtain ⟨_, rfl⟩ := Prod.mk.inj (Option.some.inj h)
  have := length_readMinus cs
  have := length_of_readWhole? hw
  have := length_of_readFraction? hf
  have := length_of_readExponent? he
  omega

/-! ## The number -/

/-- The leading digits of a numeral, and the power of ten they are to be
    multiplied by. -/
structure Significand where
  value : Nat := 0
  exponent : Int := 0
  /-- Whether a digit has been left out. -/
  full : Bool := false

namespace Significand

/-- Whether there is room for another digit. -/
def Fits (s : Significand) (d : Nat) : Prop := s.full = false ∧ 10 * s.value + d < UInt64.size

instance (s : Significand) (d : Nat) : Decidable (s.Fits d) := instDecidableAnd

/-- Adds a digit before the point. One that is left out still counts for the
    power. -/
def addWhole (s : Significand) (d : Nat) : Significand :=
  if s.Fits d then { s with value := 10 * s.value + d }
  else { s with exponent := s.exponent + 1, full := true }

/-- Adds a digit behind the point. -/
def addFraction (s : Significand) (d : Nat) : Significand :=
  if s.Fits d then { s with value := 10 * s.value + d, exponent := s.exponent - 1 }
  else { s with full := true }

end Significand

/-- The largest power of ten that is a float. -/
def maxPower : Nat := 308

/-- The float next to a power of ten. -/
def powerOfTen (e : Nat) : Float := .ofScientific 1 false e

/-- A float times a power of ten, unless that is beyond the floats. -/
def scaleUp? (x : Float) (e : Nat) : Option Float :=
  if e ≤ maxPower then
    let y := x * powerOfTen e
    if y.isInf then none else some y
  else if x == 0 then some x
  else none

/-- A float divided by a power of ten. -/
def scaleDown (x : Float) (e : Nat) : Float :=
  if e ≤ maxPower then x / powerOfTen e
  else if x == 0 then x
  else scaleDown (x / powerOfTen maxPower) (e - maxPower)
termination_by e
decreasing_by unfold maxPower at *; omega

/-- The float that a significand and its exponent stand for, unless it is too
    large. -/
def scaled? (significand : Nat) : Int → Option Float
  | .ofNat e => scaleUp? significand.toUInt64.toFloat e
  | .negSucc e => some (scaleDown significand.toUInt64.toFloat (e + 1))

/-- The largest absolute value of a negative integer. -/
def maxNegative : Nat := 1 <<< 63

/-- The number that a numeral stands for, unless it is too large. -/
def number? (n : Numeral) : Option Number :=
  let whole := n.whole.foldl (fun s c => s.addWhole (digitValue c)) ({} : Significand)
  if n.fraction = [] ∧ n.exponent = none ∧ whole.full = false then
    if n.negative = false then some (.integer whole.value)
    else if 1 ≤ whole.value ∧ whole.value ≤ maxNegative then some (.integer (-whole.value))
    else some (.float (-whole.value.toUInt64.toFloat))
  else
    -- Where the digits before the point did not all fit, one behind it may
    -- fit again, and is then taken in.
    let s := n.fraction.foldl (fun s c => s.addFraction (digitValue c))
      { whole with full := false }
    (scaled? s.value (s.exponent + n.exponent.getD 0)).map fun x =>
      .float (if n.negative then -x else x)

end Numeral

end BranchPrediction.Json
