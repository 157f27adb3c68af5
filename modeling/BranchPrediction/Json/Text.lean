/-!
# JSON strings

The text between the quotes of a JSON string is read in two steps. First,
each character or escape becomes a *piece*: a character, or a *unit* of 16
bits given by its number. Then the units become characters: one that is half
of a *surrogate pair* must be followed by its other half, and the two make one
character.
-/

namespace BranchPrediction.Json.Text

/-- What a character or an escape of a string stands for. -/
inductive Piece
  | char (c : Char)
  | unit (n : Nat)
  deriving DecidableEq

/-- The character that a backslash makes of another. -/
def escaped? : Char → Option Char
  | '"' => some '"'
  | '\\' => some '\\'
  | '/' => some '/'
  | 'b' => some '\x08'
  | 'f' => some '\x0c'
  | 'n' => some '\n'
  | 'r' => some '\r'
  | 't' => some '\t'
  | _ => none

/-- The value of a digit to the base sixteen. -/
def hexDigit? (c : Char) : Option Nat :=
  if '0' ≤ c ∧ c ≤ '9' then some (c.toNat - '0'.toNat)
  else if 'a' ≤ c ∧ c ≤ 'f' then some (c.toNat - 'a'.toNat + 10)
  else if 'A' ≤ c ∧ c ≤ 'F' then some (c.toNat - 'A'.toNat + 10)
  else none

/-- The unit of four digits to the base sixteen. -/
def unit? (a b c d : Char) : Option Nat := do
  return ((← hexDigit? a) * 16 + (← hexDigit? b)) * 256 +
    ((← hexDigit? c) * 16 + (← hexDigit? d))

/-- The pieces up to the closing quote, and the rest behind it. Control
    characters must be escaped. -/
def pieces? : List Char → Option (List Piece × List Char)
  | [] => none
  | '"' :: cs => some ([], cs)
  | '\\' :: 'u' :: a :: b :: c :: d :: cs => do
    let n ← unit? a b c d
    let (ps, rest) ← pieces? cs
    return (.unit n :: ps, rest)
  | '\\' :: c :: cs => do
    let c ← escaped? c
    let (ps, rest) ← pieces? cs
    return (.char c :: ps, rest)
  | c :: cs =>
    if ' ' ≤ c then do
      let (ps, rest) ← pieces? cs
      return (.char c :: ps, rest)
    else none

/-- Whether a unit is the first half of a surrogate pair. -/
def IsHighSurrogate (n : Nat) : Prop := 0xD800 ≤ n ∧ n < 0xDC00

/-- Whether a unit is the second half of a surrogate pair. -/
def IsLowSurrogate (n : Nat) : Prop := 0xDC00 ≤ n ∧ n < 0xE000

instance (n : Nat) : Decidable (IsHighSurrogate n) := instDecidableAnd

instance (n : Nat) : Decidable (IsLowSurrogate n) := instDecidableAnd

/-- The character of a surrogate pair. -/
def pairChar (high low : Nat) : Char :=
  .ofNat (0x10000 + (high - 0xD800) * 0x400 + (low - 0xDC00))

/-- The characters that pieces stand for, if every half of a pair is next to the
    other. -/
def join? : List Piece → Option (List Char)
  | [] => some []
  | .char c :: ps => (join? ps).map (c :: ·)
  | .unit n :: ps =>
    if IsLowSurrogate n then none
    else if IsHighSurrogate n then
      match ps with
      | .unit m :: ps =>
        if IsLowSurrogate m then (join? ps).map (pairChar n m :: ·) else none
      | _ => none
    else (join? ps).map (.ofNat n :: ·)

/-- The string up to the closing quote, and the rest behind it. -/
def read? (cs : List Char) : Option (String × List Char) := do
  let (ps, rest) ← pieces? cs
  return (.ofList (← join? ps), rest)

/-- The closing quote at least is taken from the text. -/
theorem length_of_pieces? {cs rest : List Char} {ps : List Piece}
    (h : pieces? cs = some (ps, rest)) : rest.length < cs.length := by
  fun_induction pieces? cs generalizing ps with
  | case1 => simp at h
  | case2 cs => simp_all
  | case3 a b c d cs ih =>
    simp only [Option.bind_eq_bind, Option.bind_eq_some_iff, Prod.exists] at h
    obtain ⟨_, _, _, _, hps, h⟩ := h
    obtain ⟨_, rfl⟩ := Prod.mk.inj (Option.some.inj h)
    have := ih hps
    simp only [List.length_cons]
    omega
  | case4 c cs _ ih =>
    simp only [Option.bind_eq_bind, Option.bind_eq_some_iff, Prod.exists] at h
    obtain ⟨_, _, _, _, hps, h⟩ := h
    obtain ⟨_, rfl⟩ := Prod.mk.inj (Option.some.inj h)
    have := ih hps
    simp only [List.length_cons]
    omega
  | case5 c cs _ _ _ _ ih =>
    simp only [Option.bind_eq_bind, Option.bind_eq_some_iff, Prod.exists] at h
    obtain ⟨_, _, hps, h⟩ := h
    obtain ⟨_, rfl⟩ := Prod.mk.inj (Option.some.inj h)
    have := ih hps
    simp only [List.length_cons]
    omega
  | case6 => simp at h

/-- A string is taken from the text. -/
theorem length_of_read? {cs rest : List Char} {s : String} (h : read? cs = some (s, rest)) :
    rest.length < cs.length := by
  simp only [read?, Option.bind_eq_bind, Option.bind_eq_some_iff, Prod.exists] at h
  obtain ⟨_, _, hps, _, _, h⟩ := h
  obtain ⟨_, rfl⟩ := Prod.mk.inj (Option.some.inj h)
  exact length_of_pieces? hps

end BranchPrediction.Json.Text
